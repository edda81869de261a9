import Authorization.Proofs.Provider.Refreshing
import Authorization.World

/-!
# Histories of providers

Providers change as policies are staged, content is published and providers are refreshed. What
every single step of a refresh keeps, refreshing a whole arrangement keeps (`refresh_induction`);
a provider for which only policies of one coverage are staged keeps that coverage throughout
(`Steady.after`).
-/

namespace Authorization

/-- Something that happens to the state that providers share. -/
inductive Change where
  | stage (id : Nat) (policy : Policy)
  | publish (content : NodeState)
  | refresh (arrangement : Arrangement PolicyLeaf)

namespace World

/-- The state after a change. -/
def apply (world : World) : Change → World
  | .stage id policy => world.stage id policy
  | .publish content => world.publish content
  | .refresh arrangement => (world.refresh arrangement).2

/-- The state after several changes. -/
def after (world : World) (changes : List Change) : World := changes.foldl apply world

section Refresh

variable {holds : World → Prop}
  (leaf : ∀ world id, holds world → holds (world.refreshPolicy id))
  (composite : ∀ world id, holds world → holds (world.republish id))

include leaf composite

/-- What refreshing a policy provider and taking current content keep, every refresh keeps. -/
theorem refresh_induction (arrangement : Arrangement PolicyLeaf) {world : World}
    (held : holds world) : holds (world.refresh arrangement).2 :=
  Arrangement.refresh_kept (fun id world => composite world id)
    (fun single world => leaf world single.id) arrangement held

end Refresh

/-- The policy provider of a number covers what it covered at first, now and after refreshing. -/
structure Steady (first : World) (id : Nat) (world : World) : Prop where
  inForce : (world.policies id).policy.covers = (first.policies id).policy.covers
  staged : ∀ policy ∈ (world.policies id).staged, policy.covers = (first.policies id).policy.covers

end World

/-- A change that stages no policy of another coverage for the policy provider of a number. -/
def Change.KeepsCoverage (first : World) (id : Nat) : Change → Prop
  | .stage other policy => other = id → policy.covers = (first.policies id).policy.covers
  | .publish _ | .refresh _ => True

namespace World

variable {first world : World} {id : Nat}

theorem Steady.stage (steady : first.Steady id world) {other : Nat} {policy : Policy}
    (keeps : (Change.stage other policy).KeepsCoverage first id) :
    first.Steady id (world.stage other policy) := by
  by_cases here : id = other
  · subst here
    have state : ((world.stage id policy).policies id) = (world.policies id).stage policy :=
      if_pos rfl
    constructor
    · rw [state]
      exact steady.inForce
    · rw [state]
      rintro staged ⟨⟩
      exact keeps rfl
  · have state : ((world.stage other policy).policies id) = world.policies id := if_neg here
    exact ⟨by rw [state]; exact steady.inForce, by rw [state]; exact steady.staged⟩

theorem Steady.refreshPolicy (steady : first.Steady id world) (other : Nat) :
    first.Steady id (world.refreshPolicy other) := by
  by_cases here : id = other
  · subst here
    have state : ((world.refreshPolicy id).policies id) =
        (world.policies id).refresh world.published := if_pos rfl
    constructor
    · rw [state, PolicyState.refresh]
      cases staged : (world.policies id).staged with
      | none => exact steady.inForce
      | some policy => exact steady.staged policy staged
    · rw [state]
      rintro staged ⟨⟩
  · have state : ((world.refreshPolicy other).policies id) = world.policies id := if_neg here
    exact ⟨by rw [state]; exact steady.inForce, by rw [state]; exact steady.staged⟩

/-- A world stays steady under a change that keeps the coverage of the leaf. -/
theorem Steady.apply (steady : first.Steady id world) {change : Change}
    (keeps : change.KeepsCoverage first id) : first.Steady id (world.apply change) := by
  cases change with
  | stage other policy => exact steady.stage keeps
  | publish content => exact ⟨steady.inForce, steady.staged⟩
  | refresh arrangement =>
      exact refresh_induction (fun _ other steady => steady.refreshPolicy other)
        (fun _ _ steady => ⟨steady.inForce, steady.staged⟩) arrangement steady

/-- A provider keeps its coverage as long as no policy of another coverage is staged for it. -/
theorem Steady.after (steady : first.Steady id world) {changes : List Change}
    (keeps : ∀ change ∈ changes, change.KeepsCoverage first id) :
    first.Steady id (world.after changes) := by
  induction changes generalizing world with
  | nil => exact steady
  | cons change changes ih =>
      exact ih (steady.apply (keeps change List.mem_cons_self))
        fun other later => keeps other (List.mem_cons_of_mem _ later)

end World

end Authorization
