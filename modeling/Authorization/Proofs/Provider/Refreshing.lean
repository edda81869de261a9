import Authorization.Proofs.World.Refresh
import Authorization.Session

/-!
# Refreshing every member

A composite that is refreshed takes the current content and then refreshes its members one after
the other, each in the state that the one before it left, whatever that one returned (`Refreshes`).
Its report names every member that failed, in their order; nothing that the others did is undone
(`refresh_exhaustive`).
-/

namespace Authorization.Arrangement

variable {σ L : Type} (actions : RefreshActions (StateM σ) L)

/-- What a composite reports of a member's refresh, if it failed. -/
def failure? (member : Arrangement L) : Except AuthorizationError Unit → Option AuthorizationError
  | .ok _ => none
  | .error error => some (.refreshFailed (member.name actions.name) error.message)

/-- What a composite reports of members with the outcomes of their refreshes. -/
def failures (members : List (Arrangement L)) (outcomes : List (Except AuthorizationError Unit)) :
    List AuthorizationError :=
  (members.zip outcomes).filterMap fun (member, outcome) => failure? actions member outcome

/-- Refreshes of members in order, each of them once, and each in the state that the one before it
left. -/
inductive Refreshes : List (Arrangement L) → σ → List (Except AuthorizationError Unit) → σ → Prop
  | nil (state : σ) : Refreshes [] state [] state
  | cons {member : Arrangement L} {members : List (Arrangement L)} {before between after : σ}
      {outcome : Except AuthorizationError Unit} {outcomes : List (Except AuthorizationError Unit)}
      (first : (member.refresh actions).run before = (outcome, between))
      (others : Refreshes members between outcomes after) :
      Refreshes (member :: members) before (outcome :: outcomes) after

/-- How the report of a composite follows from the outcomes of its members. -/
structure Reported (members : List (Arrangement L))
    (outcomes : List (Except AuthorizationError Unit)) (report : Except AuthorizationError Unit) :
    Prop where
  succeeded : report = .ok () ↔ ∀ outcome ∈ outcomes, outcome = .ok ()
  single : ∀ failure, failures actions members outcomes = [failure] → report = .error failure
  several : 2 ≤ (failures actions members outcomes).length →
    report = .error (.refresh (failures actions members outcomes))

variable {actions} {members : List (Arrangement L)} {before after : σ}
  {outcomes : List (Except AuthorizationError Unit)}

theorem Refreshes.length_eq (refreshes : Refreshes actions members before outcomes after) :
    outcomes.length = members.length := by
  induction refreshes with
  | nil => rfl
  | cons _ _ ih => rw [List.length_cons, List.length_cons, ih]

/-- Refreshing members comes to an end and gives their failures. -/
theorem refreshes_members (actions : RefreshActions (StateM σ) L) (members : List (Arrangement L))
    (before : σ) :
    ∃ outcomes after, Refreshes actions members before outcomes after ∧
      (refreshMembers actions members).run before = (failures actions members outcomes, after) := by
  induction members generalizing before with
  | nil => exact ⟨[], before, .nil before, rfl⟩
  | cons member members ih =>
      cases first : (member.refresh actions).run before with
      | mk outcome between =>
          obtain ⟨outcomes, after, others, result⟩ := ih between
          refine ⟨outcome :: outcomes, after, .cons first others, ?_⟩
          rw [refreshMembers, StateT.run_bind, first]
          change (refreshMembers actions members >>= fun others => pure _).run between = _
          rw [StateT.run_bind, result]
          cases outcome <;> rfl

/-- Nothing is reported exactly if every member was refreshed. -/
theorem failures_eq_nil_iff (same : outcomes.length = members.length) :
    failures actions members outcomes = [] ↔ ∀ outcome ∈ outcomes, outcome = .ok () := by
  have paired : (∀ outcome ∈ (members.zip outcomes).map Prod.snd, outcome = .ok ()) ↔
      ∀ pair ∈ members.zip outcomes, pair.2 = .ok () := List.forall_mem_map
  rw [List.map_snd_zip (Nat.le_of_eq same)] at paired
  rw [paired, failures, List.filterMap_eq_nil_iff]
  refine forall₂_congr fun pair _ => ?_
  obtain ⟨member, _ | done⟩ := pair
  · exact iff_of_false nofun nofun
  · exact iff_of_true rfl rfl

/-- What failed is reported as a whole. -/
theorem reported_ofFailures (same : outcomes.length = members.length) :
    Reported actions members outcomes
      (AuthorizationError.ofFailures (failures actions members outcomes)) where
  succeeded := by
    have none : failures actions members outcomes = [] ↔ _ := failures_eq_nil_iff same
    rw [← none]
    match failures actions members outcomes with
    | [] => exact iff_of_true rfl rfl
    | [_] | _ :: _ :: _ => exact iff_of_false nofun nofun
  single failure only := by rw [only]; rfl
  several many := by
    match failures actions members outcomes, many with
    | _ :: _ :: _, _ => rfl

/-- A composite refreshes its members in the state that taking the current content leaves. -/
theorem refreshes_composite (actions : RefreshActions (StateM σ) L) (combination : Combination)
    (members : List (Arrangement L)) (before : σ) :
    ∃ outcomes after,
      Refreshes actions members ((actions.republish combination.id).run before).2 outcomes after ∧
        ((composite combination members).refresh actions).run before =
          (AuthorizationError.ofFailures (failures actions members outcomes), after) := by
  obtain ⟨outcomes, after, refreshes, result⟩ :=
    refreshes_members actions members ((actions.republish combination.id).run before).2
  refine ⟨outcomes, after, refreshes, ?_⟩
  rw [refresh, StateT.run_bind]
  change (refreshMembers actions members >>= fun others => pure _).run _ = _
  rw [StateT.run_bind, result]
  rfl

section Kept

variable {holds : σ → Prop}

/-- What each refresh keeps is kept by refreshing all members. -/
theorem Refreshes.kept (refreshes : Refreshes actions members before outcomes after)
    (keep : ∀ member ∈ members, ∀ state, holds state →
      holds ((member.refresh actions).run state).2)
    (held : holds before) : holds after := by
  induction refreshes with
  | nil => exact held
  | cons first _ ih =>
      have here := keep _ List.mem_cons_self _ held
      rw [first] at here
      exact ih (fun member listed => keep member (List.mem_cons_of_mem _ listed)) here

/-- What a member's refresh brings about when it succeeds holds in the end, if no refresh of a
member undoes it. -/
theorem Refreshes.established (refreshes : Refreshes actions members before outcomes after)
    (keep : ∀ member ∈ members, ∀ state, holds state →
      holds ((member.refresh actions).run state).2)
    {member : Arrangement L} (succeeded : (member, .ok ()) ∈ members.zip outcomes)
    (establish : ∀ state, ((member.refresh actions).run state).1 = .ok () →
      holds ((member.refresh actions).run state).2) : holds after := by
  induction refreshes with
  | nil => simp at succeeded
  | cons first others ih =>
      have later := fun other listed => keep other (List.mem_cons_of_mem _ listed)
      rcases List.mem_cons.mp succeeded with here | there
      · obtain ⟨rfl, rfl⟩ := Prod.mk.inj here
        have held := establish _ (congrArg Prod.fst first)
        rw [first] at held
        exact others.kept later held
      · exact ih later there

variable (republish : ∀ id state, holds state → holds ((actions.republish id).run state).2)
  (leaf : ∀ single state, holds state → holds ((actions.refreshLeaf single).run state).2)

include republish leaf

/-- What refreshing a single provider and taking current content keep, every refresh keeps. -/
theorem refresh_kept (arrangement : Arrangement L) {state : σ} (held : holds state) :
    holds ((arrangement.refresh actions).run state).2 := by
  induction arrangement generalizing state with
  | empty => exact held
  | leaf single => exact leaf single state held
  | composite combination members ih =>
      obtain ⟨outcomes, after, refreshes, result⟩ :=
        refreshes_composite actions combination members state
      rw [result]
      exact refreshes.kept (fun member listed _ held => ih member listed held)
        (republish combination.id state held)

end Kept

/-- What the two kinds of steps of a session's refresh keep of the world. -/
theorem session_kept (holds : World → Prop)
    (republish : ∀ world id, holds world → holds (world.republish id))
    (refreshPolicy : ∀ world id, holds world → holds (world.refreshPolicy id)) :
    (∀ id (state : Session), holds state.world →
      holds ((Session.refreshActions.republish id).run state).2.world) ∧
    ∀ single (state : Session), holds state.world →
      holds ((Session.refreshActions.refreshLeaf single).run state).2.world := by
  refine ⟨fun id state held => republish _ id held, fun single state held => ?_⟩
  cases single with
  | policy leaf => exact refreshPolicy _ leaf.id held
  | uniform leaf => exact held

/-- **A refresh reaches every member.** After the current content is taken, every member of a
composite is refreshed once and in order, whatever the members before it returned. The composite
reports no failure if there was none, a single one as it is, and several together. What taking the
content brought about, or a member's refresh that succeeded, still holds in the end, unless some
part of the refresh undoes it. -/
theorem refresh_exhaustive (actions : RefreshActions (StateM σ) L) (combination : Combination)
    (members : List (Arrangement L)) (before : σ) :
    ∃ outcomes report after,
      ((composite combination members).refresh actions).run before = (report, after) ∧
      Refreshes actions members ((actions.republish combination.id).run before).2 outcomes after ∧
      Reported actions members outcomes report ∧
      ∀ holds : σ → Prop,
        (∀ id state, holds state → holds ((actions.republish id).run state).2) →
        (∀ single state, holds state → holds ((actions.refreshLeaf single).run state).2) →
          (holds ((actions.republish combination.id).run before).2 → holds after) ∧
          ∀ member, (member, .ok ()) ∈ members.zip outcomes →
            (∀ state, ((member.refresh actions).run state).1 = .ok () →
              holds ((member.refresh actions).run state).2) → holds after := by
  obtain ⟨outcomes, after, refreshes, result⟩ :=
    refreshes_composite actions combination members before
  refine ⟨outcomes, _, after, result, refreshes, reported_ofFailures refreshes.length_eq, ?_⟩
  intro holds republish leaf
  have keep : ∀ member ∈ members, ∀ state, holds state →
      holds ((member.refresh actions).run state).2 :=
    fun member _ _ held => refresh_kept republish leaf member held
  exact ⟨refreshes.kept keep, fun member succeeded establish =>
    refreshes.established keep succeeded establish⟩

/-- Between two providers that fail, one of them a composite whose own members both fail, a policy
provider is refreshed: its staged policy comes into force and the composite sees the published
content, although the refresh fails. -/
theorem staged_policy_in_force_beside_failures :
    let reading : Policy := { covers := Permissions.read }
    let docs : Node := Node.ofContent [{ path := "/docs" }]
    let failing (name : String) : Arrangement SessionLeaf := .leaf (.uniform
      { id := 1, name, covers := ∅, granted := ∅, propertyGrants := [], mode := .masks
        refreshError := some "offline", privilegeError := none, reports := none })
    let inner : Combination := { id := 1, composition := .or, context := .plain
                                 classify := Context.plain.classify, catalogue := .builtin }
    let reader : Arrangement SessionLeaf := .leaf (.policy ⟨0, "reader", .plain⟩)
    let members := [failing "first", reader, composite inner [failing "second", failing "third"]]
    let several := (AuthorizationError.refresh
      [.refreshFailed "second" "offline", .refreshFailed "third" "offline"]).message
    let session : Session :=
      { world := ((World.initial none fun _ => { covers := ∅ }).stage 0 reading).publish docs
        content := none, top := .empty, leaves := [] }
    let failures := [.refreshFailed "first" "offline", .refreshFailed "composite-or" several]
    ∃ after,
      ((composite { inner with id := 0 } members).refresh Session.refreshActions).run session =
        (.error (.refresh failures), after) ∧
      after.world.roots 0 = docs ∧ (after.world.policies 0).policy = reading := by
  intro reading docs failing inner reader members several session failures
  obtain ⟨outcomes, report, after, result, refreshes, -, lasting⟩ :=
    refresh_exhaustive Session.refreshActions { inner with id := 0 } members session
  have failed : report = .error (.refresh failures) := (congrArg Prod.fst result).symm
  have succeeded : (reader, .ok ()) ∈ members.zip outcomes := by
    change Refreshes _ [_, _, _] _ _ _ at refreshes
    obtain _ | ⟨first, _ | ⟨second, _ | ⟨third, _ | _⟩⟩⟩ := refreshes
    cases second
    simp [members]
  have current : after.world.published = docs ∧ after.world.roots 0 = docs := by
    have kept := session_kept (fun world => world.published = docs ∧ world.roots 0 = docs)
      (fun world id held => by
        rw [World.republish_eq, World.refreshed]
        dsimp only
        split
        · exact ⟨held.1, held.1⟩
        · exact held)
      fun _ _ held => held
    exact (lasting _ kept.1 kept.2).1 ⟨rfl, rfl⟩
  have coming : (after.world.policies 0).staged.getD (after.world.policies 0).policy = reading := by
    have kept := session_kept
      (fun world => (world.policies 0).staged.getD (world.policies 0).policy = reading)
      (fun _ _ held => held)
      fun world id held => by
        rw [World.refreshPolicy_eq, World.refreshed]
        dsimp only
        split <;> exact held
    exact (lasting _ kept.1 kept.2).1 rfl
  have settled : (after.world.policies 0).staged = none := by
    have kept := session_kept (fun world => (world.policies 0).staged = none)
      (fun _ _ held => held)
      fun world id held => by
        rw [World.refreshPolicy_eq, World.refreshed]
        dsimp only
        split
        · rfl
        · exact held
    exact (lasting _ kept.1 kept.2).2 reader succeeded fun _ _ => rfl
  refine ⟨after, failed ▸ result, current.2, ?_⟩
  rw [← coming, settled]
  rfl

end Authorization.Arrangement
