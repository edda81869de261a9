import Mathlib.Data.List.Chain
import Mathlib.Logic.Relation
import Authorization.Proofs.Decision.Consultation

/-!
# Leaves decide in lockstep

From a decision about the root a journey goes on downwards, through a composite that is asked about
a tree together with the last decision, or through the last decision itself. The leaves may change
between any two steps.

At the root every leaf is consulted once. At each further place every leaf is consulted once that
has not given up on recourse, with its own decision about the parent, until no leaf grants anything.
From there on, as below every decision that is the same for a whole subtree, no leaf is consulted
(`leaves_consulted_in_lockstep`). What one leaf is consulted about forms a chain, in which each
question brings back the answer before (`Lockstep.chained`).
-/

namespace Authorization

open Watched

variable {n : Nat} {σ D : Type}

/-- What is consulted on the way from the root along names, ending with a visit of the place that
they lead to: every leaf at the root, with the empty decision for a parent, and at each further
place the leaves that have recourse, with their decisions about the place before. Below the root the
way only goes on while some leaf may grant something. -/
inductive Lockstep (classify : Classifier) :
    List String → Visit n D → List (Consultation n D) → Prop
  | root {visit : Visit n D} (top : visit.tree.path = Path.root) (type : visit.type = .default) :
      Lockstep classify [] visit (visit.consultations fun _ => .empty)
  | descend {names : List String} {name : String} {before visit : Visit n D}
      {log : List (Consultation n D)} (above : Lockstep classify names before log)
      (granting : names = [] ∨ ¬ before.GrantsNothing) (named : Path.IsName name)
      (here : visit.tree.path = Path.ofElements (names ++ [name]))
      (type : visit.type = classify visit.tree before.type)
      (passes : visit.Passes before.held) :
      Lockstep classify (names ++ [name]) visit (log ++ visit.consultations before.held)

namespace Lockstep

variable {classify : Classifier} {names : List String} {visit : Visit n D}
  {log : List (Consultation n D)}

theorem isName (lockstep : Lockstep classify names visit log) :
    ∀ name ∈ names, Path.IsName name := by
  induction lockstep with
  | root => exact fun _ member => absurd member List.not_mem_nil
  | descend above granting named here type passes ih => exact Path.isName_append_singleton ih named

theorem path (lockstep : Lockstep classify names visit log) :
    visit.tree.path = Path.ofElements names := by
  cases lockstep with
  | root top => exact top
  | descend above granting named here => exact here

/-- A leaf is consulted about one place after the other, at first with the empty decision for a
parent, then each time with what it decided the time before. The last of its decisions is held from
then on. -/
theorem chained (lockstep : Lockstep classify names visit log) (leaf : Fin n) :
    ∃ first rest, log.filter (fun asked => asked.leaf = leaf) = first :: rest ∧
      first.parent = .empty ∧
      (first :: rest).IsChain (fun before next => next.parent = .node before.decision) ∧
      ∀ last ∈ (first :: rest).getLast?, last.decision = visit.held leaf := by
  induction lockstep with
  | @root visit top type =>
      rw [Visit.filter_consultations, Visit.consultationsOf_of_recourse _ rfl]
      exact ⟨_, [], rfl, rfl, .singleton _, by simp⟩
  | @descend names name before visit log above granting named here type passes ih =>
      obtain ⟨first, rest, asked, top, chained, held⟩ := ih
      rw [List.filter_append, Visit.filter_consultations, asked]
      -- A leaf with recourse is asked once more; else its last decision stays what it holds.
      by_cases recourse : (before.held leaf).hasRecourse = true
      · rw [Visit.consultationsOf_of_recourse _ recourse]
        refine ⟨first, rest ++ [_], rfl, top, ?_, ?_⟩
        · rw [← List.cons_append, List.isChain_append]
          refine ⟨chained, .singleton _, fun last here next new => ?_⟩
          cases new
          rw [held last here]
        · rw [← List.cons_append, List.getLast?_concat]
          exact fun last new => by cases new; rfl
      · have passed := NodePermission.hasRecourse_eq_false_iff.mp (Bool.eq_false_iff.mpr recourse)
        rw [Visit.consultationsOf_of_passed _ passed, List.append_nil]
        refine ⟨first, rest, rfl, top, chained, fun last here => ?_⟩
        rw [held last here, passed, passes leaf passed]

end Lockstep

/-- Where a walk down from the root has come to: the names passed, the last decision, and everything
that leaves were consulted about. -/
structure Journey (n : Nat) (D : Type) where
  names : List String
  permission : TreePermission (Fin n) D
  log : List (Consultation n D)

/-- Where a walk has come to after a decision at the end of some names, given what leaves were
consulted about before and their state. -/
def Journey.arrive (names : List String) (step : Watched σ n D (TreePermission (Fin n) D))
    (log : List (Consultation n D)) (state : σ) : Journey n D :=
  let outcome := ((step.run log).run state).1
  ⟨names, outcome.1, outcome.2⟩

/-- A journey on which leaves were consulted in lockstep and no more than that: its last decision
combines those of all leaves in their order, or no leaf grants anything at a place that it passed
and none was consulted since. -/
inductive Journey.InLockstep (combination : Combination) : Journey n D → Prop
  | combined {names : List String} {visit : Visit n D} {log : List (Consultation n D)}
      (filled : n ≠ 0) (lockstep : Lockstep combination.classify names visit log)
      (granting : names = [] ∨ ¬ visit.GrantsNothing) (memo : ReadMemo) :
      InLockstep combination ⟨names,
        .combined
          { tree := visit.tree, type := visit.type, classify := combination.classify
            composition := combination.composition, memo }
          visit.parts, log⟩
  | collapsed {names : List String} {visit : Visit n D} {log : List (Consultation n D)}
      (lockstep : Lockstep combination.classify names visit log) (nothing : visit.GrantsNothing)
      (inner : names = [] → n = 0) (rest : List String) :
      InLockstep combination ⟨names ++ rest, .empty, log⟩

/-- On a journey in lockstep, what one leaf was asked forms a chain that starts with the empty
decision for a parent. -/
theorem Journey.InLockstep.chained {combination : Combination} {journey : Journey n D}
    (lockstep : journey.InLockstep combination) (leaf : Fin n) :
    ∃ first rest, journey.log.filter (fun asked => asked.leaf = leaf) = first :: rest ∧
      first.parent = .empty ∧
      (first :: rest).IsChain fun before next => next.parent = .node before.decision := by
  have ⟨names, visit, visited⟩ : ∃ names visit,
      Lockstep combination.classify names visit journey.log := by
    cases lockstep with
    | combined filled visited granting memo => exact ⟨_, _, visited⟩
    | collapsed visited nothing inner rest => exact ⟨_, _, visited⟩
  obtain ⟨first, rest, asked, top, chain, -⟩ := visited.chained leaf
  exact ⟨first, rest, asked, top, chain⟩

/-- A journey is in lockstep where it arrives if it is so with what was noted on the last step. -/
theorem Journey.InLockstep.arrive {combination : Combination}
    {step : Watched σ n D (TreePermission (Fin n) D)} {state after : σ}
    {permission : TreePermission (Fin n) D} {noted log : List (Consultation n D)}
    (notes : Notes step state permission noted after) {names : List String}
    (there : Journey.InLockstep combination ⟨names, permission, log ++ noted⟩) :
    Journey.InLockstep combination (Journey.arrive names step log state) := by
  rwa [Journey.arrive, notes log]

/-- The members of a composite of leaves. -/
abbrev leavesOf (n : Nat) : List (Arrangement (Fin n)) := (List.finRange n).map .leaf

section Journey

variable [NodeDecision D] (providers : Fin n → LeafProvider (StateM σ) (Fin n) D)
  (combination : Combination) (members : List (Arrangement (Fin n)))

/-- A journey starts where a composite decides about the root, whatever is given for a parent. -/
inductive Journey.Starts : Journey n D → Prop
  | root (tree : Tree) (top : Path.elements tree.path = []) (parent : TreePermission (Fin n) D)
      (roots : Nat → NodeState) (state : σ) :
      Starts (arrive [] ((Arrangement.composite combination members).treePermission
        (watching providers roots) tree parent) [] state)

/-- A journey goes on by asking the composite about a tree with one more name, or the last decision
for the one about a child. In between, any read flags may be remembered or forgotten. -/
inductive Journey.Moves : Journey n D → Journey n D → Prop
  | tree (journey : Journey n D) {name : String} (tree : Tree)
      (here : Path.elements tree.path = journey.names ++ [name]) (roots : Nat → NodeState)
      (state : σ) :
      Moves journey
        (arrive (journey.names ++ [name]) ((Arrangement.composite combination members).treePermission
          (watching providers roots) tree journey.permission) journey.log state)
  | child (journey : Journey n D) {name : String} (named : Path.IsName name) (found : NodeState)
      (roots : Nat → NodeState) (state : σ) :
      Moves journey
        (arrive (journey.names ++ [name])
          (journey.permission.child (watching providers roots) name found) journey.log state)
  | recalled (journey : Journey n D) {other : TreePermission (Fin n) D}
      (same : other.forget = journey.permission.forget) :
      Moves journey ⟨journey.names, other, journey.log⟩

variable {providers combination members} {before after start journey : Journey n D}

/-- Below a decision that is the same for a whole subtree, the same decision is given without
consulting any leaf. -/
theorem Journey.Moves.of_isTerminal (moves : before.Moves providers combination members after)
    {permission : NodePermission D} (node : before.permission = .node permission)
    (terminal : permission.isTerminal = true) :
    ∃ further, after = ⟨before.names ++ further, .node permission, before.log⟩ := by
  cases moves with
  | @tree name tree here roots state =>
      have inner : Path.elements tree.path ≠ [] := by simp [here]
      rw [node, TreePermission.treePermission_of_isTerminal inner terminal]
      exact ⟨[name], rfl⟩
  | @child name named found roots state =>
      rw [node, TreePermission.child_of_isTerminal terminal]
      exact ⟨[name], rfl⟩
  | recalled same =>
      rw [node] at same
      rw [TreePermission.eq_node_of_forget same]
      exact ⟨[], by rw [List.append_nil]⟩

/-- One more place is visited in lockstep, from a combined decision about the place before. -/
theorem Journey.InLockstep.visit {names : List String} {name : String} {before : Visit n D}
    {log : List (Consultation n D)} (filled : n ≠ 0)
    (lockstep : Lockstep combination.classify names before log)
    (granting : names = [] ∨ ¬ before.GrantsNothing) (named : Path.IsName name) {place : Tree}
    (here : place.path = Path.ofElements (names ++ [name])) (roots : Nat → NodeState) (state : σ) :
    Journey.InLockstep combination
      (Journey.arrive (names ++ [name])
        (do
          let type := combination.classify place before.type
          let derived ← TreePermission.deriveParts (watching providers roots) before.parts place type
          pure (Site.combine
            { tree := place, type, classify := combination.classify
              composition := combination.composition }
            derived))
        log state) := by
  obtain ⟨visit, last, rfl, typed, passes, notes⟩ :=
    notes_visit providers roots place (combination.classify place before.type) before.held state
  refine .arrive (notes.map (Site.combine _)) ?_
  rw [← typed]
  have visited := lockstep.descend granting named here typed passes
  -- The leaves are consulted either way, but their decisions are kept only if one may grant.
  by_cases nothing : visit.GrantsNothing
  · rw [Visit.combine_of_grantsNothing nothing]
    have collapsed := Journey.InLockstep.collapsed visited nothing (by simp) []
    rwa [List.append_nil] at collapsed
  · rw [Visit.combine_of_not_grantsNothing nothing]
    exact .combined filled visited (.inr nothing) {}

/-- At the start of a journey every leaf is consulted once. -/
theorem Journey.Starts.inLockstep
    (starts : start.Starts providers combination (leavesOf n)) :
    start.InLockstep combination := by
  obtain ⟨tree, top, parent, roots, state⟩ := starts
  rw [TreePermission.treePermission_composite, TreePermission.derive_composite_of_root top]
  rcases Nat.eq_zero_or_pos n with rfl | filled
  · let visit : Visit 0 D := ⟨.root none, .default, Fin.elim0⟩
    have lockstep : Lockstep combination.classify [] visit [] := .root rfl rfl
    exact .collapsed lockstep (fun leaf => leaf.elim0) (fun _ => rfl) []
  · obtain ⟨visit, last, here, typed, -, notes⟩ :=
      notes_visit providers roots (Tree.root ((watching providers roots).root combination.id))
        .default (fun _ => .empty) state
    rw [decideRoot_leaves _ _ (by simpa using Nat.ne_of_gt filled)]
    refine .arrive (notes.map (TreePermission.combined _)) ?_
    rw [← here, ← typed]
    exact .combined (Nat.ne_of_gt filled) (.root (by rw [here]; rfl) typed) (.inl rfl) {}

/-- Every move of a journey keeps the lockstep. -/
theorem Journey.InLockstep.move (lockstep : before.InLockstep combination)
    (moves : before.Moves providers combination (leavesOf n) after) :
    after.InLockstep combination := by
  cases lockstep with
  | collapsed lockstep nothing inner rest =>
      obtain ⟨further, rfl⟩ := moves.of_isTerminal rfl rfl
      rw [List.append_assoc]
      exact .collapsed lockstep nothing inner _
  | @combined names visit log filled lockstep granting memo =>
      cases moves with
      | @tree name tree here roots state =>
          have inner : Path.elements tree.path ≠ [] := by simp [here]
          have listed : name ∈ Path.elements tree.path := by simp [here]
          rw [TreePermission.treePermission_composite,
            TreePermission.derive_composite_of_combined inner]
          refine .visit filled lockstep granting (Path.isName_of_mem_elements listed) ?_ roots state
          rw [Tree.path_descendant_root, Path.canonical, here]
      | @child name named found roots state =>
          refine .visit filled lockstep granting named ?_ roots state
          rw [lockstep.path, Path.concat_ofElements lockstep.isName named]
      | recalled same =>
          obtain ⟨site, others, rfl, kept, parted⟩ := TreePermission.eq_combined_of_forget same
          rw [Visit.eq_parts_of_forget parted]
          obtain ⟨tree, type, classify, composition, remembered⟩ := site
          cases kept
          exact .combined filled lockstep granting remembered

/-- **Leaves are consulted in lockstep, and no more than that.** Whatever the leaves of a composite
do, on a journey from the root they are consulted in lockstep, and its decisions keep one decision
of each leaf in order. Each leaf is first asked with the empty decision for a parent, and from then
on with what it decided the time before. From any decision that is the same for a whole subtree,
every journey of any composite leads to that decision without consulting a leaf. -/
theorem leaves_consulted_in_lockstep (providers : Fin n → LeafProvider (StateM σ) (Fin n) D)
    (combination : Combination) :
    (∀ start journey : Journey n D, start.Starts providers combination (leavesOf n) →
      Relation.ReflTransGen (Journey.Moves providers combination (leavesOf n)) start journey →
      journey.InLockstep combination ∧
      ∀ leaf, ∃ first rest, journey.log.filter (fun asked => asked.leaf = leaf) = first :: rest ∧
        first.parent = .empty ∧
        (first :: rest).IsChain fun before next => next.parent = .node before.decision) ∧
    ∀ (members : List (Arrangement (Fin n))) (before after : Journey n D)
      (permission : NodePermission D), before.permission = .node permission →
      permission.isTerminal = true →
      Relation.ReflTransGen (Journey.Moves providers combination members) before after →
      after.permission = .node permission ∧ after.log = before.log := by
  constructor
  · intro start journey starts moved
    have lockstep : journey.InLockstep combination := by
      induction moved with
      | refl => exact starts.inLockstep
      | tail _ moves ih => exact ih.move moves
    exact ⟨lockstep, lockstep.chained⟩
  · intro members before after permission node terminal moved
    induction moved with
    | refl => exact ⟨node, rfl⟩
    | tail _ moves ih =>
        obtain ⟨kept, logged⟩ := ih
        obtain ⟨further, rfl⟩ := moves.of_isTerminal kept terminal
        exact ⟨rfl, logged⟩

/-- Of two leaves that are taken from the root to "/a" and on to "/a/b", the one that gives up on
recourse at "/a" is not consulted any more. -/
theorem consulted_until_no_recourse :
    let providers : Fin 2 → LeafProvider (StateM Nat) (Fin 2) PolicyDecision := fun leaf =>
      { Provider.empty with
        name := "", coversDecision := fun _ _ _ => ∅, repository := pure .empty
        decide := fun _ _ => pure .empty
        decideTyped := fun tree _ _ => do
          modify (· + 1)
          pure (if leaf = 0 ∧ tree.path = "/a" then .noRecourse else .all) }
    let combination := Combination.plain 0 .or
    ∃ start journey : Journey 2 PolicyDecision,
      start.Starts providers combination (leavesOf 2) ∧
      Relation.ReflTransGen (Journey.Moves providers combination (leavesOf 2)) start journey ∧
      journey.InLockstep combination ∧
      (journey.log.filter (fun asked => asked.leaf = 1)).IsChain
        (fun before next => next.parent = .node before.decision) ∧
      journey.log.map (fun asked => (asked.leaf, asked.tree.path)) =
        [(0, "/"), (1, "/"), (0, "/a"), (1, "/a"), (1, "/a/b")] := by
  intro providers combination
  let snapshot := watching providers fun _ => none
  let arrangement := Arrangement.composite combination (leavesOf 2)
  let top := Journey.arrive [] (arrangement.treePermission snapshot (.root none) .empty) [] 0
  let middle := Journey.arrive ["a"] (arrangement.treePermission snapshot ⟨"/a", none⟩
    top.permission) top.log 2
  let last := Journey.arrive ["a", "b"] (middle.permission.child snapshot "b" none) middle.log 4
  have starts : top.Starts providers combination (leavesOf 2) := .root _ (by decide) _ _ _
  have first : top.Moves providers combination (leavesOf 2) middle :=
    .tree top ⟨"/a", none⟩ (by decide) _ _
  have second : middle.Moves providers combination (leavesOf 2) last :=
    .child middle (by decide) _ _ _
  have moved := (Relation.ReflTransGen.single first).tail second
  obtain ⟨lockstep, chained⟩ :=
    (leaves_consulted_in_lockstep providers combination).1 top last starts moved
  obtain ⟨first, rest, asked, -, chain⟩ := chained 1
  exact ⟨top, last, starts, moved, lockstep, asked ▸ chain, by decide⟩

end Journey

end Authorization
