import Mathlib.Data.List.FinRange
import Authorization.Proofs.Decision.Walk

/-!
# Consultations of leaves

A composite over single providers, its leaves, decides about a place by consulting them. Every
consultation is noted while the leaves are watched. They may have a state, so that what they decide
may change whenever one of them is asked.

At each place the leaves are consulted in order, each one once and with its own decision about the
parent, but for those that have given up on recourse (`notes_visit`).
-/

namespace Authorization

variable {n : Nat} {σ D α β : Type}

/-- A question to a leaf for a decision about a tree, with the decision that it gave. -/
structure Consultation (n : Nat) (D : Type) where
  leaf : Fin n
  tree : Tree
  /-- The type given with the tree, if any. -/
  type : Option TreeType
  /-- The decision given for the parent. -/
  parent : TreePermission (Fin n) D
  decision : NodePermission D

/-- Computations of leaves that have a state, with a note of every consultation. -/
abbrev Watched (σ : Type) (n : Nat) (D : Type) := StateT (List (Consultation n D)) (StateM σ)

namespace Watched

/-- Answers for a leaf, and notes down what it was consulted about and what it decided. -/
def note (leaf : Fin n) (tree : Tree) (type : Option TreeType) (parent : TreePermission (Fin n) D)
    (answer : StateM σ (NodePermission D)) : Watched σ n D (NodePermission D) := do
  let decision ← StateT.lift answer
  modify (· ++ [⟨leaf, tree, type, parent, decision⟩])
  pure decision

/-- From a state of the leaves, a computation gives a value, adds to what was noted before and
leaves another state. -/
def Notes (step : Watched σ n D α) (state : σ) (value : α) (noted : List (Consultation n D))
    (after : σ) : Prop :=
  ∀ log, (step.run log).run state = ((value, log ++ noted), after)

variable {step : Watched σ n D α} {next : α → Watched σ n D β} {state between after : σ}
  {value : α} {result : β} {noted more : List (Consultation n D)}

theorem notes_pure (value : α) (state : σ) :
    Notes (pure value : Watched σ n D α) state value [] state := by
  intro log
  rw [List.append_nil]
  rfl

/-- Consultations of a computation are followed by those of what comes next. -/
theorem Notes.bind (first : Notes step state value noted between)
    (second : Notes (next value) between result more after) :
    Notes (step >>= next) state result (noted ++ more) after := by
  intro log
  rw [StateT.run_bind, StateT.run_bind, first log, ← List.append_assoc]
  exact second (log ++ noted)

/-- A value that only depends on another one is computed without a further note. -/
theorem Notes.map (notes : Notes step state value noted after) (f : α → β) :
    Notes (step >>= fun value => pure (f value)) state (f value) noted after := by
  have mapped : Notes (step >>= fun value => pure (f value)) state _ (noted ++ []) after :=
    notes.bind (notes_pure (f value) after)
  rwa [List.append_nil] at mapped

end Watched

open Watched

/-- A leaf whose decisions about trees are noted. -/
def LeafProvider.watched (leaf : Fin n) (provider : LeafProvider (StateM σ) (Fin n) D) :
    LeafProvider (Watched σ n D) (Fin n) D where
  coversPrivileges := provider.coversPrivileges
  covers := provider.covers
  coversAt := provider.coversAt
  privileges tree := StateT.lift (provider.privileges tree)
  hasPrivileges tree names := ExceptT.mk (StateT.lift (provider.hasPrivileges tree names).run)
  isGrantedRepository asked := StateT.lift (provider.isGrantedRepository asked)
  isGranted tree property asked := StateT.lift (provider.isGranted tree property asked)
  isGrantedPath path actions := ExceptT.mk (StateT.lift (provider.isGrantedPath path actions).run)
  isGrantedAt location asked := StateT.lift (provider.isGrantedAt location asked)
  name := provider.name
  coversDecision := provider.coversDecision
  repository := StateT.lift provider.repository
  decide tree parent := note leaf tree none parent (provider.decide tree parent)
  decideTyped tree type parent :=
    note leaf tree (some type) parent (provider.decideTyped tree type parent)

/-- What composites see while their leaves are watched. -/
def watching (providers : Fin n → LeafProvider (StateM σ) (Fin n) D) (roots : Nat → NodeState) :
    Snapshot (Watched σ n D) (Fin n) D where
  root := roots
  leaf leaf := (providers leaf).watched leaf

namespace NodePermission

/-- Whether a provider may still grant anything here or below. -/
def hasRecourse : NodePermission D → Bool
  | noRecourse => false
  | _ => true

theorem hasRecourse_eq_false_iff {permission : NodePermission D} :
    permission.hasRecourse = false ↔ permission = .noRecourse := by
  cases permission <;> simp [hasRecourse]

end NodePermission

theorem TreePermission.isNoRecourse_node {L : Type} (permission : NodePermission D) :
    (TreePermission.node (L := L) permission).isNoRecourse = !permission.hasRecourse := by
  cases permission <;> rfl

/-- The decisions of parts are derived one after the other, and a part without recourse is left as
it is. -/
theorem TreePermission.deriveParts_cons {m : Type → Type} [Monad m] {L : Type} [NodeDecision D]
    (snapshot : Snapshot m L D) (arrangement : Arrangement L) (permission : TreePermission L D)
    (parts : List (Arrangement L × TreePermission L D)) (tree : Tree) (type : TreeType) :
    deriveParts snapshot ((arrangement, permission) :: parts) tree type =
      (if permission.isNoRecourse then pure permission
        else permission.derive snapshot arrangement tree type) >>= fun decision =>
      deriveParts snapshot parts tree type >>= fun others =>
      pure ((arrangement, decision) :: others) := by
  rw [deriveParts]
  split <;> rfl

/-- A place on a journey, with its type and what each leaf decided there. -/
structure Visit (n : Nat) (D : Type) where
  tree : Tree
  type : TreeType
  held : Fin n → NodePermission D

/-- The decisions of leaves as parts of a combined decision. -/
def heldParts (leaves : List (Fin n)) (held : Fin n → NodePermission D) :
    List (Arrangement (Fin n) × TreePermission (Fin n) D) :=
  leaves.map fun leaf => (.leaf leaf, .node (held leaf))

theorem heldParts_cons (leaf : Fin n) (leaves : List (Fin n)) (held : Fin n → NodePermission D) :
    heldParts (leaf :: leaves) held = (.leaf leaf, .node (held leaf)) :: heldParts leaves held :=
  rfl

theorem heldParts_congr {leaves : List (Fin n)} {first second : Fin n → NodePermission D}
    (same : ∀ leaf ∈ leaves, first leaf = second leaf) :
    heldParts leaves first = heldParts leaves second :=
  List.map_congr_left fun leaf listed => by rw [same leaf listed]

namespace Visit

variable (visit : Visit n D)

/-- The decisions of all leaves in their order. -/
def parts : List (Arrangement (Fin n) × TreePermission (Fin n) D) :=
  heldParts (List.finRange n) visit.held

/-- The consultations of some leaves at a place: each one is consulted once, in order, with the type
of the place and its own decision about the parent, unless that leaves no recourse. -/
def consultationsOf (leaves : List (Fin n)) (parents : Fin n → NodePermission D) :
    List (Consultation n D) :=
  (leaves.filter fun leaf => (parents leaf).hasRecourse).map fun leaf =>
    ⟨leaf, visit.tree, some visit.type, .node (parents leaf), visit.held leaf⟩

theorem consultationsOf_cons (leaf : Fin n) (leaves : List (Fin n))
    (parents : Fin n → NodePermission D) :
    visit.consultationsOf (leaf :: leaves) parents =
      visit.consultationsOf [leaf] parents ++ visit.consultationsOf leaves parents := by
  unfold consultationsOf
  rw [← List.map_append, ← List.filter_append, List.singleton_append]

/-- A leaf that has recourse is consulted once, with its decision about the parent. -/
theorem consultationsOf_of_recourse {leaf : Fin n} {parents : Fin n → NodePermission D}
    (recourse : (parents leaf).hasRecourse = true) :
    visit.consultationsOf [leaf] parents =
      [⟨leaf, visit.tree, some visit.type, .node (parents leaf), visit.held leaf⟩] := by
  simp [consultationsOf, recourse]

theorem consultationsOf_of_passed {leaf : Fin n} {parents : Fin n → NodePermission D}
    (passed : parents leaf = .noRecourse) : visit.consultationsOf [leaf] parents = [] := by
  simp [consultationsOf, passed, NodePermission.hasRecourse]

theorem consultationsOf_congr {tree : Tree} {type : TreeType} {leaves : List (Fin n)}
    {first second : Fin n → NodePermission D} (same : ∀ leaf ∈ leaves, first leaf = second leaf)
    (parents : Fin n → NodePermission D) :
    consultationsOf ⟨tree, type, first⟩ leaves parents =
      consultationsOf ⟨tree, type, second⟩ leaves parents := by
  refine List.map_congr_left fun leaf asked => ?_
  dsimp only
  rw [same leaf (List.mem_filter.mp asked).1]

/-- The consultations of all leaves at a place, given their decisions about the parent. -/
def consultations (parents : Fin n → NodePermission D) : List (Consultation n D) :=
  visit.consultationsOf (List.finRange n) parents

/-- Of the consultations of all leaves, one leaf has its own. -/
theorem filter_consultations (parents : Fin n → NodePermission D) (leaf : Fin n) :
    ((visit.consultations parents).filter fun asked => asked.leaf = leaf) =
      visit.consultationsOf [leaf] parents := by
  have alone : ((List.finRange n).filter fun other => other = leaf) = [leaf] := by
    rw [List.filter_eq, List.count_eq_one_of_mem (List.nodup_finRange n) (List.mem_finRange leaf)]
    rfl
  rw [consultations, consultationsOf, List.filter_map, List.filter_comm]
  exact congrArg (fun leaves => visit.consultationsOf leaves parents) alone

/-- Leaves without recourse stay so. -/
def Passes (parents : Fin n → NodePermission D) : Prop :=
  ∀ leaf, parents leaf = .noRecourse → visit.held leaf = .noRecourse

/-- No leaf grants anything from the place on downwards. -/
def GrantsNothing : Prop := ∀ leaf, (visit.held leaf).grantsNothing = true

theorem all_parts_iff :
    (visit.parts.all fun part => part.2.grantsNothing) = true ↔ visit.GrantsNothing := by
  simp [parts, heldParts, TreePermission.grantsNothing, GrantsNothing]

variable {visit}

/-- Where no leaf grants anything the combined decision collapses. -/
theorem combine_of_grantsNothing (nothing : visit.GrantsNothing) (site : Site) :
    site.combine visit.parts = .empty :=
  if_pos (visit.all_parts_iff.mpr nothing)

theorem combine_of_not_grantsNothing (granting : ¬ visit.GrantsNothing) (site : Site) :
    site.combine visit.parts = .combined site visit.parts :=
  if_neg (mt visit.all_parts_iff.mp granting)

/-- Only a combined decision can differ from another one in what it remembers. -/
theorem eq_parts_of_forget {others : List (Arrangement (Fin n) × TreePermission (Fin n) D)}
    (same : TreePermission.forgetParts others = TreePermission.forgetParts visit.parts) :
    others = visit.parts := by
  have plain : ∀ other ∈ others, (other.1, other.2.forget) = other := by
    intro other present
    obtain ⟨part, listed, -, forgotten⟩ := TreePermission.exists_counterpart same present
    obtain ⟨leaf, -, rfl⟩ := List.mem_map.mp listed
    have node : other.2 = .node (visit.held leaf) := TreePermission.eq_node_of_forget forgotten
    exact Prod.ext rfl (forgotten.trans node.symm)
  calc
    others = others.map fun other => (other.1, other.2.forget) := by
      rw [List.map_congr_left plain, List.map_id']
    _ = TreePermission.forgetParts visit.parts := by rw [← same, TreePermission.forgetParts_eq_map]
    _ = visit.parts := by
      rw [TreePermission.forgetParts_eq_map, parts, heldParts, List.map_map]
      rfl

end Visit

section Deriving

variable [NodeDecision D] (providers : Fin n → LeafProvider (StateM σ) (Fin n) D)
  (roots : Nat → NodeState) (tree : Tree) (type : TreeType) (parents : Fin n → NodePermission D)

/-- A leaf is consulted with its decision about the parent, unless that leaves no recourse. -/
theorem notes_part (leaf : Fin n) (state : σ) :
    ∃ decision after,
      (parents leaf = .noRecourse → decision = .noRecourse) ∧
      Notes
        (if (TreePermission.node (L := Fin n) (parents leaf)).isNoRecourse then
            pure (.node (parents leaf))
          else (TreePermission.node (parents leaf)).derive (watching providers roots) (.leaf leaf)
            tree type)
        state (.node decision)
        (Visit.consultationsOf ⟨tree, type, fun _ => decision⟩ [leaf] parents) after := by
  rw [TreePermission.isNoRecourse_node]
  by_cases recourse : (parents leaf).hasRecourse = true
  · let asked := ((providers leaf).decideTyped tree type (.node (parents leaf))).run state
    refine ⟨asked.1, asked.2, fun lost => ?_, fun log => ?_⟩
    · rw [lost] at recourse
      exact Bool.noConfusion recourse
    · rw [Visit.consultationsOf_of_recourse _ recourse, recourse]
      rfl
  · have passed := NodePermission.hasRecourse_eq_false_iff.mp (Bool.eq_false_iff.mpr recourse)
    refine ⟨.noRecourse, state, fun _ => rfl, ?_⟩
    rw [Visit.consultationsOf_of_passed _ passed, passed]
    exact notes_pure _ _

/-- Deriving the decisions of distinct leaves consults just those that have recourse, in order. -/
theorem notes_deriveParts {leaves : List (Fin n)} (distinct : leaves.Nodup) (state : σ) :
    ∃ held after,
      (∀ leaf, parents leaf = .noRecourse → held leaf = .noRecourse) ∧
      Notes
        (TreePermission.deriveParts (watching providers roots) (heldParts leaves parents) tree type)
        state (heldParts leaves held)
        (Visit.consultationsOf ⟨tree, type, held⟩ leaves parents) after := by
  induction leaves generalizing state with
  | nil => exact ⟨fun _ => .noRecourse, state, fun _ _ => rfl, notes_pure _ _⟩
  | cons leaf leaves ih =>
      obtain ⟨decision, between, kept, first⟩ :=
        notes_part providers roots tree type parents leaf state
      obtain ⟨held, after, passed, others⟩ := ih distinct.of_cons between
      -- the later leaves are other ones, so the first decision can be put beside theirs
      have apart : ∀ other ∈ leaves, Function.update held leaf decision other = held other :=
        fun other later =>
          Function.update_of_ne (ne_of_mem_of_not_mem later (List.nodup_cons.mp distinct).1) _ _
      refine ⟨Function.update held leaf decision, after, fun other lost => ?_, ?_⟩
      · by_cases same : other = leaf
        · subst same
          rw [Function.update_self]
          exact kept lost
        · rw [Function.update_of_ne same]
          exact passed other lost
      · have here : ∀ other ∈ [leaf], Function.update held leaf decision other = decision :=
          List.forall_mem_singleton.mpr (Function.update_self ..)
        rw [Visit.consultationsOf_cons, Visit.consultationsOf_congr here,
          Visit.consultationsOf_congr apart, heldParts_cons, heldParts_cons, heldParts_congr apart,
          Function.update_self, TreePermission.deriveParts_cons]
        refine first.bind ?_
        exact others.map ((.leaf leaf, .node decision) :: ·)

/-- What a composite of leaves asks at a place, and what it decides there, given the decisions of
the leaves about the parent. -/
theorem notes_visit (state : σ) :
    ∃ visit : Visit n D, ∃ after, visit.tree = tree ∧ visit.type = type ∧ visit.Passes parents ∧
      Notes
        (TreePermission.deriveParts (watching providers roots)
          (heldParts (List.finRange n) parents) tree type)
        state visit.parts (visit.consultations parents) after := by
  obtain ⟨held, after, passed, notes⟩ :=
    notes_deriveParts providers roots tree type parents (List.nodup_finRange n) state
  exact ⟨⟨tree, type, held⟩, after, rfl, rfl, passed, notes⟩

/-- The decisions about the root are derived as if each leaf had decided that nothing is granted
above. -/
theorem decideRoots_eq_deriveParts {m : Type → Type} [Monad m] {L : Type} (snapshot : Snapshot m L D)
    (leaves : List L) (tree : Tree) :
    Arrangement.decideRoots snapshot (leaves.map .leaf) tree =
      TreePermission.deriveParts snapshot (leaves.map fun leaf => (.leaf leaf, .empty)) tree
        .default := by
  induction leaves with
  | nil => rfl
  | cons leaf leaves ih =>
      rw [List.map_cons, List.map_cons, Arrangement.decideRoots, TreePermission.deriveParts_cons, ih]
      rfl

/-- Deciding about the root is deriving from the empty decision of each leaf. -/
theorem decideRoot_leaves {m : Type → Type} [Monad m] {L : Type} (snapshot : Snapshot m L D)
    (combination : Combination) {leaves : List L} (filled : leaves ≠ []) (tree : Tree) :
    (Arrangement.composite combination (leaves.map .leaf)).decideRoot snapshot tree = (do
      let parts ← TreePermission.deriveParts snapshot
        (leaves.map fun leaf => (.leaf leaf, .empty)) (Tree.root (snapshot.root combination.id))
        .default
      pure (.combined
        { tree := Tree.root (snapshot.root combination.id), type := .default
          classify := combination.classify, composition := combination.composition }
        parts)) := by
  rw [← decideRoots_eq_deriveParts]
  cases leaves with
  | nil => exact absurd rfl filled
  | cons => rfl

end Deriving

end Authorization
