import Authorization.Proofs.Decision.Likeness

/-!
# Deciding child by child

A policy's decision about a node yields those about the nodes below it one name at a time, without
asking the provider again. It may end early, where a name is hidden or where nothing is granted from
there on downwards. However it goes, the answers at the end are those of a decision that the
provider makes at the place afresh (`decided_child_by_child`).
-/

namespace Authorization

/-- The decision reached by taking the one about the child of each name in turn, given what is found
there. -/
def TreePermission.children {m : Type → Type} [Monad m] {L D : Type} [NodeDecision D]
    (snapshot : Snapshot m L D) (permission : TreePermission L D)
    (below : List (String × NodeState)) : m (TreePermission L D) :=
  below.foldlM (fun permission step => permission.child snapshot step.1 step.2) permission

namespace World

variable {world : World} {leaf : PolicyLeaf} {names : List String}

/-- What is decided about a place leads, name by name, to what is decided about the places below. -/
theorem DecidedAt.children {single : NodePermission PolicyDecision}
    (decided : world.DecidedAt leaf names single) {below : List (String × NodeState)}
    (named : ∀ name ∈ names ++ below.map Prod.fst, Path.IsName name) :
    ∃ last, ((TreePermission.node single).children world.seen below).run = .node last ∧
      world.DecidedAt leaf (names ++ below.map Prod.fst) last := by
  induction below generalizing names single with
  | nil => exact ⟨single, rfl, by simpa using decided⟩
  | cons step below ih =>
      rw [List.map_cons, List.append_cons] at named ⊢
      have here : ∀ name ∈ names ++ [step.1], Path.IsName name :=
        fun name member => named name (List.mem_append_left _ member)
      exact ih (decided.child here step.2) named

/-- **Deciding child by child.** From a policy's decision about a node at a canonical path, deriving
the one about the child of each of several names in turn leads to the same answers as deciding
afresh at the place that the names lead to. These are all no if the place is hidden, and otherwise
follow from what the policy grants there. -/
theorem decided_child_by_child (world : World) (leaf : PolicyLeaf) (tree place : Tree)
    (below : List (String × NodeState)) (canonical : Path.IsCanonical tree.path)
    (named : ∀ step ∈ below, Path.IsName step.1)
    (there : place.path = (below.map Prod.fst).foldl Path.concat tree.path)
    (parent other : TreePermission PolicyLeaf PolicyDecision) :
    let provider := Arrangement.leaf leaf
    let start := (provider.treePermission world.seen tree parent).run
    let derived := (start.children world.seen below).run
    let afresh := (provider.treePermission world.seen place other).run
    derived.answers world.seen = afresh.answers world.seen ∧
      afresh.answers world.seen =
        if Path.isHidden place.path then .always false
        else .ofGranted ((world.policy leaf).grantedAt place.path)
          ((world.policy leaf).readsAll place.path) := by
  obtain ⟨names, above, spelled⟩ := canonical
  have all : ∀ name ∈ names ++ below.map Prod.fst, Path.IsName name := by
    rw [List.forall_mem_append, List.forall_mem_map]
    exact ⟨above, named⟩
  rw [spelled, Path.foldl_concat all] at there
  have hides : Path.isHidden place.path = (names ++ below.map Prod.fst).any Path.isHiddenName := by
    rw [Path.isHidden, there, Path.elements_ofElements all]
  intro provider start derived afresh
  obtain ⟨first, started, decided⟩ := decidedAt_tree above spelled parent
  obtain ⟨last, reached, derivedAt⟩ := decided.children all
  obtain ⟨anew, remade, decidedAt⟩ := decidedAt_tree all there other
  have derivedAnswers : derived.answers world.seen = last.answers := by
    rw [← started] at reached
    exact congrArg (TreePermission.answers world.seen) reached
  have afreshAnswers : afresh.answers world.seen = anew.answers :=
    congrArg (TreePermission.answers world.seen) remade
  rw [derivedAnswers, afreshAnswers, derivedAt.answers_eq, decidedAt.answers_eq, hides, there]
  exact ⟨rfl, rfl⟩

/-- A decision about a granted place leads through a place where everything granted is denied again,
and the answers below are still those of a decision made afresh. -/
theorem decided_through_denied_place :
    let world := World.initial none fun _ =>
      ((({ covers := .read } : Policy).allow "/" .read).deny "/a/b" .read).allow "/a/b/c"
        .readProperty
    let provider := Arrangement.leaf (.plain 0)
    let start := (provider.treePermission world.seen ⟨"/a", none⟩ .empty).run
    let derived := (start.children world.seen [("b", none), ("c", none)]).run
    let afresh := (provider.treePermission world.seen ⟨"/a/b/c", none⟩ .empty).run
    derived.answers world.seen = afresh.answers world.seen ∧
      (derived.answers world.seen).canRead = false ∧
      (derived.answers world.seen).isGranted .readProperty = true := by
  intro world provider start derived afresh
  obtain ⟨same, granted⟩ := world.decided_child_by_child (.plain 0) ⟨"/a", none⟩ ⟨"/a/b/c", none⟩
    [("b", none), ("c", none)] ⟨["a"], by decide, by decide⟩ (by decide) (by decide) .empty .empty
  refine ⟨same, ?_⟩
  rw [same, granted]
  decide

end World

end Authorization
