import Authorization.Proofs.Decision.Descent

/-!
# Agreement of evaluation routes

A composite can be asked about a tree, about a location, or for the decision reached by walking to
the place. Where no hidden name stands on the path, all of these give the same answers
(`routes_agree`); in particular no grant is lost below a place that was collapsed on the way.
-/

namespace Authorization

namespace World

variable (world : World)

/-- The opinion of a provider about a permission at a path as its decisions keep it, whether or not
the path is hidden. -/
def keptOpinion (path : String) (i : Nat) (leaf : PolicyLeaf) : Option Bool :=
  Mask.opinion (world.covers leaf) ((world.policy leaf).grantedAt path) i

/-- Where no hidden name stands on the path, decisions keep what direct questions are told. -/
theorem keptOpinion_eq_opinionAt {path : String} (shown : Path.isHidden path = false) (i : Nat) :
    world.keptOpinion path i = world.opinionAt path i := by
  funext leaf
  rw [keptOpinion, opinionAt, grantedAt, if_neg (by simp [shown])]
  rfl

variable {world} {combination : Combination} {members : List (Arrangement PolicyLeaf)}
  {path : String} {permission : TreePermission PolicyLeaf PolicyDecision}

/-- A walked decision has, where nothing is concealed, the opinion that the policies have at the
path. -/
theorem Walked.opinion_eq (standard : Standard (.composite combination members))
    (walked : Walked world combination members (Path.elements path) permission)
    (shown : ¬ Path.Concealed (Path.elements path)) (i : Nat) :
    permission.opinion world.covers i (.composite combination members) =
      (Arrangement.composite combination members).opinion (world.keptOpinion path i) := by
  have afresh := walked.within.afresh (standard.looks world) (TreeType.shown_of_not_concealed shown)
  have kept : world.keptOpinion path i = fun leaf => Mask.opinion (world.covers leaf)
      ((world.policy leaf).grantedAt (Path.ofElements (Path.elements path))) i := by
    funext leaf
    rw [keptOpinion, Policy.grantedAt_congr (Path.elements_ofElements walked.isName)]
  rw [afresh.opinion_eq, kept]

/-- Where a decision grants nothing, no provider grants anything below. -/
theorem Walked.opinion_ne_true_below (standard : Standard (.composite combination members))
    {front below : List String}
    (reached : Walked world combination members front permission)
    (nothing : permission.grantsNothing = true) (split : Path.elements path = front ++ below)
    (shown : ¬ Path.Concealed (Path.elements path)) (i : Nat) :
    (Arrangement.composite combination members).opinion (world.keptOpinion path i) ≠ some true := by
  have named : ∀ name ∈ front ++ below, Path.IsName name := by
    rw [← split]
    exact fun _ member => Path.isName_of_mem_elements member
  have visible : ¬ Path.Concealed front := by
    intro concealed
    rw [split] at shown
    exact shown (concealed.append below)
  have afresh := reached.within.afresh (standard.looks world)
    (TreeType.shown_of_not_concealed visible)
  refine Arrangement.opinion_ne_true fun leaf present => ?_
  have bare : (world.policy leaf).grantedAt path = ∅ := by
    rw [← ((afresh.hopeless nothing).append named).grantedAt present]
    refine Policy.grantedAt_congr ?_
    rw [Path.elements_ofElements named, split]
  rw [keptOpinion, bare]
  exact Mask.opinion_empty_ne_true

/-- **Evaluation routes agree.** A composite with standard types answers the same about a place
without a hidden name on its path, whether it is asked about the tree, about a location there, or
for a decision reached by walking. Read flags say what is granted about reading, and nothing is
granted at the place if a decision met on the way grants nothing. -/
theorem routes_agree (standard : Standard (.composite combination members))
    (shown : Path.isHidden path = false) {tree : Tree}
    (treeThere : Path.elements tree.path = Path.elements path) {location : Location}
    (locationThere : Path.elements location.nodePath = Path.elements path)
    (walked : Walked world combination members (Path.elements path) permission)
    (asked : Permissions) (property : Property) :
    let provider := (Arrangement.composite combination members).provider world.seen
    let answers := permission.answers world.seen
    (provider.isGrantedAt location asked).run = (provider.isGranted tree none asked).run ∧
      answers.isGranted asked = (provider.isGranted tree none asked).run ∧
      answers.isGrantedProperty asked property = (provider.isGranted tree none asked).run ∧
      answers.canRead = (provider.isGranted tree none .readNode).run ∧
      answers.canReadProperties = (provider.isGranted tree none .readProperty).run ∧
      answers.canReadProperty property = (provider.isGranted tree none .readProperty).run ∧
      ∀ (front below : List String) (met : TreePermission PolicyLeaf PolicyDecision),
        Path.elements path = front ++ below → Walked world combination members front met →
          met.grantsNothing = true → (provider.isGranted tree none asked).run = false := by
  intro provider answers
  have visible : ¬ Path.Concealed (Path.elements path) := by
    intro concealed
    rw [concealed.isHidden] at shown
    exact Bool.noConfusion shown
  -- Every route answers by the opinion that the policies have at the path.
  have opinion (i : Nat) : permission.opinion world.covers i (.composite combination members) =
      (Arrangement.composite combination members).opinion (world.opinionAt tree.path i) := by
    rw [walked.opinion_eq standard visible, keptOpinion_eq_opinionAt world shown,
      world.opinionAt_congr treeThere]
  have direct (asked : Permissions) : (provider.isGranted tree none asked).run = true ↔ _ :=
    world.isGranted_iff combination members tree none asked
  have single {i : Nat} (bit : i < 64) :
      (provider.isGranted tree none (.single i)).run = true ↔ _ :=
    world.isGranted_single_iff combination members tree none bit
  have reads := world.reads_of_composite walked.kept.paired walked.kept.truthful
  simp only [opinion] at reads
  have grants (property : Option Property) :
      answers.grants property asked = (provider.isGranted tree none asked).run := by
    rw [Bool.eq_iff_iff, direct, world.grants_iff walked.kept.paired]
    simp only [opinion]
  refine ⟨?_, grants none, grants (some property), ?_, ?_, ?_, ?_⟩
  · rw [Bool.eq_iff_iff, direct]
    refine (world.isGrantedAt_iff combination members location asked).trans ?_
    simp only [world.opinionAt_congr (locationThere.trans treeThere.symm)]
  · rw [Bool.eq_iff_iff]
    exact (reads.canRead trivial).trans (single (by decide)).symm
  · rw [Bool.eq_iff_iff]
    exact (reads.canReadProperties trivial).trans (single (by decide)).symm
  · rw [Bool.eq_iff_iff]
    exact (reads.canReadProperty property trivial).trans (single (by decide)).symm
  · intro front below met split reached nothing
    rw [← Bool.not_eq_true, direct]
    refine Mask.not_forall_mem fun i _ => ?_
    rw [world.opinionAt_congr treeThere, ← keptOpinion_eq_opinionAt world shown]
    exact reached.opinion_ne_true_below standard nothing split visible i

theorem standard_plain (id : Nat) (composition : Composition)
    {members : List (Arrangement PolicyLeaf)} (standard : ∀ member ∈ members, Standard member) :
    Standard (.composite (.plain id composition) members) :=
  Arrangement.forall_combinations.mpr ⟨⟨_, rfl⟩, standard⟩

/-- A single provider finds no types, and so finds them in the standard way. -/
theorem standard_leaf (leaf : PolicyLeaf) : Standard (.leaf leaf) :=
  fun _ listed => absurd listed List.not_mem_nil

theorem standard_plain_leaves (id : Nat) (composition : Composition) (leaves : List PolicyLeaf) :
    Standard (.composite (.plain id composition) (leaves.map .leaf)) := by
  refine standard_plain id composition fun member present => ?_
  obtain ⟨leaf, -, rfl⟩ := List.mem_map.mp present
  exact standard_leaf leaf

/-- A grant two names below a root that is denied: of two members that must agree, one is itself
composed of a member that grants and one without recourse. All routes find it, though the read flags
of the root are asked for on the way. On a whole walk from the root, each decision answers as the
provider does about the place. -/
theorem grant_found_below_denied_root :
    let world := World.initial none fun
      | 0 => ({ covers := .readNode } : Policy).allow "/" .readNode
      | 1 => ({ covers := .read } : Policy).allow "/a" .read
      | _ => { covers := .readProperty }
    let combination := Combination.plain 0 .and
    let members : List (Arrangement PolicyLeaf) :=
      [.leaf (.plain 0), .composite (.plain 1 .or) [.leaf (.plain 1), .leaf (.plain 2)]]
    let arrangement := Arrangement.composite combination members
    let top := (arrangement.treePermission world.seen (.root none) .empty).run
    let above := (arrangement.treePermission world.seen ⟨"/a", none⟩
      (top.remember world.seen)).run
    let permission := (above.child world.seen "b" none).run
    (top.answers world.seen).isGranted .read = false ∧
      ((arrangement.provider world.seen).isGranted ⟨"/a/b", none⟩ none .read).run = true ∧
      ((arrangement.provider world.seen).isGrantedAt (.nothing "/a/b") .read).run = true ∧
      (permission.answers world.seen).isGranted .read = true ∧
      (permission.answers world.seen).canRead = true ∧
      ∀ entry ∈ (arrangement.walk world.seen (.root none) "/a/b").run,
        (entry.2.answers world.seen).isGranted .read =
          ((arrangement.provider world.seen).isGranted entry.1 none .read).run := by
  intro world combination members arrangement top above permission
  have standard : Standard arrangement := by
    refine standard_plain 0 .and fun member present => ?_
    rcases List.mem_pair.mp present with rfl | rfl
    · exact standard_leaf _
    · exact standard_plain_leaves 1 .or [.plain 1, .plain 2]
  have start : Walked world combination members [] top := .root (by decide) .empty
  have walked : Walked world combination members (Path.elements "/a/b") permission := by
    have split : Path.elements "/a/b" = [] ++ ["a"] ++ ["b"] := by decide
    rw [split]
    exact (start.remember.step (by decide)).child (by decide) none
  have treeThere : Path.elements (Tree.mk "/a/b" none).path = Path.elements "/a/b" := rfl
  have locationThere :
      Path.elements (Location.nothing "/a/b").nodePath = Path.elements "/a/b" := rfl
  obtain ⟨located, granted, -, read, -⟩ := routes_agree standard (by decide) treeThere
    locationThere walked .read (.single "p" (.string ""))
  have direct :
      ((arrangement.provider world.seen).isGranted ⟨"/a/b", none⟩ none .read).run = true := by
    decide
  refine ⟨by decide, direct, located.trans direct, granted.trans direct, read.trans ?_,
    fun entry listed => ?_⟩
  · decide
  · have shown : ∀ entry ∈ (arrangement.walk world.seen (.root none) "/a/b").run,
        Path.isHidden entry.1.path = false := by decide
    have treeHere : Path.elements entry.1.path = Path.elements entry.1.path := rfl
    have locationHere :
        Path.elements (Location.nothing entry.1.path).nodePath = Path.elements entry.1.path := rfl
    have walked := walked_of_mem_walk world combination members none "/a/b" entry listed
    exact (routes_agree standard (shown entry listed) treeHere locationHere walked .read
      (.single "p" (.string ""))).2.1

end World

end Authorization
