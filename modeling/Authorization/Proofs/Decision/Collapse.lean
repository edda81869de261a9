import Authorization.Proofs.Decision.Likeness
import Authorization.Proofs.Provider.Flattening

/-!
# Composites of one

A list of one policy provider is collapsed to the provider itself. A composite over the list would
fold, mask and translate for nothing: what a policy grants lies within what it covers, so about each
permission the composite thinks what the policy says (`opinion_singleton`), and both answer alike
(`collapsed_singleton`).
-/

namespace Authorization

namespace Mask

variable {v : Vocabulary} {covers granted asked : Mask v} {i : Nat} (within : granted ⊆ covers)

include within

/-- The opinion of a party that grants no more than it covers says what it grants. -/
theorem opinion_eq_true_of_within : opinion covers granted i = some true ↔ i ∈ granted := by
  rw [opinion_eq_true]
  exact and_iff_right_of_imp (subset_iff.mp within i)

/-- A provider that covers a request grants each permission in it if it grants the request. -/
theorem forall_opinion_iff :
    (∀ i ∈ asked, opinion covers granted i = some true) ↔ asked ⊆ granted := by
  simp only [opinion_eq_true_of_within within, subset_iff]

theorem request_opinion_iff :
    (asked ≠ ∅ ∧ ∀ i ∈ asked, opinion covers granted i = some true) ↔
      (!asked.isEmpty && asked ⊆ granted) = true := by
  rw [forall_opinion_iff within, Bool.and_eq_true, Bool.not_eq_true', isEmpty_eq_false_iff,
    decide_eq_true_iff]

/-- A flag that says what the opinion about one capability says. -/
theorem flag_eq_of_opinion (bit : i < 64) {flag : Bool}
    (same : flag = true ↔ opinion covers granted i = some true) :
    flag = decide (single i ⊆ granted) := by
  rw [Bool.eq_iff_iff, same, decide_eq_true_iff, single_subset_iff bit,
    opinion_eq_true_of_within within]

end Mask

/-- A composite of one member has the opinion of this member. -/
theorem Arrangement.opinion_singleton {L : Type} (combination : Combination)
    (member : Arrangement L) (single : L → Option Bool) :
    (composite combination [member]).opinion single = member.opinion single := by
  rw [opinion_composite]
  exact combination.composition.verdict_singleton _

theorem Arrangement.leaves_singleton {L : Type} (combination : Combination)
    (member : Arrangement L) : (composite combination [member]).leaves = member.leaves :=
  List.append_nil _

namespace World

open Arrangement (opinion_singleton leaves_singleton)

variable {world : World} {combination : Combination} {leaf : PolicyLeaf}

theorem grantedAt_within (world : World) (path : String) (leaf : PolicyLeaf) :
    world.grantedAt path leaf ⊆ (world.policy leaf).covers := by
  rw [grantedAt]
  split
  · exact Mask.subset_iff.mpr fun i member => absurd member (Mask.notMem_empty i)
  · exact (world.policy leaf).grantedAt_subset_covers path

/-- A composite of one policy grants at trees what the policy grants. -/
theorem isGranted_singleton :
    ((Arrangement.composite combination [.leaf leaf]).provider world.seen).isGranted =
      ((Arrangement.leaf leaf).provider world.seen).isGranted := by
  funext tree property asked
  apply Id.ext
  rw [Bool.eq_iff_iff, world.isGranted_iff combination]
  simp only [opinion_singleton]
  exact Mask.request_opinion_iff (world.grantedAt_within tree.path leaf)

/-- A composite of one policy grants at locations what the policy grants. -/
theorem isGrantedAt_singleton :
    ((Arrangement.composite combination [.leaf leaf]).provider world.seen).isGrantedAt =
      ((Arrangement.leaf leaf).provider world.seen).isGrantedAt := by
  funext location asked
  apply Id.ext
  rw [Bool.eq_iff_iff, world.isGrantedAt_iff combination]
  simp only [opinion_singleton]
  refine (Mask.request_opinion_iff (world.grantedAt_within location.nodePath leaf)).trans ?_
  rw [← world.grantsAt_eq]
  rfl

/-- A composite of one policy decides about the repository what the policy decides. -/
theorem repository_singleton :
    ((Arrangement.composite combination [.leaf leaf]).repository world.seen).run.isGranted
        world.seen =
      ((Arrangement.leaf leaf).repository world.seen).run.isGranted world.seen := by
  funext asked
  apply Id.ext
  rw [Bool.eq_iff_iff, world.repository_isGranted_iff combination]
  simp only [opinion_singleton]
  exact Mask.request_opinion_iff (world.granted_subset_covers none leaf)

theorem isGrantedRepository_singleton :
    ((Arrangement.composite combination [.leaf leaf]).provider world.seen).isGrantedRepository =
      ((Arrangement.leaf leaf).provider world.seen).isGrantedRepository := by
  funext asked
  have composite :=
    isGranted_repository (m := Id) world (.composite combination [.leaf leaf]) asked
  rw [← composite, ← isGranted_repository (m := Id) world (.leaf leaf) asked]
  exact congrFun repository_singleton asked

/-- For a path both answer alike, if they see the same content and hold the same items to be access
control content. -/
theorem isGrantedPath_singleton (context : combination.context = leaf.context)
    (content : world.roots combination.id = (world.policies leaf.id).root) :
    ((Arrangement.composite combination [.leaf leaf]).provider world.seen).isGrantedPath =
      ((Arrangement.leaf leaf).provider world.seen).isGrantedPath := by
  funext text actions
  apply ExceptT.ext
  apply Id.ext
  rw [world.isGrantedPath_run combination [.leaf leaf] text actions, content, context,
    isGrantedAt_singleton]
  exact (run_bind_lift _ _).symm

section Privileges

variable (translates : combination.catalogue = .builtin)

include translates

theorem builtIn_singleton : (Arrangement.composite combination [.leaf leaf]).BuiltIn :=
  Arrangement.forall_combinations.mpr
    ⟨translates, List.forall_mem_singleton.mpr (Arrangement.builtIn_leaf leaf)⟩

/-- Privileges that are known are put to the provider as they are, and of those that are not the
first is reported. -/
theorem hasPrivileges_singleton :
    ((Arrangement.composite combination [.leaf leaf]).provider world.seen).hasPrivileges =
      ((Arrangement.leaf leaf).provider world.seen).hasPrivileges := by
  funext tree names
  cases read : PrivilegeBits.ofNames names ∅ with
  | error first =>
      have unknown : PrivilegeCatalogue.builtin.bits names = .error first := read
      rw [hasPrivileges_unknown translates read]
      simp only [Arrangement.provider, seen, snapshot, PolicyLeaf.provider, unknown]
      rfl
  | ok requested =>
      obtain ⟨answer, given, verdict⟩ :=
        world.hasPrivileges_eq tree (builtIn_singleton translates) read
      have within := PrivilegeBits.ofPermissions_mono (world.granted_subset_covers tree leaf)
      simp only [opinion_singleton] at verdict
      have same : answer = decide (requested ⊆
          PrivilegeBits.ofPermissions ((world.policies leaf.id).granted tree)) := by
        rw [Bool.eq_iff_iff, decide_eq_true_iff, verdict]
        exact Mask.forall_opinion_iff within
      rw [given, same]
      exact (hasPrivileges_leaf leaf read).symm

end Privileges

/-- A composite over one policy provider answers every direct question as the provider does. -/
theorem provider_singleton (context : combination.context = leaf.context)
    (content : world.roots combination.id = (world.policies leaf.id).root)
    (translates : combination.catalogue = .builtin) :
    ((Arrangement.composite combination [.leaf leaf]).provider world.seen : Provider Id) =
      (Arrangement.leaf leaf).provider world.seen := by
  have same (single : PolicyLeaf → Option Bool) :=
    opinion_singleton combination (.leaf leaf) single
  exact Provider.Mirrors.eq_plain
    { coversPrivileges := coversPrivileges_eq same
      covers := covers_eq (leaves_singleton combination (.leaf leaf))
      coversAt := coversAt_eq same
      privileges := congrFun
        (privileges_eq same (builtIn_singleton translates) (Arrangement.builtIn_leaf leaf))
      hasPrivileges := fun tree => congrFun (congrFun (hasPrivileges_singleton translates) tree)
      isGrantedRepository := congrFun isGrantedRepository_singleton
      isGranted := fun tree property =>
        congrFun (congrFun (congrFun isGranted_singleton tree) property)
      isGrantedAt := fun location => congrFun (congrFun isGrantedAt_singleton location) }
    (isGrantedPath_singleton context content)

section Walks

variable {names : List String} {reached : TreePermission PolicyLeaf PolicyDecision}

/-- What a composite over one policy provider reaches, where no name is hidden, answers by what the
policy grants at the place. -/
theorem answers_singleton (standard : ∃ defines, combination.classify = .standard defines)
    (shown : names.any Path.isHiddenName = false)
    (walk : Reached world (.composite combination [.leaf leaf]) names reached) :
    reached.answers world.seen =
      .ofGranted ((world.policy leaf).grantedAt (Path.ofElements names))
        ((world.policy leaf).readsAll (Path.ofElements names)) := by
  have walked := walk.walked
  have visible : Path.isHidden (Path.ofElements names) = false := by
    rw [Path.isHidden, Path.elements_ofElements walked.isName, shown]
  have hides : HidesNames (.composite combination [.leaf leaf]) :=
    Standard.hidesNames (Arrangement.forall_combinations.mpr
      ⟨standard, List.forall_mem_singleton.mpr (standard_leaf leaf)⟩)
  have afresh := walked.afresh hides visible (by
    rw [Path.elements_ofElements walked.isName, List.append_nil])
  have within := (world.policy leaf).grantedAt_subset_covers (Path.ofElements names)
  have opinion (i : Nat) : reached.opinion world.covers i (.composite combination [.leaf leaf]) =
      Mask.opinion (world.policy leaf).covers
        ((world.policy leaf).grantedAt (Path.ofElements names)) i := by
    rw [afresh.opinion_eq, opinion_singleton]
    rfl
  have reads := world.reads_of_composite walked.kept.paired walked.kept.truthful
  simp only [opinion] at reads
  have grants (property : Option Property) (asked : Permissions) :
      (reached.answers world.seen).grants property asked =
        (!asked.isEmpty && asked ⊆ (world.policy leaf).grantedAt (Path.ofElements names)) := by
    rw [Bool.eq_iff_iff, world.grants_iff walked.kept.paired]
    simp only [opinion]
    exact Mask.request_opinion_iff within
  refine NodeAnswers.ext ?_ ?_ ?_ ?_ ?_ ?_
  · exact Mask.flag_eq_of_opinion within (by decide) (reads.canRead trivial)
  · funext property
    exact Mask.flag_eq_of_opinion within (by decide) (reads.canReadProperty property trivial)
  · rw [Bool.eq_iff_iff, afresh.canReadAll_iff walked.isName walked.kept.truthful,
      opinion_singleton]
    exact readAllOpinion_eq_true
  · exact Mask.flag_eq_of_opinion within (by decide) (reads.canReadProperties trivial)
  · funext asked
    exact grants none asked
  · funext asked property
    exact grants (some property) asked

/-- What the policy provider reaches by itself answers in the same way. -/
theorem answers_leaf (shown : names.any Path.isHiddenName = false)
    (walk : Reached world (.leaf leaf) names reached) :
    reached.answers world.seen =
      .ofGranted ((world.policy leaf).grantedAt (Path.ofElements names))
        ((world.policy leaf).readsAll (Path.ofElements names)) := by
  obtain ⟨single, rfl, decided⟩ := walk.decidedAt
  have answers := decided.answers_eq
  rwa [if_neg (by simp [shown])] at answers

end Walks

/-- **Collapsing is transparent.** A list of one policy provider is collapsed to the provider. A
composite over it in its place, of either composition, with the provider's content and access
control items, the standard types and the built-in catalogue, would answer every direct question
alike, and so would its decision about the repository and every decision it reaches by walking to a
place without hidden names. -/
theorem collapsed_singleton (world : World) (combination : Combination) (leaf : PolicyLeaf)
    (context : combination.context = leaf.context)
    (content : world.roots combination.id = (world.policies leaf.id).root)
    (standard : ∃ defines, combination.classify = .standard defines)
    (translates : combination.catalogue = .builtin) :
    let collapsed := Arrangement.collapse combination [.leaf leaf]
    let composite := Arrangement.composite combination [.leaf leaf]
    collapsed = .leaf leaf ∧
    (composite.provider world.seen : Provider Id) = collapsed.provider world.seen ∧
    (composite.repository world.seen).run.isGranted world.seen =
      (collapsed.repository world.seen).run.isGranted world.seen ∧
    ∀ names permission reached, names.any Path.isHiddenName = false →
      Reached world collapsed names permission → Reached world composite names reached →
        reached.answers world.seen = permission.answers world.seen := by
  intro collapsed composite
  refine ⟨rfl, provider_singleton context content translates, repository_singleton, ?_⟩
  intro names permission reached shown walk further
  exact (answers_singleton standard shown further).trans (answers_leaf shown walk).symm

/-- A policy lets everything be read but the properties of one node. A composite over it that would
have to agree with others answers so too, asked directly or after walking to the node, and reports a
privilege that is not known. -/
theorem reading_denied_through_composite_of_one :
    let world := World.initial none fun _ =>
      (({ covers := .read } : Policy).allow "/" .read).deny "/a" .readProperty
    let composite := Arrangement.composite (.plain 0 .and) [.leaf (.plain 0)]
    let provider : Provider Id := composite.provider world.seen
    let top := (composite.treePermission world.seen (.root none) .empty).run
    let reached := (top.child world.seen "a" none).run
    (provider.isGranted ⟨"/a", none⟩ none .readNode).run = true ∧
      (provider.isGranted ⟨"/a", none⟩ none .read).run = false ∧
      (provider.hasPrivileges none ["jcr:read", "jcr:fly"]).run.run.toOption = none ∧
      (reached.answers world.seen).canRead = true ∧
      (reached.answers world.seen).canReadProperties = false := by
  intro world composite provider top reached
  obtain ⟨-, same, -, walks⟩ :=
    collapsed_singleton world (.plain 0 .and) (.plain 0) rfl rfl ⟨_, rfl⟩ rfl
  have start : Reached world composite [] top := .root rfl .empty
  have further : Reached world composite ["a"] reached := start.child (by decide) none
  let alone := ((Arrangement.leaf (.plain 0)).treePermission world.seen (.root none) .empty).run
  have walk : Reached world (.leaf (.plain 0)) ["a"] (alone.child world.seen "a" none).run :=
    (Reached.root rfl .empty).child (by decide) none
  have answers := walks ["a"] _ _ (by decide) walk further
  refine ⟨?_, ?_, ?_, ?_, ?_⟩
  · rw [show provider = _ from same]
    decide
  · rw [show provider = _ from same]
    decide
  · rw [show provider = _ from same]
    decide +kernel
  · rw [answers]
    decide
  · rw [answers]
    decide

end World

end Authorization
