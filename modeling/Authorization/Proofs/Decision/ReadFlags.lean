import Authorization.Proofs.Decision.Memory

/-!
# Read flags of decisions

As long as nothing stale is remembered, the read flags of a combined decision say what its opinions
on reading say: `canRead` about the node, `canReadProperties` and `canReadProperty` about its
properties. Reading everything below is never granted without them (`reads_of_truthful`).
-/

namespace Authorization

/-- Read flags that say what an opinion says about the permissions in scope. -/
structure NodeAnswers.Reads (answers : NodeAnswers) (opinion : Nat → Option Bool)
    (scope : Nat → Prop) : Prop where
  canRead : scope 0 → (answers.canRead = true ↔ opinion 0 = some true)
  canReadProperties : scope 1 → (answers.canReadProperties = true ↔ opinion 1 = some true)
  canReadProperty : ∀ property, scope 1 →
    (answers.canReadProperty property = true ↔ opinion 1 = some true)
  canReadAll : answers.canReadAll = true → ∀ i ∈ Permissions.read, scope i → opinion i = some true

theorem NodeAnswers.Reads.of_all {answers : NodeAnswers} {opinion : Nat → Option Bool}
    (reads : answers.Reads opinion fun _ => True) (scope : Nat → Prop) :
    answers.Reads opinion scope where
  canRead _ := reads.canRead trivial
  canReadProperties _ := reads.canReadProperties trivial
  canReadProperty property _ := reads.canReadProperty property trivial
  canReadAll all i member _ := reads.canReadAll all i member trivial

namespace NodePermission

variable (permission : NodePermission PolicyDecision)

/-- The node is readable if the decision holds that permission. -/
theorem canRead_iff : permission.answers.canRead = true ↔ permission.holds 0 = true := by
  cases permission with
  | all | empty | noRecourse => rfl
  | decided decision =>
      exact decide_eq_true_iff.trans
        ((Mask.single_subset_iff (by decide)).trans decide_eq_true_iff.symm)

theorem canReadProperties_iff :
    permission.answers.canReadProperties = true ↔ permission.holds 1 = true := by
  cases permission with
  | all | empty | noRecourse => rfl
  | decided decision =>
      exact decide_eq_true_iff.trans
        ((Mask.single_subset_iff (by decide)).trans decide_eq_true_iff.symm)

theorem canReadProperty_iff (property : Property) :
    permission.answers.canReadProperty property = true ↔ permission.holds 1 = true := by
  rw [← canReadProperties_iff]
  cases permission <;> rfl

variable {permission}

/-- Where everything below is readable, reading is held. -/
theorem holds_of_canReadAll (all : permission.answers.canReadAll = true) {i : Nat}
    (member : i ∈ Permissions.read) : permission.holds i = true := by
  cases permission with
  | all => rfl
  | empty | noRecourse => exact absurd all (by decide)
  | decided decision =>
      obtain ⟨within, -⟩ := (Bool.and_eq_true ..).mp all
      exact decide_eq_true (Mask.subset_iff.mp (of_decide_eq_true within) i member)

end NodePermission

namespace World

variable (world : World)

section Combined

variable {fits : PolicyLeaf → NodePermission PolicyDecision → Prop} {site : Site}
  {parts : List (Arrangement PolicyLeaf × TreePermission PolicyLeaf PolicyDecision)}
  (paired : ∀ part ∈ parts, part.2.Paired fits part.1)

include paired

/-- A flag that follows the opinion on one permission in every part follows the combined opinion. -/
theorem fold_single_iff {i : Nat} (bit : i < 64) (flag : NodeAnswers → Bool)
    (agreed : ∀ part ∈ parts, (part.2.opinion world.covers i part.1).isSome →
      (flag (part.2.answers world.seen) = true ↔
        part.2.opinion world.covers i part.1 = some true)) (property : Option Property) :
    site.fold (TreePermission.decisionParts world.seen parts) (.single i) property
        (fun answers _ => flag answers) = true ↔
      site.composition.verdict (parts.map fun part => part.2.opinion world.covers i part.1) =
        some true := by
  have same : (parts.map fun part =>
      if (part.2.opinion world.covers i part.1).isSome then
        some (flag (part.2.answers world.seen)) else none) =
      parts.map fun part => part.2.opinion world.covers i part.1 := by
    refine List.map_congr_left fun part present => ?_
    have known := agreed part present
    cases held : part.2.opinion world.covers i part.1 with
    | none => rfl
    | some granted =>
        rw [held, Option.isSome_some, Option.some.injEq] at known
        rw [Option.isSome_some, if_pos rfl, Bool.eq_iff_iff.mpr (known rfl)]
  rw [world.fold_flag_iff paired, ← same]
  exact Mask.single_forall_iff bit

variable (reads : ∀ part ∈ parts, (part.2.answers world.seen).Reads
  (fun i => part.2.opinion world.covers i part.1)
  fun i => (part.2.opinion world.covers i part.1).isSome)

include reads

/-- The node is readable by the verdict of the parts. -/
theorem canRead_combined_iff :
    site.forget.canRead (TreePermission.decisionParts world.seen parts) = true ↔
      site.composition.verdict (parts.map fun part => part.2.opinion world.covers 0 part.1) =
        some true :=
  world.fold_single_iff paired (by decide) NodeAnswers.canRead
    (fun part present => (reads part present).canRead) none

theorem canReadProperties_combined_iff :
    site.forget.canReadProperties (TreePermission.decisionParts world.seen parts) = true ↔
      site.composition.verdict (parts.map fun part => part.2.opinion world.covers 1 part.1) =
        some true :=
  world.fold_single_iff paired (by decide) NodeAnswers.canReadProperties
    (fun part present => (reads part present).canReadProperties) none

theorem canReadProperty_combined_iff (property : Property) :
    site.forget.canReadProperty (TreePermission.decisionParts world.seen parts) property = true ↔
      site.composition.verdict (parts.map fun part => part.2.opinion world.covers 1 part.1) =
        some true := by
  have single : site.forget.fold (TreePermission.decisionParts world.seen parts) .readProperty
      (some property) (fun answers _ => answers.canReadProperty property) = true ↔ _ :=
    world.fold_single_iff paired (by decide) (fun answers => answers.canReadProperty property)
      (fun part present => (reads part present).canReadProperty property) (some property)
  rw [Site.canReadProperty, Bool.or_eq_true, single,
    world.canReadProperties_combined_iff paired reads]
  exact or_self_iff

/-- Where everything below is readable, so is the node with its properties. -/
theorem verdict_of_canReadAll
    (all : site.forget.canReadAll (TreePermission.decisionParts world.seen parts) = true)
    {i : Nat} (member : i ∈ Permissions.read) :
    site.composition.verdict (parts.map fun part => part.2.opinion world.covers i part.1) =
      some true := by
  have folded : site.fold (TreePermission.decisionParts world.seen parts) .read none
      (fun answers _ => answers.canReadAll) = true := all
  obtain ⟨-, granted⟩ := (world.fold_flag_iff paired none .read NodeAnswers.canReadAll).mp folded
  refine (Composition.Stricter.verdict site.composition fun part present => ?_).grants
    (granted i member)
  constructor
  · intro known
    rw [if_pos known]
    rfl
  · intro flagged
    split at flagged
    · rename_i known
      exact (reads part present).canReadAll (Option.some.inj flagged) i member known
    · exact absurd flagged (by simp)

/-- The read flags of a combined decision say what its opinion says. -/
theorem reads_combined (truthful : site.Truthful (TreePermission.decisionParts world.seen parts))
    (arrangement : Arrangement PolicyLeaf) :
    ((TreePermission.combined site parts).answers world.seen).Reads
      (fun i => (TreePermission.combined site parts).opinion world.covers i arrangement)
      fun _ => True := by
  simp only [TreePermission.opinion_combined]
  rw [TreePermission.answers, ← truthful.answers_forget]
  constructor
  · exact fun _ => world.canRead_combined_iff paired reads
  · exact fun _ => world.canReadProperties_combined_iff paired reads
  · exact fun property _ => world.canReadProperty_combined_iff paired reads property
  · exact fun all i member _ => world.verdict_of_canReadAll paired reads all member

end Combined

/-- The flags of a decision that is not combined say what it holds. -/
theorem reads_node (permission : NodePermission PolicyDecision)
    (arrangement : Arrangement PolicyLeaf) :
    permission.answers.Reads
      (fun i => (TreePermission.node permission).opinion world.covers i arrangement)
      fun i => ((TreePermission.node permission).opinion world.covers i arrangement).isSome := by
  have opinion {i : Nat}
      (known : ((TreePermission.node permission).opinion world.covers i arrangement).isSome) :
      (TreePermission.node permission).opinion world.covers i arrangement = some true ↔
        permission.holds i = true :=
    world.opinion_node_eq_true.trans (and_iff_right known)
  constructor
  · intro known
    rw [opinion known]
    exact permission.canRead_iff
  · intro known
    rw [opinion known]
    exact permission.canReadProperties_iff
  · intro property known
    rw [opinion known]
    exact permission.canReadProperty_iff property
  · intro all i member known
    rw [opinion known]
    exact permission.holds_of_canReadAll all member

/-- The read flags of a decision that grants nothing say what its opinion says. -/
theorem reads_nothing {permission : NodePermission PolicyDecision}
    (nothing : permission.grantsNothing = true) (arrangement : Arrangement PolicyLeaf) :
    permission.answers.Reads
      (fun i => (TreePermission.node permission).opinion world.covers i arrangement)
      fun _ => True := by
  have denied := world.opinion_node_ne_true nothing arrangement
  rw [NodePermission.answers_of_grantsNothing nothing]
  constructor <;> simp [NodeAnswers.always, denied]

variable {fits : PolicyLeaf → NodePermission PolicyDecision → Prop}
  {permission : TreePermission PolicyLeaf PolicyDecision}

/-- Flags that remember nothing stale say what the opinions on reading say where these are known. -/
theorem reads_of_truthful {arrangement : Arrangement PolicyLeaf}
    (paired : permission.Paired fits arrangement) (truthful : permission.Truthful world.seen) :
    (permission.answers world.seen).Reads
      (fun i => permission.opinion world.covers i arrangement)
      fun i => (permission.opinion world.covers i arrangement).isSome := by
  induction paired with
  | leaf | nothing => exact world.reads_node _ _
  | combined lined paired ih =>
      cases truthful with
      | combined here within =>
          have reads := fun part present => ih part present (within part present)
          exact (world.reads_combined paired reads here _).of_all _

/-- The flags of a decision of a composite say what its opinions on reading say. -/
theorem reads_of_composite {combination : Combination} {members : List (Arrangement PolicyLeaf)}
    (paired : permission.Paired fits (.composite combination members))
    (truthful : permission.Truthful world.seen) :
    (permission.answers world.seen).Reads
      (fun i => permission.opinion world.covers i (.composite combination members))
      fun _ => True := by
  cases paired with
  | nothing nothing => exact world.reads_nothing nothing _
  | combined lined paired =>
      cases truthful with
      | combined here within =>
          have reads := fun part present =>
            world.reads_of_truthful (paired part present) (within part present)
          exact world.reads_combined paired reads here _

/-- The opinions of a decision of a composite settle its answers, up to reading everything below. -/
theorem answers_of_opinion {later : World} {combination other : Combination}
    {members others : List (Arrangement PolicyLeaf)}
    {reached : TreePermission PolicyLeaf PolicyDecision}
    {suits : PolicyLeaf → NodePermission PolicyDecision → Prop}
    (paired : permission.Paired fits (.composite combination members))
    (truthful : permission.Truthful world.seen)
    (matched : reached.Paired suits (.composite other others))
    (honest : reached.Truthful later.seen)
    (same : ∀ i, reached.opinion later.covers i (.composite other others) =
      permission.opinion world.covers i (.composite combination members)) :
    reached.answers later.seen =
      { permission.answers world.seen with
        canReadAll := (reached.answers later.seen).canReadAll } := by
  have reads := world.reads_of_composite paired truthful
  have further := later.reads_of_composite matched honest
  simp only [same] at further
  have grants (property : Option Property) (asked : Permissions) :
      (reached.answers later.seen).grants property asked =
        (permission.answers world.seen).grants property asked := by
    rw [Bool.eq_iff_iff, later.grants_iff matched, world.grants_iff paired]
    simp only [same]
  refine NodeAnswers.ext ?_ ?_ rfl ?_ ?_ ?_
  · exact Bool.eq_iff_iff.mpr ((further.canRead trivial).trans (reads.canRead trivial).symm)
  · funext property
    exact Bool.eq_iff_iff.mpr ((further.canReadProperty property trivial).trans
      (reads.canReadProperty property trivial).symm)
  · exact Bool.eq_iff_iff.mpr
      ((further.canReadProperties trivial).trans (reads.canReadProperties trivial).symm)
  · funext asked
    exact grants none asked
  · funext asked property
    exact grants (some property) asked

/-- A decision of a composite denies everything exactly if it has no opinion in favour. -/
theorem answers_eq_always_false_iff {combination : Combination}
    {members : List (Arrangement PolicyLeaf)}
    (paired : permission.Paired fits (.composite combination members))
    (truthful : permission.Truthful world.seen) :
    permission.answers world.seen = .always false ↔
      ∀ i < 64,
        permission.opinion world.covers i (.composite combination members) ≠ some true := by
  have reads := world.reads_of_composite paired truthful
  constructor
  · intro silent i bit granted
    have single := (world.grants_iff paired none (.single i)).mpr
      ((Mask.single_forall_iff bit).mpr granted)
    rw [silent] at single
    exact Bool.noConfusion single
  · intro denied
    have node := denied 0 (by decide)
    have properties := denied 1 (by decide)
    have refused (property : Option Property) (asked : Permissions) :
        (permission.answers world.seen).grants property asked = false := by
      rw [← Bool.not_eq_true, world.grants_iff paired]
      exact Mask.not_forall_mem fun i member => denied i (Mask.lt_of_mem member)
    refine NodeAnswers.ext ?_ ?_ ?_ ?_ ?_ ?_
    · exact Bool.eq_false_iff.mpr (mt (reads.canRead trivial).mp node)
    · funext property
      exact Bool.eq_false_iff.mpr (mt (reads.canReadProperty property trivial).mp properties)
    · exact Bool.eq_false_iff.mpr fun all => node (reads.canReadAll all 0 (by decide) trivial)
    · exact Bool.eq_false_iff.mpr (mt (reads.canReadProperties trivial).mp properties)
    · funext asked
      exact refused none asked
    · funext asked property
      exact refused (some property) asked

end World

end Authorization
