import Authorization.Proofs.Composition.Purity
import Authorization.Proofs.Decision.Walk
import Authorization.Uniform

/-!
# Lawful decisions

The read flags of a decision could say something else than its permission checks, since they are
asked for apart. A decision is lawful, together with its provider, if they agree and the provider
covers the same whatever is asked about. Combining lawful decisions gives a lawful one
(`lawful_of_parts`), so every decision built from lawful ones is lawful (`Built.lawful`), in
particular those that composites of policy providers reach by walking (`Walked.lawful`).
-/

namespace Authorization

/-- Read flags that agree with permission checks: the node and each property are readable if reading
them is granted, each property is if all are, and everything below only if all of these are. -/
structure NodeAnswers.Lawful (answers : NodeAnswers) : Prop where
  canRead : answers.canRead = answers.isGranted .readNode
  canReadProperty : ∀ property,
    answers.canReadProperty property = answers.isGrantedProperty .readProperty property
  canReadProperties : answers.canReadProperties = true →
    ∀ property, answers.canReadProperty property = true
  canReadAll : answers.canReadAll = true →
    answers.canRead = true ∧ answers.canReadProperties = true

/-- A decision with lawful answers, whose provider covers of a request what is in a mask that
depends neither on the request nor on the property. -/
structure DecisionPart.Lawful (part : DecisionPart) : Prop where
  answers : part.answers.Lawful
  covers : ∃ mask, ∀ property asked, part.covers property asked = asked ∩ mask

/-- A mask of some bits among those of a single bit is the mask of that bit. -/
theorem Mask.eq_single_of_subset {v : Vocabulary} {i : Nat} {mask : Mask v} (filled : mask ≠ ∅)
    (within : mask ⊆ single i) : mask = single i := by
  obtain ⟨j, member⟩ := ne_empty_iff.mp filled
  apply ext
  intro k
  constructor
  · exact subset_iff.mp within k
  · intro inside
    rw [eq_of_mem_single inside, ← eq_of_mem_single (subset_iff.mp within j member)]
    exact member

/-- A lawful decision's provider covers a permission or not, whatever else is asked about. -/
theorem DecisionPart.Lawful.covers_iff {part : DecisionPart} (lawful : part.Lawful)
    {property : Option Property} {asked : Permissions} {i : Nat} :
    i ∈ part.covers property asked ↔
      i ∈ asked ∧ decide (i ∈ part.covers none (.single i)) = true := by
  obtain ⟨mask, covers⟩ := lawful.covers
  rw [decide_eq_true_iff, covers, covers, Mask.mem_inter, Mask.mem_inter]
  exact and_congr_right fun member => (and_iff_right (Mask.single_mem member)).symm

namespace Site

variable {site : Site} {parts : List DecisionPart}

/-- A fold looks at a question only where its parts can be asked. -/
theorem fold_congr {asked : Permissions} {property : Option Property}
    {first second : NodeAnswers → Permissions → Bool}
    (same : ∀ part ∈ parts, ∀ bits, bits ≠ ∅ → bits ⊆ asked →
      first part.answers bits = second part.answers bits) :
    site.fold parts asked property first = site.fold parts asked property second := by
  have plainly : ∀ part ∈ parts, Voter.Plainly
      ({ covers := part.covers property
         grants := fun bits => pure (first part.answers bits) } : Voter Id .permission)
      { covers := part.covers property, grants := fun bits => pure (second part.answers bits) }
      asked :=
    fun part present => ⟨rfl, fun bits filled within => same part present bits filled within⟩
  exact congrArg Id.run (Composition.grants_pure plainly site.composition)

section Lawful

variable (lawful : ∀ part ∈ parts, part.Lawful)

include lawful

/-- A flag folded over lawful parts does not depend on the property. -/
theorem fold_flag_lawful_iff {asked : Permissions} {property : Option Property}
    (flag : NodeAnswers → Bool) :
    site.fold parts asked property (fun answers _ => flag answers) = true ↔
      asked ≠ ∅ ∧ ∀ i ∈ asked,
        site.composition.verdict (parts.map fun part =>
          if decide (i ∈ part.covers none (.single i)) then some (flag part.answers) else none) =
            some true := by
  have parted :
      site.fold (parts.map id) asked property (fun answers _ => flag answers) = true ↔ _ :=
    fold_flag_iff (fun part present => (lawful part present).covers_iff) flag
  rwa [List.map_id] at parted

/-- What a flag is granted for, a flag that follows from it is granted for some of, whatever the
property. -/
theorem fold_flag_mono {first second : NodeAnswers → Bool}
    (implied : ∀ part ∈ parts, first part.answers = true → second part.answers = true)
    {asked fewer : Permissions} (filled : fewer ≠ ∅) (within : fewer ⊆ asked)
    {property other : Option Property}
    (granted : site.fold parts asked property (fun answers _ => first answers) = true) :
    site.fold parts fewer other (fun answers _ => second answers) = true := by
  rw [fold_flag_lawful_iff lawful] at granted ⊢
  refine ⟨filled, fun i member => ?_⟩
  refine (Composition.Stricter.verdict site.composition fun part present => ?_).grants
    (granted.2 i (Mask.subset_iff.mp within i member))
  split
  · exact ⟨fun _ => rfl, fun held => congrArg some (implied part present (Option.some.inj held))⟩
  · exact ⟨id, id⟩

/-- A node is readable, as far as nothing is remembered, exactly if reading it is granted. -/
theorem canRead_forget_eq :
    site.forget.canRead parts = (site.answers parts).isGranted .readNode := by
  have folded : site.fold parts .readNode none (fun answers _ => answers.canRead) =
      site.fold parts .readNode none fun answers bits => answers.isGranted bits := by
    refine fold_congr fun part present bits filled within => ?_
    rw [Mask.eq_single_of_subset filled within]
    exact (lawful part present).answers.canRead
  exact folded

/-- Folding the read flags for a property is folding permission checks. -/
theorem fold_canReadProperty_eq (property : Property) :
    site.fold parts .readProperty (some property)
        (fun answers _ => answers.canReadProperty property) =
      site.fold parts .readProperty (some property)
        fun answers bits => answers.isGrantedProperty bits property := by
  refine fold_congr fun part present bits filled within => ?_
  rw [Mask.eq_single_of_subset filled within]
  exact (lawful part present).answers.canReadProperty property

/-- Where all properties are readable, each of them is by the fold for it. -/
theorem fold_canReadProperty_of_all (property : Property)
    (all : site.forget.canReadProperties parts = true) :
    site.fold parts .readProperty (some property)
      (fun answers _ => answers.canReadProperty property) = true := by
  have folded : site.fold parts .readProperty none (fun answers _ => answers.canReadProperties) =
      true := all
  refine fold_flag_mono lawful (fun part present held => ?_) (by decide) (by decide) folded
  exact (lawful part present).answers.canReadProperties held property

/-- Asking first whether all properties are readable changes nothing for a single one. -/
theorem canReadProperty_eq_fold (truthful : site.Truthful parts) (property : Property) :
    site.canReadProperty parts property =
      site.fold parts .readProperty (some property)
        fun answers _ => answers.canReadProperty property := by
  rw [canReadProperty, ← truthful.canReadProperties_forget, Bool.or_eq_right_iff_imp]
  exact fold_canReadProperty_of_all lawful property

/-- Where everything below is readable, the node and its properties are. -/
theorem reads_of_canReadAll (all : site.forget.canReadAll parts = true) :
    site.forget.canRead parts = true ∧ site.forget.canReadProperties parts = true := by
  have folded : site.fold parts .read none (fun answers _ => answers.canReadAll) = true := all
  have node : site.fold parts .readNode none (fun answers _ => answers.canRead) = true :=
    fold_flag_mono lawful
      (fun part present held => ((lawful part present).answers.canReadAll held).1)
      (by decide) (by decide) folded
  have properties : site.fold parts .readProperty none
      (fun answers _ => answers.canReadProperties) = true :=
    fold_flag_mono lawful
      (fun part present held => ((lawful part present).answers.canReadAll held).2)
      (by decide) (by decide) folded
  exact ⟨node, properties⟩

end Lawful

end Site

namespace TreePermission

variable {m : Type → Type} {L D : Type} [NodeDecision D]

/-- A decision with what its provider covers at the moment. -/
def part (snapshot : Snapshot m L D) (arrangement : Arrangement L)
    (permission : TreePermission L D) : DecisionPart where
  covers property asked := permission.coverage snapshot property asked arrangement
  answers := permission.answers snapshot

variable {snapshot : Snapshot m L D} {site : Site}
  {parts : List (Arrangement L × TreePermission L D)}

omit [NodeDecision D] in
/-- Parts that cover masks cover one together. -/
theorem coverageParts_masked
    (covered : ∀ part ∈ parts, ∃ mask, ∀ property asked,
      part.2.coverage snapshot property asked part.1 = asked ∩ mask) :
    ∃ mask, ∀ property asked, coverageParts snapshot property asked parts = asked ∩ mask := by
  induction parts with
  | nil =>
      refine ⟨∅, fun property asked => Mask.ext ?_⟩
      simp [coverageParts]
  | cons part parts ih =>
      obtain ⟨here, later⟩ := List.forall_mem_cons.mp covered
      obtain ⟨first, covers⟩ := here
      obtain ⟨others, together⟩ := ih later
      refine ⟨first ∪ others, fun property asked => Mask.ext fun i => ?_⟩
      rw [coverageParts, covers, together]
      simp only [Mask.mem_union, Mask.mem_inter, and_or_left]

section Combined

variable (lawful : ∀ part ∈ parts, (part.2.part snapshot part.1).Lawful)
  (truthful : site.Truthful (decisionParts snapshot parts))

include lawful

theorem lawful_decisionParts : ∀ part ∈ decisionParts snapshot parts, part.Lawful := by
  rw [decisionParts_eq_map, List.forall_mem_map]
  exact lawful

include truthful

/-- A combined decision is lawful if its parts are. -/
theorem lawful_combined (combination : Combination) (members : List (Arrangement L)) :
    ((combined site parts).part snapshot (.composite combination members)).Lawful where
  answers := by
    have every := lawful_decisionParts lawful
    have single := Site.canReadProperty_eq_fold every truthful
    constructor
    · exact truthful.canRead_forget.symm.trans (Site.canRead_forget_eq every)
    · exact fun property => (single property).trans (Site.fold_canReadProperty_eq every property)
    · intro all property
      refine (single property).trans (Site.fold_canReadProperty_of_all every property ?_)
      exact truthful.canReadProperties_forget.trans all
    · intro all
      obtain ⟨node, properties⟩ :=
        Site.reads_of_canReadAll every (truthful.canReadAll_forget.trans all)
      exact ⟨truthful.canRead_forget.symm.trans node,
        truthful.canReadProperties_forget.symm.trans properties⟩
  covers := coverageParts_masked fun part present => (lawful part present).covers

end Combined

/-- A decision combined, level by level, from lawful decisions, with nothing stale remembered. -/
inductive Built (snapshot : Snapshot m L D) : Arrangement L → TreePermission L D → Prop
  | given {arrangement : Arrangement L} {permission : TreePermission L D}
      (lawful : (permission.part snapshot arrangement).Lawful) :
      Built snapshot arrangement permission
  | combined {combination : Combination} {members : List (Arrangement L)} {site : Site}
      {parts : List (Arrangement L × TreePermission L D)}
      (truthful : site.Truthful (decisionParts snapshot parts))
      (built : ∀ part ∈ parts, Built snapshot part.1 part.2) :
      Built snapshot (.composite combination members) (.combined site parts)

/-- Whatever is built from lawful decisions is lawful. -/
theorem Built.lawful {arrangement : Arrangement L} {permission : TreePermission L D}
    (built : Built snapshot arrangement permission) :
    (permission.part snapshot arrangement).Lawful := by
  induction built with
  | given lawful => exact lawful
  | combined truthful built ih => exact lawful_combined ih truthful _ _

end TreePermission

/-- Of a request for some bits, asking whether there are any makes no difference. -/
theorem Mask.decide_subset_eq {v : Vocabulary} {asked granted : Mask v}
    (filled : asked.isEmpty = false) :
    decide (asked ⊆ granted) = (!asked.isEmpty && asked ⊆ granted) := by
  rw [filled]
  rfl

namespace NodeAnswers

theorem lawful_always (answer : Bool) : (always answer).Lawful where
  canRead := rfl
  canReadProperty _ := rfl
  canReadProperties all _ := all
  canReadAll all := ⟨all, all⟩

/-- Answers from what is granted are lawful if everything below is readable only where reading is
granted. -/
theorem lawful_ofGranted {granted : Permissions} {readAll : Bool}
    (reading : readAll = true → Permissions.read ⊆ granted) :
    (ofGranted granted readAll).Lawful := by
  constructor
  · exact Mask.decide_subset_eq (by decide)
  · exact fun _ => Mask.decide_subset_eq (by decide)
  · exact fun all _ => all
  · intro all
    have both := Mask.subset_iff.mp (reading all)
    exact ⟨decide_eq_true ((Mask.single_subset_iff (by decide)).mpr (both 0 (by decide))),
      decide_eq_true ((Mask.single_subset_iff (by decide)).mpr (both 1 (by decide)))⟩

end NodeAnswers

/-- A uniform provider is lawful if no property is left out where all are readable. -/
theorem UniformLeaf.lawful_decided {m : Type → Type} {L : Type} {leaf : UniformLeaf}
    {snapshot : Snapshot m L UniformDecision} {single : L}
    (complete : leaf.answers.canReadProperties = true →
      ∀ property, leaf.answers.canReadProperty property = true)
    (covers : ∀ permission property asked,
      (snapshot.leaf single).coversDecision permission property asked = asked ∩ leaf.covers) :
    ((TreePermission.node (.decided ⟨leaf⟩)).part snapshot (.leaf single)).Lawful where
  answers := by
    have node : (NodeAnswers.ofGranted leaf.nodeGrants
        (Permissions.read ⊆ leaf.nodeGrants)).Lawful :=
      NodeAnswers.lawful_ofGranted of_decide_eq_true
    refine ⟨node.canRead, fun property => ?_, complete, node.canReadAll⟩
    exact Mask.decide_subset_eq (by decide)
  covers := ⟨leaf.covers, fun property asked => covers _ property asked⟩

namespace World

open TreePermission (Built)

variable (world : World)

/-- What policy providers decide about a node is lawful. -/
theorem lawful_node (permission : NodePermission PolicyDecision)
    (arrangement : Arrangement PolicyLeaf) :
    ((TreePermission.node permission).part world.seen arrangement).Lawful where
  answers := by
    cases permission with
    | all => exact NodeAnswers.lawful_always true
    | empty | noRecourse => exact NodeAnswers.lawful_always false
    | decided decision =>
        refine NodeAnswers.lawful_ofGranted fun all => ?_
        exact of_decide_eq_true ((Bool.and_eq_true ..).mp all).1
  covers := by
    refine ⟨arrangement.leaves.foldl (fun covered leaf => covered ∪ world.covers leaf) ∅, ?_⟩
    intro property asked
    apply Mask.ext
    intro i
    rw [Mask.mem_inter, Mask.mem_foldl_union]
    exact world.mem_coversWhole

variable {world}

/-- What policy providers decide is built from lawful decisions. -/
theorem built_of_paired {fits : PolicyLeaf → NodePermission PolicyDecision → Prop}
    {arrangement : Arrangement PolicyLeaf} {permission : TreePermission PolicyLeaf PolicyDecision}
    (paired : permission.Paired fits arrangement) (truthful : permission.Truthful world.seen) :
    Built world.seen arrangement permission := by
  induction paired with
  | leaf | nothing => exact .given (world.lawful_node _ _)
  | combined lined paired ih =>
      cases truthful with
      | combined here within =>
          exact .combined here fun part present => ih part present (within part present)

/-- **Walked decisions are lawful.** Whatever policies a composite combines, its decisions reached
by walking are lawful, with whatever read flags they remember. -/
theorem Walked.lawful {combination : Combination} {members : List (Arrangement PolicyLeaf)}
    {names : List String} {permission : TreePermission PolicyLeaf PolicyDecision}
    (walked : Walked world combination members names permission) :
    (permission.part world.seen (.composite combination members)).Lawful :=
  (built_of_paired walked.kept.paired walked.kept.truthful).lawful

end World

namespace TreePermission

variable {m : Type → Type} {L D : Type} [NodeDecision D] {snapshot : Snapshot m L D} {site : Site}
  {parts : List (Arrangement L × TreePermission L D)}

/-- **Lawful decisions combined.** If every part of a combined decision is lawful with its provider,
and the read flags that the decision remembers are the ones it would find, then it is lawful again
with the composite as its provider, however the parts are combined; in particular a property is
readable, by way of all properties or not, exactly if the fold for the property says so. -/
theorem lawful_of_parts (lawful : ∀ part ∈ parts, (part.2.part snapshot part.1).Lawful)
    (truthful : site.Truthful (decisionParts snapshot parts)) (combination : Combination)
    (members : List (Arrangement L)) :
    ((combined site parts).part snapshot (.composite combination members)).Lawful ∧
      ∀ property, ((combined site parts).answers snapshot).canReadProperty property =
        site.fold (decisionParts snapshot parts) .readProperty (some property)
          fun answers _ => answers.canReadProperty property :=
  ⟨lawful_combined lawful truthful combination members,
    Site.canReadProperty_eq_fold (lawful_decisionParts lawful) truthful⟩

/-- A provider that grants reading must agree with two that share it: one grants reading the node,
the other reading properties of one name only. Of the properties just these are readable. -/
theorem titles_readable_in_shares :
    let single (covers granted : Permissions) (special : List (String × Permissions)) :
        UniformLeaf :=
      { id := 0, name := "uniform", covers, granted, propertyGrants := special, mode := .masks
        refreshError := none, privilegeError := none, reports := none }
    let snapshot : Snapshot Journalled UniformLeaf UniformDecision :=
      { root := fun _ => none, leaf := fun leaf => leaf.provider id }
    let site (composition : Composition) : Site :=
      { tree := .root none, type := .default, classify := Context.plain.classify, composition }
    let given (leaf : UniformLeaf) :
        Arrangement UniformLeaf × TreePermission UniformLeaf UniformDecision :=
      (.leaf leaf, .node (.decided ⟨leaf⟩))
    let shared := [given (single .readNode .readNode []),
      given (single .readProperty ∅ [("title", .readProperty)])]
    let parts := [given (single .read .read []),
      (.composite (.plain 1 .or) (shared.map Prod.fst), combined (site .or) shared)]
    let permission := combined (site .and) parts
    let title := Property.single "title" (.string "")
    let other := Property.single "other" (.string "")
    (permission.part snapshot (.composite (.plain 0 .and) (parts.map Prod.fst))).Lawful ∧
      (permission.answers snapshot).canRead = true ∧
      (permission.answers snapshot).canReadProperties = false ∧
      (permission.answers snapshot).isGrantedProperty .readProperty title = true ∧
      (permission.answers snapshot).canReadProperty title = true ∧
      (permission.answers snapshot).canReadProperty other = false := by
  intro single snapshot site given shared parts permission title other
  have lawful (leaf : UniformLeaf) (complete : leaf.answers.canReadProperties = true →
      ∀ property, leaf.answers.canReadProperty property = true) :
      ((given leaf).2.part snapshot (given leaf).1).Lawful :=
    UniformLeaf.lawful_decided complete fun _ _ _ => rfl
  have inner : ∀ part ∈ shared, (part.2.part snapshot part.1).Lawful := by
    simp only [shared, List.forall_mem_cons]
    exact ⟨lawful _ fun all => absurd all (by decide), lawful _ fun all => absurd all (by decide),
      List.forall_mem_nil _⟩
  have outer : ∀ part ∈ parts, (part.2.part snapshot part.1).Lawful := by
    simp only [parts, List.forall_mem_cons]
    exact ⟨lawful _ fun all _ => all,
      (lawful_of_parts inner (Site.truthful_of_memo rfl) _ _).1, List.forall_mem_nil _⟩
  have fresh : (site .and).Truthful (decisionParts snapshot parts) := Site.truthful_of_memo rfl
  obtain ⟨whole, folded⟩ := lawful_of_parts outer fresh (.plain 0 .and) (parts.map Prod.fst)
  have readable : (permission.answers snapshot).canReadProperty title = true :=
    (folded title).trans (by decide)
  refine ⟨whole, by decide, by decide, ?_, readable, by decide⟩
  exact (whole.answers.canReadProperty title).symm.trans readable

end TreePermission

end Authorization
