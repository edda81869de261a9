import Authorization.Proofs.Provider.Opinion

/-!
# Opinions of decisions

About one permission a decision has an opinion made from the grants that its parts keep and from
what their providers cover at the moment (`TreePermission.opinion`). The decision answers
permission by permission according to it (`grants_combined_iff`), and its read flags are folds of
the flags of its parts (`fold_flag_iff`).
-/

namespace Authorization

/-- Whether permissions are granted on the node, or on a property of it. -/
def NodeAnswers.grants (answers : NodeAnswers) (property : Option Property)
    (asked : Permissions) : Bool :=
  match property with
  | none => answers.isGranted asked
  | some property => answers.isGrantedProperty asked property

/-- A read flag folded from the flags of parts holds exactly if, for each of the permissions, the
parts that cover it settle on the flag. -/
theorem Site.fold_flag_iff {site : Site} {ι : Type} {items : List ι} {part : ι → DecisionPart}
    {held : Nat → ι → Bool} {property : Option Property} {asked : Permissions}
    (covered : ∀ item ∈ items, ∀ {asked : Permissions} {i : Nat},
      i ∈ (part item).covers property asked ↔ i ∈ asked ∧ held i item = true)
    (flag : NodeAnswers → Bool) :
    site.fold (items.map part) asked property (fun answers _ => flag answers) = true ↔
      asked ≠ ∅ ∧ ∀ i ∈ asked,
        site.composition.verdict (items.map fun item =>
          if held i item then some (flag (part item).answers) else none) = some true := by
  have flagged : ∀ item ∈ items, Voter.Follows
      { covers := (part item).covers property, grants := fun _ => pure (flag (part item).answers) }
      fun i => if held i item then some (flag (part item).answers) else none :=
    fun item present => Voter.Follows.of_flag (covered item present)
  rw [← site.composition.grants_of_follows flagged]
  simp only [Site.fold, List.map_map]
  rfl

namespace NodePermission

variable {permission : NodePermission PolicyDecision} {i : Nat}

/-- Whether a decision grants a permission, whatever is covered. -/
def holds (i : Nat) : NodePermission PolicyDecision → Bool
  | all => true
  | empty | noRecourse => false
  | decided decision => decide (i ∈ decision.granted)

theorem holds_of_grantsNothing (nothing : permission.grantsNothing = true) :
    permission.holds i = false := by
  cases permission <;> simp_all [grantsNothing, holds]

theorem answers_of_grantsNothing (nothing : permission.grantsNothing = true) :
    permission.answers = .always false := by
  cases permission <;> simp_all [grantsNothing, answers]

/-- A single decision grants a request exactly if it holds all of it. -/
theorem answers_grants_iff (property : Option Property) {asked : Permissions}
    (filled : asked ≠ ∅) :
    permission.answers.grants property asked = true ↔ ∀ i ∈ asked, permission.holds i = true := by
  obtain ⟨i, member⟩ := Mask.ne_empty_iff.mp filled
  rw [← Mask.isEmpty_eq_false_iff] at filled
  have denied : ¬ ∀ j ∈ asked, false = true := fun all => Bool.false_ne_true (all i member)
  cases permission with
  | all => cases property <;> simp [NodeAnswers.grants, answers, NodeAnswers.always, holds]
  | empty | noRecourse =>
      cases property <;> simpa [NodeAnswers.grants, answers, NodeAnswers.always, holds] using denied
  | decided decision =>
      have opened : (decided decision).answers.grants property asked =
          (!asked.isEmpty && asked ⊆ decision.granted) := by
        cases property <;> rfl
      rw [opened, filled]
      simp [holds, Mask.subset_iff]

end NodePermission

namespace TreePermission

mutual

/-- The opinion of a provider's decision about a permission: of the providers that cover it at the
moment, with what the decision keeps as granted. -/
def opinion (covers : PolicyLeaf → Permissions) (i : Nat) :
    TreePermission PolicyLeaf PolicyDecision → Arrangement PolicyLeaf → Option Bool
  | .node permission, arrangement =>
    if arrangement.leaves.any fun leaf => i ∈ covers leaf then some (permission.holds i) else none
  | .combined site parts, _ => site.composition.verdict (opinionsOfParts covers i parts)

def opinionsOfParts (covers : PolicyLeaf → Permissions) (i : Nat) :
    List (Arrangement PolicyLeaf × TreePermission PolicyLeaf PolicyDecision) → List (Option Bool)
  | [] => []
  | (arrangement, permission) :: parts =>
    opinion covers i permission arrangement :: opinionsOfParts covers i parts

end

/-- A decision and the provider that gave it: single providers decide for themselves, a combined
decision keeps one part for each member of a composite, and what single providers decided is known
to fit them. -/
inductive Paired (fits : PolicyLeaf → NodePermission PolicyDecision → Prop) :
    Arrangement PolicyLeaf → TreePermission PolicyLeaf PolicyDecision → Prop
  | leaf {provider : PolicyLeaf} {permission : NodePermission PolicyDecision}
      (fit : fits provider permission) : Paired fits (.leaf provider) (.node permission)
  | nothing {arrangement : Arrangement PolicyLeaf} {permission : NodePermission PolicyDecision}
      (nothing : permission.grantsNothing = true) : Paired fits arrangement (.node permission)
  | combined {combination : Combination} {members : List (Arrangement PolicyLeaf)} {site : Site}
      {parts : List (Arrangement PolicyLeaf × TreePermission PolicyLeaf PolicyDecision)}
      (lined : parts.map Prod.fst = members)
      (paired : ∀ part ∈ parts, Paired fits part.1 part.2) :
      Paired fits (.composite combination members) (.combined site parts)

section Equations

variable {m : Type → Type} {L D : Type} (snapshot : Snapshot m L D)

theorem decisionParts_eq_map [NodeDecision D]
    (parts : List (Arrangement L × TreePermission L D)) :
    decisionParts snapshot parts = parts.map fun part =>
      { covers := fun property asked => part.2.coverage snapshot property asked part.1
        answers := part.2.answers snapshot } := by
  induction parts with
  | nil => rfl
  | cons part parts ih => rw [decisionParts, ih, List.map_cons]

theorem mem_coverageParts {property : Option Property} {asked : Permissions} {i : Nat}
    {parts : List (Arrangement L × TreePermission L D)} :
    i ∈ coverageParts snapshot property asked parts ↔
      ∃ part ∈ parts, i ∈ part.2.coverage snapshot property asked part.1 := by
  induction parts with
  | nil => simp [coverageParts]
  | cons part parts ih => rw [coverageParts, Mask.mem_union, ih, List.exists_mem_cons_iff]

theorem opinionsOfParts_eq_map (covers : PolicyLeaf → Permissions) (i : Nat)
    (parts : List (Arrangement PolicyLeaf × TreePermission PolicyLeaf PolicyDecision)) :
    opinionsOfParts covers i parts = parts.map fun part => part.2.opinion covers i part.1 := by
  induction parts with
  | nil => rfl
  | cons part parts ih => rw [opinionsOfParts, ih, List.map_cons]

/-- The opinion of a combined decision is the verdict on the opinions of its parts. -/
theorem opinion_combined (covers : PolicyLeaf → Permissions) (i : Nat) (site : Site)
    (parts : List (Arrangement PolicyLeaf × TreePermission PolicyLeaf PolicyDecision))
    (arrangement : Arrangement PolicyLeaf) :
    (combined site parts).opinion covers i arrangement =
      site.composition.verdict (parts.map fun part => part.2.opinion covers i part.1) := by
  rw [opinion, opinionsOfParts_eq_map]

end Equations

end TreePermission

namespace World

variable (world : World)

/-- What a policy provider covers at the moment. -/
def covers (leaf : PolicyLeaf) : Permissions := (world.policy leaf).covers

/-- A provider covers, as a whole, what one of its single providers does. -/
theorem mem_coversWhole {permission : TreePermission PolicyLeaf PolicyDecision}
    {property : Option Property} {asked : Permissions} {i : Nat}
    {arrangement : Arrangement PolicyLeaf} :
    i ∈ arrangement.coversWhole world.seen permission property asked ↔
      i ∈ asked ∧ ∃ leaf ∈ arrangement.leaves, i ∈ world.covers leaf := by
  have several {members : List (Arrangement PolicyLeaf)} :
      i ∈ Arrangement.coversWholes world.seen permission property asked members ↔
        ∃ member ∈ members, i ∈ member.coversWhole world.seen permission property asked := by
    induction members with
    | nil => simp [Arrangement.coversWholes]
    | cons member members ih =>
        rw [Arrangement.coversWholes, Mask.mem_union, ih, List.exists_mem_cons_iff]
  induction arrangement with
  | empty => simp [Arrangement.coversWhole, Arrangement.leaves]
  | leaf provider =>
      simp only [Arrangement.coversWhole, Arrangement.leaves, List.mem_singleton,
        exists_eq_left]
      exact Mask.mem_inter
  | composite combination members ih =>
      simp only [Arrangement.coversWhole, Arrangement.leaves, several,
        Arrangement.mem_leavesOfAll]
      constructor
      · rintro ⟨member, present, inside⟩
        obtain ⟨wanted, leaf, below, covered⟩ := (ih member present).mp inside
        exact ⟨wanted, leaf, ⟨member, present, below⟩, covered⟩
      · rintro ⟨wanted, leaf, ⟨member, present, below⟩, covered⟩
        exact ⟨member, present, (ih member present).mpr ⟨wanted, leaf, below, covered⟩⟩

/-- A decision with its provider as a party to a combined decision. -/
def asksDecision (property : Option Property)
    (part : Arrangement PolicyLeaf × TreePermission PolicyLeaf PolicyDecision) :
    Voter Id .permission where
  covers asked := part.2.coverage world.seen property asked part.1
  grants asked := pure ((part.2.answers world.seen).grants property asked)

/-- A combined decision puts a question to its parts. -/
theorem grants_combined (property : Option Property) (site : Site)
    (parts : List (Arrangement PolicyLeaf × TreePermission PolicyLeaf PolicyDecision))
    (asked : Permissions) :
    ((TreePermission.combined site parts).answers world.seen).grants property asked =
      (site.composition.grants asked (parts.map (world.asksDecision property))).run := by
  have parted := TreePermission.decisionParts_eq_map world.seen parts
  cases property <;>
  · simp only [TreePermission.answers, parted, Site.answers, NodeAnswers.grants, Site.fold,
      List.map_map]
    rfl

/-- A combined decision asks its parts. -/
theorem asksDecision_combined (property : Option Property) (combination : Combination)
    (members : List (Arrangement PolicyLeaf)) (site : Site)
    (parts : List (Arrangement PolicyLeaf × TreePermission PolicyLeaf PolicyDecision)) :
    world.asksDecision property (.composite combination members, .combined site parts) =
      { covers := fun asked => TreePermission.coverageParts world.seen property asked parts
        grants := fun asked =>
          site.composition.grants asked (parts.map (world.asksDecision property)) } := by
  simp only [asksDecision, TreePermission.coverage, grants_combined]
  rfl

/-- A single decision has an opinion where some single provider covers the permission. -/
theorem opinion_node_isSome {permission : NodePermission PolicyDecision}
    {arrangement : Arrangement PolicyLeaf} {i : Nat} :
    ((TreePermission.node permission).opinion world.covers i arrangement).isSome ↔
      ∃ leaf ∈ arrangement.leaves, i ∈ world.covers leaf := by
  rw [TreePermission.opinion]
  split
  · rename_i covered
    simpa using covered
  · rename_i uncovered
    simpa using uncovered

/-- A single decision grants what it holds, where that is covered at all. -/
theorem opinion_node_eq_true {permission : NodePermission PolicyDecision}
    {arrangement : Arrangement PolicyLeaf} {i : Nat} :
    (TreePermission.node permission).opinion world.covers i arrangement = some true ↔
      ((TreePermission.node permission).opinion world.covers i arrangement).isSome ∧
        permission.holds i = true := by
  rw [TreePermission.opinion]
  split <;> simp

/-- A single decision follows its opinion. -/
theorem follows_node (property : Option Property) (arrangement : Arrangement PolicyLeaf)
    (permission : NodePermission PolicyDecision) :
    (world.asksDecision property (arrangement, .node permission)).Follows fun i =>
      (TreePermission.node permission).opinion world.covers i arrangement where
  covers := by
    intro asked i
    rw [opinion_node_isSome]
    simp only [asksDecision, TreePermission.coverage]
    exact world.mem_coversWhole
  grants := by
    intro asked filled all
    simp only [asksDecision, Id.run_pure, TreePermission.answers]
    rw [NodePermission.answers_grants_iff property filled]
    refine forall₂_congr fun i member => ?_
    rw [opinion_node_eq_true]
    exact (and_iff_right (all i member)).symm

/-- A decision answers in favour of what it covers exactly if its opinion grants it. -/
theorem follows_asksDecision {fits : PolicyLeaf → NodePermission PolicyDecision → Prop}
    {arrangement : Arrangement PolicyLeaf}
    {permission : TreePermission PolicyLeaf PolicyDecision}
    (paired : permission.Paired fits arrangement) (property : Option Property) :
    (world.asksDecision property (arrangement, permission)).Follows fun i =>
      permission.opinion world.covers i arrangement := by
  induction paired with
  | leaf fit => exact world.follows_node property _ _
  | nothing nothing => exact world.follows_node property _ _
  | @combined combination members site parts lined paired ih =>
      rw [asksDecision_combined]
      simp only [TreePermission.opinion_combined]
      exact site.composition.follows_combined ih
        (TreePermission.mem_coverageParts world.seen)

section Combined

variable {fits : PolicyLeaf → NodePermission PolicyDecision → Prop} {site : Site}
  {parts : List (Arrangement PolicyLeaf × TreePermission PolicyLeaf PolicyDecision)}
  (paired : ∀ part ∈ parts, part.2.Paired fits part.1)

include paired

/-- A combined decision grants permissions exactly if it has some to grant and the opinions of its
parts grant each of them together. -/
theorem grants_combined_iff (property : Option Property) (asked : Permissions) :
    (((TreePermission.combined site parts).answers world.seen).grants property asked) = true ↔
      asked ≠ ∅ ∧ ∀ i ∈ asked,
        site.composition.verdict (parts.map fun part =>
          part.2.opinion world.covers i part.1) = some true := by
  rw [grants_combined]
  exact site.composition.grants_of_follows fun part present =>
    world.follows_asksDecision (paired part present) property

/-- A read flag of a combined decision, folded from the flags of its parts: it holds exactly if the
parts that cover each of the permissions settle on it. -/
theorem fold_flag_iff (property : Option Property) (asked : Permissions)
    (flag : NodeAnswers → Bool) :
    site.fold (TreePermission.decisionParts world.seen parts) asked property
        (fun answers _ => flag answers) = true ↔
      asked ≠ ∅ ∧ ∀ i ∈ asked,
        site.composition.verdict (parts.map fun part =>
          if (part.2.opinion world.covers i part.1).isSome then
            some (flag (part.2.answers world.seen)) else none) = some true := by
  rw [TreePermission.decisionParts_eq_map]
  refine Site.fold_flag_iff (fun part present => ?_) flag
  exact (world.follows_asksDecision (paired part present) property).covers

end Combined

/-- A decision that grants nothing has no opinion in favour of anything. -/
theorem opinion_node_ne_true {permission : NodePermission PolicyDecision}
    (nothing : permission.grantsNothing = true) (arrangement : Arrangement PolicyLeaf) (i : Nat) :
    (TreePermission.node permission).opinion world.covers i arrangement ≠ some true := by
  intro granted
  have held := (world.opinion_node_eq_true.mp granted).2
  rw [NodePermission.holds_of_grantsNothing nothing] at held
  exact Bool.false_ne_true held

/-- A decision of a composite grants permissions exactly if it has some to grant and its opinion
grants each of them. -/
theorem grants_iff {fits : PolicyLeaf → NodePermission PolicyDecision → Prop}
    {combination : Combination} {members : List (Arrangement PolicyLeaf)}
    {permission : TreePermission PolicyLeaf PolicyDecision}
    (paired : permission.Paired fits (.composite combination members))
    (property : Option Property) (asked : Permissions) :
    (permission.answers world.seen).grants property asked = true ↔
      asked ≠ ∅ ∧ ∀ i ∈ asked,
        permission.opinion world.covers i (.composite combination members) = some true := by
  cases paired with
  | @nothing _ permission nothing =>
      have denied : ((TreePermission.node permission).answers world.seen).grants property asked =
          false := by
        rw [TreePermission.answers, NodePermission.answers_of_grantsNothing nothing]
        cases property <;> rfl
      rw [denied]
      simp only [Bool.false_eq_true, false_iff]
      exact Mask.not_forall_mem fun i _ => world.opinion_node_ne_true nothing _ i
  | combined lined paired =>
      simp only [TreePermission.opinion_combined]
      exact world.grants_combined_iff paired property asked

end World

end Authorization
