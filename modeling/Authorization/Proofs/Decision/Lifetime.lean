import Authorization.Proofs.Decision.Agreement
import Authorization.Proofs.World.History

/-!
# Decisions that outlive changes

A decision keeps its grants and the read flags that it was asked for, but what its providers cover
is asked anew with every question. After policies have changed, its answers are therefore the old
ones exactly if its opinions are, with the grants kept and the coverage of the moment
(`answers_after_changes`). As long as coverage stays, they never change; as long as no coverage is
lost, nothing more is granted.
-/

namespace Authorization

/-- The providers of a part of a combined decision are among those of the composite. -/
theorem TreePermission.mem_leaves_of_part {L D : Type} {combination : Combination}
    {members : List (Arrangement L)} {parts : List (Arrangement L × TreePermission L D)}
    (lined : parts.map Prod.fst = members) {part : Arrangement L × TreePermission L D}
    (present : part ∈ parts) {leaf : L} (inside : leaf ∈ part.1.leaves) :
    leaf ∈ (Arrangement.composite combination members).leaves := by
  rw [Arrangement.leaves, Arrangement.mem_leavesOfAll, ← lined]
  exact ⟨part.1, List.mem_map_of_mem present, inside⟩

namespace World

section Coverage

variable {fits : PolicyLeaf → NodePermission PolicyDecision → Prop}
  {arrangement : Arrangement PolicyLeaf} {permission : TreePermission PolicyLeaf PolicyDecision}

/-- The opinion of a decision depends on the coverage of its providers only. -/
theorem opinion_congr {covers others : PolicyLeaf → Permissions}
    (paired : permission.Paired fits arrangement)
    (same : ∀ leaf ∈ arrangement.leaves, covers leaf = others leaf) (i : Nat) :
    permission.opinion covers i arrangement = permission.opinion others i arrangement := by
  have alone {arrangement : Arrangement PolicyLeaf} (permission : NodePermission PolicyDecision)
      (same : ∀ leaf ∈ arrangement.leaves, covers leaf = others leaf) :
      (TreePermission.node permission).opinion covers i arrangement =
        (TreePermission.node permission).opinion others i arrangement := by
    have listed : (arrangement.leaves.any fun leaf => i ∈ covers leaf) =
        arrangement.leaves.any fun leaf => i ∈ others leaf := by
      rw [Bool.eq_iff_iff, List.any_eq_true, List.any_eq_true]
      exact exists_congr fun leaf => and_congr_right fun present => by rw [same leaf present]
    rw [TreePermission.opinion, TreePermission.opinion, listed]
  induction paired with
  | leaf | nothing => exact alone _ same
  | @combined combination members site parts lined paired ih =>
      rw [TreePermission.opinion_combined, TreePermission.opinion_combined]
      refine congrArg site.composition.verdict (List.map_congr_left fun part present => ?_)
      exact ih part present fun leaf inside =>
        same leaf (TreePermission.mem_leaves_of_part lined present inside)

variable {world later : World}

/-- What a decision's providers cover depends on what the single ones cover at the moment. -/
theorem coverage_congr (paired : permission.Paired fits arrangement)
    (same : ∀ leaf ∈ arrangement.leaves, later.covers leaf = world.covers leaf)
    (property : Option Property) (asked : Permissions) :
    permission.coverage later.seen property asked arrangement =
      permission.coverage world.seen property asked arrangement := by
  apply Mask.ext
  intro i
  have now : i ∈ permission.coverage later.seen property asked arrangement ↔ _ :=
    (later.follows_asksDecision paired property).covers
  have once : i ∈ permission.coverage world.seen property asked arrangement ↔ _ :=
    (world.follows_asksDecision paired property).covers
  rw [now, once, opinion_congr paired same]

/-- While no provider's coverage changes, no answer changes, whatever is remembered. -/
theorem answers_congr (paired : permission.Paired fits arrangement)
    (same : ∀ leaf ∈ arrangement.leaves, later.covers leaf = world.covers leaf) :
    permission.answers later.seen = permission.answers world.seen := by
  induction paired with
  | leaf | nothing => rfl
  | @combined combination members site parts lined paired ih =>
      rw [TreePermission.answers, TreePermission.answers, TreePermission.decisionParts_eq_map,
        TreePermission.decisionParts_eq_map]
      refine congrArg site.answers (List.map_congr_left fun part present => ?_)
      have inside : ∀ leaf ∈ part.1.leaves, later.covers leaf = world.covers leaf :=
        fun leaf member => same leaf (TreePermission.mem_leaves_of_part lined present member)
      simp only [coverage_congr (paired part present) inside, ih part present inside]

/-- While no provider loses coverage, opinions only become stricter. -/
theorem opinion_stricter (paired : permission.Paired world.Confined arrangement)
    (kept : ∀ leaf ∈ arrangement.leaves, world.covers leaf ⊆ later.covers leaf) (i : Nat) :
    Composition.Stricter (permission.opinion later.covers i arrangement)
      (permission.opinion world.covers i arrangement) := by
  have known {arrangement : Arrangement PolicyLeaf} (permission : NodePermission PolicyDecision)
      (kept : ∀ leaf ∈ arrangement.leaves, world.covers leaf ⊆ later.covers leaf) :
      ((TreePermission.node permission).opinion world.covers i arrangement).isSome →
        ((TreePermission.node permission).opinion later.covers i arrangement).isSome := by
    rw [world.opinion_node_isSome, later.opinion_node_isSome]
    rintro ⟨leaf, present, covered⟩
    exact ⟨leaf, present, Mask.subset_iff.mp (kept leaf present) i covered⟩
  induction paired with
  | @leaf provider permission fit =>
      refine ⟨known permission kept, fun granted => ?_⟩
      obtain ⟨-, held⟩ := later.opinion_node_eq_true.mp granted
      refine world.opinion_node_eq_true.mpr ⟨?_, held⟩
      exact world.opinion_node_isSome.mpr ⟨provider, by simp [Arrangement.leaves], fit i held⟩
  | @nothing arrangement permission nothing =>
      refine ⟨known permission kept, fun granted => ?_⟩
      exact absurd granted (later.opinion_node_ne_true nothing arrangement i)
  | @combined combination members site parts lined paired ih =>
      rw [TreePermission.opinion_combined, TreePermission.opinion_combined]
      refine .verdict site.composition fun part present => ?_
      exact ih part present fun leaf inside =>
        kept leaf (TreePermission.mem_leaves_of_part lined present inside)

end Coverage

section Unchanged

variable {world : World} {combination : Combination} {members : List (Arrangement PolicyLeaf)}
  {permission : TreePermission PolicyLeaf PolicyDecision}
  (paired : permission.Paired world.Confined (.composite combination members)) (later : World)

include paired

/-- Permissions are granted as before exactly if every single one is. -/
theorem grants_unchanged_iff :
    (∀ property asked, (permission.answers later.seen).grants property asked =
        (permission.answers world.seen).grants property asked) ↔
      ∀ i < 64, (permission.opinion later.covers i (.composite combination members) = some true ↔
        permission.opinion world.covers i (.composite combination members) = some true) := by
  constructor
  · intro unchanged i bit
    have single := unchanged none (.single i)
    rw [Bool.eq_iff_iff, later.grants_iff paired, world.grants_iff paired,
      Mask.single_forall_iff bit, Mask.single_forall_iff bit] at single
    exact single
  · intro same property asked
    rw [Bool.eq_iff_iff, later.grants_iff paired, world.grants_iff paired]
    refine and_congr_right fun _ => forall₂_congr fun i member => ?_
    exact same i (Mask.lt_of_mem member)

/-- A decision that remembers nothing answers as before exactly if every single permission is
granted as before and reading everything below is. -/
theorem answers_forget_unchanged_iff :
    permission.forget.answers later.seen = permission.forget.answers world.seen ↔
      (∀ i < 64, (permission.opinion later.covers i (.composite combination members) = some true ↔
        permission.opinion world.covers i (.composite combination members) = some true)) ∧
      (permission.forget.answers later.seen).canReadAll =
        (permission.forget.answers world.seen).canReadAll := by
  have forgotten := paired.of_forget permission.forget_forget
  have now := later.reads_of_composite forgotten (permission.truthful_forget later.seen)
  have once := world.reads_of_composite forgotten (permission.truthful_forget world.seen)
  have granted := grants_unchanged_iff forgotten later
  simp only [TreePermission.opinion_forget] at now once granted
  rw [← granted]
  constructor
  · intro unchanged
    simp only [unchanged, implies_true, and_self]
  · rintro ⟨same, all⟩
    have single := granted.mp same
    refine NodeAnswers.ext ?_ ?_ all ?_ ?_ ?_
    · rw [Bool.eq_iff_iff, now.canRead trivial, once.canRead trivial]
      exact single 0 (by decide)
    · funext property
      rw [Bool.eq_iff_iff, now.canReadProperty property trivial,
        once.canReadProperty property trivial]
      exact single 1 (by decide)
    · rw [Bool.eq_iff_iff, now.canReadProperties trivial, once.canReadProperties trivial]
      exact single 1 (by decide)
    · funext asked
      exact same none asked
    · funext asked property
      exact same (some property) asked

/-- A decision that was asked for all its read flags answers as before exactly if every single
permission is granted as before and every property is as readable. -/
theorem answers_remember_unchanged_iff :
    let remembering := permission.remember world.seen
    remembering.answers later.seen = remembering.answers world.seen ↔
      (∀ i < 64, (permission.opinion later.covers i (.composite combination members) = some true ↔
        permission.opinion world.covers i (.composite combination members) = some true)) ∧
      ∀ property, (remembering.answers later.seen).canReadProperty property =
        (remembering.answers world.seen).canReadProperty property := by
  intro remembering
  have same : remembering.forget = permission.forget := TreePermission.forget_remember
  have granted := grants_unchanged_iff (paired.of_forget same) later
  simp only [TreePermission.opinion_of_forget same] at granted
  rw [← granted]
  constructor
  · intro unchanged
    simp only [unchanged, implies_true, and_self]
  · rintro ⟨same, single⟩
    refine NodeAnswers.ext ?_ (funext single) ?_ ?_ ?_ ?_
    · exact (TreePermission.canRead_remember later).trans
        (TreePermission.canRead_remember world).symm
    · exact (TreePermission.canReadAll_remember later).trans
        (TreePermission.canReadAll_remember world).symm
    · exact (TreePermission.canReadProperties_remember later).trans
        (TreePermission.canReadProperties_remember world).symm
    · funext asked
      exact same none asked
    · funext asked property
      exact same (some property) asked

end Unchanged

/-- **Decisions after changes.** A decision reached by walking is asked again after policies were
staged, content was published and providers were refreshed. It then grants what its opinion grants
with the grants kept and the coverage of the moment; so it grants as before exactly if this grants
every single permission as before. The same decides about all answers, up to reading everything
below if no read flag was asked for, and up to reading single properties if all were. Nothing
changes while coverage stays, and nothing more is granted while no coverage is lost. -/
theorem answers_after_changes {world : World} {combination : Combination}
    {members : List (Arrangement PolicyLeaf)} {names : List String}
    {permission : TreePermission PolicyLeaf PolicyDecision}
    (walked : Walked world combination members names permission) (changes : List Change) :
    let arrangement := Arrangement.composite combination members
    let later := world.after changes
    let before := permission.answers world.seen
    let after := permission.answers later.seen
    let granted (moment : World) (i : Nat) : Prop :=
      permission.opinion moment.covers i arrangement = some true
    (∀ property asked, after.grants property asked = true ↔
      asked ≠ ∅ ∧ ∀ i ∈ asked, granted later i) ∧
    ((∀ property asked, after.grants property asked = before.grants property asked) ↔
      ∀ i < 64, (granted later i ↔ granted world i)) ∧
    (permission.forget.answers later.seen = before ↔
      (∀ i < 64, (granted later i ↔ granted world i)) ∧
        (permission.forget.answers later.seen).canReadAll = before.canReadAll) ∧
    ((permission.remember world.seen).answers later.seen = before ↔
      (∀ i < 64, (granted later i ↔ granted world i)) ∧
        ∀ property, ((permission.remember world.seen).answers later.seen).canReadProperty property =
          before.canReadProperty property) ∧
    ((∀ leaf ∈ arrangement.leaves, later.covers leaf = world.covers leaf) → after = before) ∧
    ((∀ leaf ∈ arrangement.leaves, world.Steady leaf.id world ∧
      ∀ change ∈ changes, change.KeepsCoverage world leaf.id) → after = before) ∧
    ((∀ leaf ∈ arrangement.leaves, world.covers leaf ⊆ later.covers leaf) →
      ∀ property asked, after.grants property asked = true →
        before.grants property asked = true) := by
  intro arrangement later before after granted
  obtain ⟨paired, truthful⟩ := walked.kept
  have forgetting : permission.forget.answers world.seen = before := truthful.answers_forget
  have remembering : (permission.remember world.seen).answers world.seen = before :=
    truthful.answers_congr truthful.remember TreePermission.forget_remember
  refine ⟨later.grants_iff paired, grants_unchanged_iff paired later, ?_, ?_, answers_congr paired,
    ?_, ?_⟩
  · rw [← forgetting]
    exact answers_forget_unchanged_iff paired later
  · rw [← remembering]
    exact answers_remember_unchanged_iff paired later
  · intro steady
    refine answers_congr paired fun leaf present => ?_
    obtain ⟨start, keeps⟩ := steady leaf present
    exact (start.after keeps).inForce
  · intro kept property asked
    rw [later.grants_iff paired, world.grants_iff paired]
    rintro ⟨filled, all⟩
    exact ⟨filled, fun i member => (opinion_stricter paired kept i).grants (all i member)⟩

/-- A provider is refreshed with a policy of the same coverage that grants nothing any more. A
decision made before still lets everything be read. -/
theorem reading_granted_after_refresh :
    let world := World.initial none fun _ => ({ covers := .read } : Policy).allow "/" .read
    let combination := Combination.plain 0 .and
    let members : List (Arrangement PolicyLeaf) := [.leaf (.plain 0)]
    let arrangement := Arrangement.composite combination members
    let permission := (arrangement.treePermission world.seen (.root none) .empty).run
    let later := world.after [.stage 0 { covers := .read }, .refresh arrangement]
    ((arrangement.provider later.seen).isGranted (.root none) none .read).run = false ∧
      (permission.answers later.seen).isGranted .read = true ∧
      permission.answers later.seen = permission.answers world.seen := by
  intro world combination members arrangement permission later
  have walked : Walked world combination members [] permission := .root (by decide) .empty
  obtain ⟨-, -, -, -, -, steadily, -⟩ :=
    answers_after_changes walked [.stage 0 { covers := .read }, .refresh arrangement]
  have same : permission.answers later.seen = permission.answers world.seen := by
    refine steadily fun leaf present => ⟨⟨rfl, by rintro policy ⟨⟩⟩, ?_⟩
    obtain rfl := List.mem_singleton.mp present
    intro change listed
    rcases List.mem_pair.mp listed with rfl | rfl
    · exact fun _ => rfl
    · trivial
  refine ⟨by decide, ?_, same⟩
  rw [same]
  decide

/-- A decision that grants what no policies grant: of two providers that cover reading, one denies
it when the decision is made; afterwards that one covers nothing and the other grants nothing. The
decision now grants reading, unless its read flags were asked for before. -/
theorem reading_granted_after_coverage_lost :
    let world := World.initial none fun
      | 0 => ({ covers := .read } : Policy).allow "/" .read
      | _ => { covers := .read }
    let combination := Combination.plain 0 .and
    let members : List (Arrangement PolicyLeaf) := [.leaf (.plain 0), .leaf (.plain 1)]
    let arrangement := Arrangement.composite combination members
    let permission := (arrangement.treePermission world.seen (.root none) .empty).run
    let later := world.after
      [.stage 1 { covers := ∅ }, .stage 0 { covers := .read }, .refresh arrangement]
    Walked world combination members [] permission ∧
      ((arrangement.provider world.seen).isGranted (.root none) none .read).run = false ∧
      ((arrangement.provider later.seen).isGranted (.root none) none .read).run = false ∧
      (permission.answers world.seen).isGranted .read = false ∧
      (permission.answers later.seen).isGranted .read = true ∧
      (permission.answers later.seen).canRead = true ∧
      ((permission.remember world.seen).answers later.seen).canRead = false := by
  intro world combination members arrangement permission later
  have walked : Walked world combination members [] permission := .root (by decide) .empty
  refine ⟨walked, ?_, ?_, ?_, ?_, ?_, ?_⟩ <;> decide

end World

end Authorization
