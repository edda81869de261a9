import Authorization.Proofs.Privileges.Agreement

/-!
# Flattening

Composites of one composition may be nested in each other or not: what an arrangement of them thinks
is what its single providers think together (`opinion_uniform`). So the composite over these alone
covers and answers the same when it is asked directly. Permissions are put to nested composites as
they are, but privileges by name, which takes catalogues that read back what they write.
-/

namespace Authorization

/-- Combinations that may differ in their number and their catalogue of privileges only. -/
structure Combination.Alike (first second : Combination) : Prop where
  composition : first.composition = second.composition
  context : first.context = second.context
  classify : first.classify = second.classify

namespace Arrangement

variable {L : Type}

/-- The composite that combines the single providers of an arrangement alone, from left to right. -/
def flatten (combination : Combination) (arrangement : Arrangement L) : Arrangement L :=
  .composite combination (arrangement.leaves.map .leaf)

theorem leavesOfAll_eq_flatMap (members : List (Arrangement L)) :
    leavesOfAll members = members.flatMap leaves := by
  induction members with
  | nil => rfl
  | cons member members ih => rw [leavesOfAll, ih, List.flatMap_cons]

variable {combination : Combination} {arrangement : Arrangement L} {single : L → Option Bool}

/-- A flattened arrangement has the same single providers. -/
theorem leaves_flatten : (arrangement.flatten combination).leaves = arrangement.leaves := by
  rw [flatten, leaves, leavesOfAll_eq_flatMap, List.flatMap_map]
  exact List.flatMap_singleton' _

theorem combinations_flatten :
    (arrangement.flatten combination).combinations = [combination] := by
  rw [flatten, combinations, List.cons_eq_cons]
  refine ⟨rfl, List.eq_nil_iff_forall_not_mem.mpr fun inner listed => ?_⟩
  obtain ⟨member, present, inside⟩ := mem_combinationsOfAll.mp listed
  obtain ⟨leaf, -, rfl⟩ := List.mem_map.mp present
  exact absurd inside List.not_mem_nil

/-- Composites of one composition think what their single providers think together. -/
theorem opinion_uniform {composition : Composition}
    (uniform : ∀ inner ∈ arrangement.combinations, inner.composition = composition) :
    arrangement.opinion single = composition.verdict (arrangement.leaves.map single) := by
  induction arrangement with
  | empty => cases composition <;> rfl
  | leaf provider => exact (composition.verdict_singleton _).symm
  | composite combination members ih =>
      obtain ⟨here, within⟩ := forall_combinations.mp uniform
      rw [opinion_composite, here, leaves, leavesOfAll_eq_flatMap, composition.verdict_flatMap]
      exact congrArg _ (List.map_congr_left fun member present =>
        ih member present (within member present))

variable (alike : ∀ inner ∈ arrangement.combinations, inner.Alike combination)

include alike

/-- The single providers of an arrangement think together what the arrangement thinks. -/
theorem opinion_flatten :
    (arrangement.flatten combination).opinion single = arrangement.opinion single := by
  have flat : ∀ inner ∈ (arrangement.flatten combination).combinations,
      inner.composition = combination.composition := by
    rw [combinations_flatten]
    exact List.forall_mem_singleton.mpr rfl
  rw [opinion_uniform fun inner listed => (alike inner listed).composition, opinion_uniform flat,
    leaves_flatten]

end Arrangement

namespace World

open Arrangement (flatten opinion_flatten leaves_flatten combinations_flatten)

variable (world : World)

/-- An arrangement covers what one of its single providers does. -/
theorem mem_covers {arrangement : Arrangement PolicyLeaf} {tree : Option Tree}
    {property : Option Property} {asked : Permissions} {i : Nat} :
    i ∈ (arrangement.provider world.seen).covers tree property asked ↔
      i ∈ asked ∧ ∃ leaf ∈ arrangement.leaves, i ∈ (world.policy leaf).covers := by
  induction arrangement with
  | empty => simp [Arrangement.provider, Provider.empty, Arrangement.leaves]
  | leaf provider =>
      simp [Arrangement.provider, seen, snapshot, PolicyLeaf.provider, policy, Arrangement.leaves]
  | composite combination members ih =>
      rw [Arrangement.provider_composite, Arrangement.leaves]
      simp only [Combination.provider, List.foldl_map, Mask.mem_foldl_union,
        Arrangement.mem_leavesOfAll]
      constructor
      · rintro ⟨member, present, inside⟩
        obtain ⟨wanted, leaf, below, covered⟩ := (ih member present).mp inside
        exact ⟨wanted, leaf, ⟨member, present, below⟩, covered⟩
      · rintro ⟨wanted, leaf, ⟨member, present, below⟩, covered⟩
        exact ⟨member, present, (ih member present).mpr ⟨wanted, leaf, below, covered⟩⟩

section Same

variable {world} {first second : Arrangement PolicyLeaf}

/-- What is covered at trees depends on the single providers only. -/
theorem covers_eq (same : first.leaves = second.leaves) :
    (first.provider world.seen).covers = (second.provider world.seen).covers := by
  funext tree property asked
  apply Mask.ext
  intro i
  rw [mem_covers, mem_covers, same]

variable (same : ∀ single, first.opinion single = second.opinion single)

include same

theorem coversAt_eq :
    (first.provider world.seen).coversAt = (second.provider world.seen).coversAt := by
  funext location asked
  apply Mask.ext
  intro i
  have covered : i ∈ (first.provider world.seen).coversAt location asked ↔ _ :=
    (world.follows_asksLocation first location).covers
  rw [covered, same]
  exact (world.follows_asksLocation second location).covers.symm

theorem coversPrivileges_eq :
    (first.provider world.seen).coversPrivileges =
      (second.provider world.seen).coversPrivileges := by
  funext tree asked
  apply Mask.ext
  intro i
  rw [mem_coversPrivileges, mem_coversPrivileges, same]

/-- Arrangements that think the same list the same privileges. -/
theorem privileges_eq (builtIn : first.BuiltIn) (translates : second.BuiltIn) :
    (first.provider world.seen).privileges = (second.provider world.seen).privileges := by
  funext tree
  apply Id.ext
  obtain ⟨listed, written, granted⟩ := (world.lists_provider tree builtIn).listed
  obtain ⟨other, told, holds⟩ := (world.lists_provider tree translates).listed
  have equal : listed = other := by
    apply Mask.ext
    intro i
    rw [granted, holds, same]
  rw [written, told, equal]

end Same

variable {world} {combination flat : Combination} {members : List (Arrangement PolicyLeaf)}

section Direct

variable {nested : Arrangement PolicyLeaf}

theorem covers_flatten :
    ((nested.flatten flat).provider world.seen).covers =
      (nested.provider world.seen).covers :=
  covers_eq leaves_flatten

variable (alike : ∀ inner ∈ nested.combinations, inner.Alike flat)

include alike

theorem coversAt_flatten :
    ((nested.flatten flat).provider world.seen).coversAt =
      (nested.provider world.seen).coversAt :=
  coversAt_eq fun _ => opinion_flatten alike

theorem coversPrivileges_flatten :
    ((nested.flatten flat).provider world.seen).coversPrivileges =
      (nested.provider world.seen).coversPrivileges :=
  coversPrivileges_eq fun _ => opinion_flatten alike

end Direct

variable (alike : ∀ inner ∈ (Arrangement.composite combination members).combinations,
  inner.Alike flat)

include alike

/-- Flattening does not change what is granted at trees. -/
theorem isGranted_flatten :
    (((Arrangement.composite combination members).flatten flat).provider world.seen).isGranted =
      ((Arrangement.composite combination members).provider world.seen).isGranted := by
  funext tree property asked
  apply Id.ext
  rw [Bool.eq_iff_iff, world.isGranted_iff combination]
  simp only [← opinion_flatten alike]
  exact world.isGranted_iff flat _ tree property asked

theorem isGrantedAt_flatten :
    (((Arrangement.composite combination members).flatten flat).provider world.seen).isGrantedAt =
      ((Arrangement.composite combination members).provider world.seen).isGrantedAt := by
  funext location asked
  apply Id.ext
  rw [Bool.eq_iff_iff, world.isGrantedAt_iff combination]
  simp only [← opinion_flatten alike]
  exact world.isGrantedAt_iff flat _ location asked

/-- A path is looked up in the content that the outermost composite sees. -/
theorem isGrantedPath_flatten (content : world.roots combination.id = world.roots flat.id) :
    (((Arrangement.composite combination members).flatten flat).provider
        world.seen).isGrantedPath =
      ((Arrangement.composite combination members).provider world.seen).isGrantedPath := by
  have same := alike combination List.mem_cons_self
  funext text actions
  apply ExceptT.ext
  apply Id.ext
  rw [world.isGrantedPath_run combination members text actions, content, same.context,
    ← isGrantedAt_flatten alike]
  exact world.isGrantedPath_run flat _ text actions

/-- Flattening does not change what is decided about the repository. -/
theorem repository_flatten :
    (((Arrangement.composite combination members).flatten flat).repository
        world.seen).run.isGranted world.seen =
      ((Arrangement.composite combination members).repository world.seen).run.isGranted
        world.seen := by
  funext asked
  apply Id.ext
  rw [Bool.eq_iff_iff, world.repository_isGranted_iff combination]
  simp only [← opinion_flatten alike]
  exact world.repository_isGranted_iff flat _ asked

section Privileges

variable (builtIn : (Arrangement.composite combination members).BuiltIn)
  (translates : flat.catalogue = .builtin)

omit alike in
include translates in
theorem builtIn_flatten (arrangement : Arrangement PolicyLeaf) :
    (arrangement.flatten flat).BuiltIn := by
  rw [Arrangement.BuiltIn, combinations_flatten]
  exact List.forall_mem_singleton.mpr translates

include builtIn translates

theorem hasPrivileges_flatten :
    (((Arrangement.composite combination members).flatten flat).provider
        world.seen).hasPrivileges =
      ((Arrangement.composite combination members).provider world.seen).hasPrivileges := by
  funext tree names
  cases read : PrivilegeBits.ofNames names ∅ with
  | error first =>
      rw [hasPrivileges_unknown (builtIn combination List.mem_cons_self) read]
      exact hasPrivileges_unknown translates read
  | ok requested =>
      obtain ⟨answer, given, verdict⟩ := world.hasPrivileges_eq tree builtIn read
      obtain ⟨other, told, holds⟩ := world.hasPrivileges_eq tree
        (builtIn_flatten translates (.composite combination members)) read
      have same : other = answer := by
        rw [Bool.eq_iff_iff, verdict]
        simp only [← opinion_flatten alike]
        exact holds
      rw [given, ← same]
      exact told

theorem privileges_flatten :
    (((Arrangement.composite combination members).flatten flat).provider world.seen).privileges =
      ((Arrangement.composite combination members).provider world.seen).privileges :=
  privileges_eq (fun _ => opinion_flatten alike) (builtIn_flatten translates _) builtIn

end Privileges

end World

end Authorization
