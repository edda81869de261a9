import Authorization.Mask.Vocabulary

/-!
# Masks

A mask is a set of bits, each standing for one capability of a vocabulary. Masks are read as sets:
`mem_union`, `mem_inter` and `mem_sdiff` say which bits the operations hold, and `ext` that masks
with the same bits are equal. Bits that the vocabulary does not declare may be present; only
`declaredPart` and `withoutDeclared` drop them.
-/

namespace Authorization

/-- A set of up to sixty-four capabilities of a vocabulary. -/
structure Mask (v : Vocabulary) where
  bits : BitVec 64
  deriving DecidableEq

namespace Mask

variable {v : Vocabulary}

instance : EmptyCollection (Mask v) := ⟨⟨0⟩⟩
instance : Inhabited (Mask v) := ⟨∅⟩
instance : Union (Mask v) := ⟨fun a b => ⟨a.bits ||| b.bits⟩⟩
instance : Inter (Mask v) := ⟨fun a b => ⟨a.bits &&& b.bits⟩⟩
instance : SDiff (Mask v) := ⟨fun a b => ⟨a.bits &&& ~~~b.bits⟩⟩
instance : Membership Nat (Mask v) := ⟨fun mask i => mask.bits.getLsbD i = true⟩
instance : HasSubset (Mask v) := ⟨fun a b => a ∩ b = a⟩

instance (i : Nat) (mask : Mask v) : Decidable (i ∈ mask) :=
  inferInstanceAs (Decidable (mask.bits.getLsbD i = true))

instance (a b : Mask v) : Decidable (a ⊆ b) :=
  inferInstanceAs (Decidable (a ∩ b = a))

/-- Whether a mask holds no bit. -/
def isEmpty (mask : Mask v) : Bool := mask == ∅

/-- The mask of one bit. -/
def single (i : Nat) : Mask v := ⟨BitVec.twoPow 64 i⟩

/-- The masks of the single bits of a mask, in ascending order. -/
def singles (mask : Mask v) : List (Mask v) :=
  ((List.range 64).filter (· ∈ mask)).map single

/-- The mask of all flags. -/
def declared : Mask v := ⟨v.declared⟩

/-- The bits of a mask that flags declare. -/
def declaredPart (mask : Mask v) : Mask v := mask ∩ declared

/-- The declared capabilities of one mask that another does not hold. -/
def withoutDeclared (mask other : Mask v) : Mask v := (mask \ other) ∩ declared

theorem mem_def {i : Nat} {mask : Mask v} : i ∈ mask ↔ mask.bits.getLsbD i = true := Iff.rfl

theorem lt_of_mem {i : Nat} {mask : Mask v} (member : i ∈ mask) : i < 64 :=
  BitVec.lt_of_getLsbD member

@[simp] theorem notMem_empty (i : Nat) : i ∉ (∅ : Mask v) := by
  simp [mem_def, EmptyCollection.emptyCollection]

@[simp] theorem mem_union {i : Nat} {a b : Mask v} : i ∈ a ∪ b ↔ i ∈ a ∨ i ∈ b := by
  simp [mem_def, Union.union]

@[simp] theorem mem_inter {i : Nat} {a b : Mask v} : i ∈ a ∩ b ↔ i ∈ a ∧ i ∈ b := by
  simp [mem_def, Inter.inter]

@[simp] theorem mem_sdiff {i : Nat} {a b : Mask v} : i ∈ a \ b ↔ i ∈ a ∧ i ∉ b := by
  simp only [mem_def, SDiff.sdiff, BitVec.getLsbD_and, BitVec.getLsbD_not, Bool.and_eq_true,
    decide_eq_true_eq, Bool.not_eq_true', Bool.not_eq_true]
  exact ⟨fun held => ⟨held.1, held.2.2⟩, fun held => ⟨held.1, BitVec.lt_of_getLsbD held.1, held.2⟩⟩

/-- The only bit of a single mask is its own, if that is a bit at all. -/
theorem mem_single {i j : Nat} : i ∈ (single j : Mask v) ↔ i = j ∧ j < 64 := by
  simp only [mem_def, single, BitVec.getLsbD_twoPow, Bool.and_eq_true, decide_eq_true_eq]
  exact ⟨fun held => ⟨held.2.symm, held.1⟩, fun held => ⟨held.2, held.1.symm⟩⟩

/-- Masks with the same bits are equal. -/
theorem ext {a b : Mask v} (same : ∀ i, i ∈ a ↔ i ∈ b) : a = b := by
  cases a
  cases b
  congr 1
  apply BitVec.eq_of_getLsbD_eq
  intro i _
  exact Bool.eq_iff_iff.mpr (same i)

/-- A mask is within another if all its bits are. -/
theorem subset_iff {a b : Mask v} : a ⊆ b ↔ ∀ i, i ∈ a → i ∈ b := by
  change a ∩ b = a ↔ _
  constructor
  · intro same i member
    rw [← same] at member
    exact (mem_inter.mp member).2
  · intro within
    apply ext
    intro i
    simp only [mem_inter]
    exact ⟨And.left, fun member => ⟨member, within i member⟩⟩

theorem subset_refl (a : Mask v) : a ⊆ a := subset_iff.mpr fun _ => id

theorem subset_trans {a b c : Mask v} (first : a ⊆ b) (second : b ⊆ c) : a ⊆ c :=
  subset_iff.mpr fun i member => subset_iff.mp second i (subset_iff.mp first i member)

theorem sdiff_subset (a b : Mask v) : a \ b ⊆ a :=
  subset_iff.mpr fun _ member => (mem_sdiff.mp member).1

theorem subset_sdiff {a b c : Mask v} (within : a ⊆ b) (apart : ∀ i ∈ c, i ∉ a) : a ⊆ b \ c :=
  subset_iff.mpr fun i member =>
    mem_sdiff.mpr ⟨subset_iff.mp within i member, fun other => apart i other member⟩

/-- A mask is empty if it has no bit. -/
theorem isEmpty_iff {mask : Mask v} : mask.isEmpty = true ↔ ∀ i, i ∉ mask := by
  simp only [isEmpty, beq_iff_eq]
  constructor
  · rintro rfl i
    exact notMem_empty i
  · intro bare
    apply ext
    intro i
    simp [bare i]

theorem isEmpty_eq_false_iff {mask : Mask v} : mask.isEmpty = false ↔ mask ≠ ∅ := by
  simp [isEmpty]

/-- A mask other than the empty one holds a bit. -/
theorem ne_empty_iff {mask : Mask v} : mask ≠ ∅ ↔ ∃ i, i ∈ mask := by
  rw [← isEmpty_eq_false_iff, ← Bool.not_eq_true, isEmpty_iff]
  simp

theorem single_mem {i : Nat} {mask : Mask v} (member : i ∈ mask) : i ∈ (single i : Mask v) :=
  mem_single.mpr ⟨rfl, lt_of_mem member⟩

theorem single_ne_empty {i : Nat} {mask : Mask v} (member : i ∈ mask) :
    (single i : Mask v) ≠ ∅ :=
  ne_empty_iff.mpr ⟨i, single_mem member⟩

theorem eq_of_mem_single {i j : Nat} (member : j ∈ (single i : Mask v)) : j = i :=
  (mem_single.mp member).1

theorem not_forall_mem {mask : Mask v} {holds : Nat → Prop} (never : ∀ i ∈ mask, ¬ holds i) :
    ¬ (mask ≠ ∅ ∧ ∀ i ∈ mask, holds i) := by
  rintro ⟨filled, all⟩
  obtain ⟨i, member⟩ := ne_empty_iff.mp filled
  exact never i member (all i member)

/-- What holds of all bits in the mask of one bit holds of that bit, and the mask is not empty. -/
theorem single_forall_iff {i : Nat} (bit : i < 64) {holds : Nat → Prop} :
    ((single i : Mask v) ≠ ∅ ∧ ∀ j ∈ (single i : Mask v), holds j) ↔ holds i := by
  have member : i ∈ (single i : Mask v) := mem_single.mpr ⟨rfl, bit⟩
  constructor
  · rintro ⟨-, all⟩
    exact all i member
  · intro held
    refine ⟨single_ne_empty member, fun j inside => ?_⟩
    rw [eq_of_mem_single inside]
    exact held

theorem single_subset {i : Nat} {mask : Mask v} (member : i ∈ mask) : single i ⊆ mask := by
  apply subset_iff.mpr
  intro j inside
  rw [eq_of_mem_single inside]
  exact member

/-- The mask of a bit is within a mask if the bit is in it. -/
theorem single_subset_iff {i : Nat} {mask : Mask v} (bit : i < 64) : single i ⊆ mask ↔ i ∈ mask :=
  ⟨fun within => subset_iff.mp within i (mem_single.mpr ⟨rfl, bit⟩), single_subset⟩

/-- The single masks of a mask are those of its bits. -/
theorem mem_singles {part mask : Mask v} :
    part ∈ mask.singles ↔ ∃ i, i ∈ mask ∧ part = single i := by
  simp only [singles, List.mem_map, List.mem_filter, List.mem_range, decide_eq_true_eq]
  constructor
  · rintro ⟨i, ⟨_, member⟩, rfl⟩
    exact ⟨i, member, rfl⟩
  · rintro ⟨i, member, rfl⟩
    exact ⟨i, ⟨lt_of_mem member, member⟩, rfl⟩

@[simp] theorem mem_declaredPart {i : Nat} {mask : Mask v} :
    i ∈ mask.declaredPart ↔ i ∈ mask ∧ i ∈ (declared : Mask v) := mem_inter

@[simp] theorem mem_withoutDeclared {i : Nat} {mask other : Mask v} :
    i ∈ mask.withoutDeclared other ↔ (i ∈ mask ∧ i ∉ other) ∧ i ∈ (declared : Mask v) := by
  simp [withoutDeclared]

end Mask

end Authorization
