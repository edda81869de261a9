import Mathlib.Combinatorics.Enumerative.DoubleCounting
import Authorization.Proofs.Privileges.Translation

/-!
# Writing privileges with few names

Of any two entries of the name table, the later one is part of the earlier one or shares nothing
with it (`nested_names`). So the entries that are taken off a set of privileges one after the other
exclude each other (`pairwise_taken`), and every entry within the set is part of one that is taken
(`exists_taken_above`). The names are therefore read back as the declared privileges
(`ofNames_toNames`), and whoever writes these with other names needs at least as many
(`written_shortest`).
-/

namespace Authorization.PrivilegeBits

/-- The entries of a table that are taken off what remains, one after the other. -/
def taken : List (String × PrivilegeBits) → PrivilegeBits → List (String × PrivilegeBits)
  | [], _ => []
  | entry :: table, remaining =>
    if !remaining.isEmpty && entry.2 ⊆ remaining then entry :: taken table (remaining \ entry.2)
    else taken table remaining

/-- Whether each entry of a table is part of every earlier one, or shares nothing with it. -/
def Nested (table : List (String × PrivilegeBits)) : Prop :=
  table.Pairwise fun earlier later => later.2 ⊆ earlier.2 ∨ later.2 ∩ earlier.2 = ∅

theorem nested_names : Nested names := by
  unfold Nested
  decide +kernel

section Table

variable {table : List (String × PrivilegeBits)} {remaining : PrivilegeBits}
  {entry : String × PrivilegeBits}

theorem cover_eq_map : cover table remaining = (taken table remaining).map Prod.fst := by
  induction table generalizing remaining with
  | nil => rfl
  | cons entry table ih =>
      rw [cover, taken]
      split
      · rw [ih, List.map_cons]
      · exact ih

/-- Names are taken in the order of the table. -/
theorem taken_sublist : (taken table remaining).Sublist table := by
  induction table generalizing remaining with
  | nil => exact .slnil
  | cons entry table ih =>
      rw [taken]
      split
      · exact ih.cons_cons entry
      · exact ih.cons entry

/-- Only names are taken whose bits are all still to be covered. -/
theorem subset_of_mem_taken (member : entry ∈ taken table remaining) : entry.2 ⊆ remaining := by
  induction table generalizing remaining with
  | nil => exact absurd member List.not_mem_nil
  | cons first table ih =>
      rw [taken] at member
      split at member
      · rename_i fits
        rcases List.mem_cons.mp member with rfl | later
        · exact (by simpa using fits : _ ∧ _).2
        · exact Mask.subset_trans (ih later) (Mask.sdiff_subset ..)
      · exact ih member

/-- What has been taken off does not remain. -/
theorem pairwise_taken :
    (taken table remaining).Pairwise fun first second => ∀ i ∈ first.2, i ∉ second.2 := by
  induction table generalizing remaining with
  | nil => exact .nil
  | cons entry table ih =>
      rw [taken]
      split
      · refine List.pairwise_cons.mpr ⟨fun later member i inside held => ?_, ih⟩
        have left := Mask.subset_iff.mp (subset_of_mem_taken member) i held
        exact (Mask.mem_sdiff.mp left).2 inside
      · exact ih

/-- No bit is covered twice. -/
theorem eq_of_mem_taken {other : String × PrivilegeBits} {i : Nat}
    (member : entry ∈ taken table remaining) (present : other ∈ taken table remaining)
    (inside : i ∈ entry.2) (held : i ∈ other.2) : entry = other := by
  have : Std.Symm fun first second : String × PrivilegeBits => ∀ i ∈ first.2, i ∉ second.2 :=
    ⟨fun _ _ apart i inside held => apart i held inside⟩
  by_contra different
  exact pairwise_taken.forall member present different i inside held

/-- Of a table of nested entries, those that fit into what remains are part of entries that are
taken. -/
theorem exists_taken_above (nested : Nested table) (listed : entry ∈ table)
    (within : entry.2 ⊆ remaining) (filled : entry.2 ≠ ∅) :
    ∃ above ∈ taken table remaining, entry.2 ⊆ above.2 := by
  induction table generalizing remaining with
  | nil => exact absurd listed List.not_mem_nil
  | cons first table ih =>
      obtain ⟨later, nested⟩ := List.pairwise_cons.mp nested
      rw [taken]
      rcases List.mem_cons.mp listed with rfl | listed
      · obtain ⟨i, inside⟩ := Mask.ne_empty_iff.mp filled
        have some : remaining.isEmpty = false := Mask.isEmpty_eq_false_iff.mpr
          (Mask.ne_empty_iff.mpr ⟨i, Mask.subset_iff.mp within i inside⟩)
        rw [if_pos (by simp [some, within])]
        exact ⟨entry, List.mem_cons_self, Mask.subset_refl _⟩
      · split
        · rcases later entry listed with part | apart
          · exact ⟨first, List.mem_cons_self, part⟩
          · have left : entry.2 ⊆ remaining \ first.2 :=
              Mask.subset_sdiff within fun i held inside =>
                Mask.notMem_empty i (apart ▸ Mask.mem_inter.mpr ⟨inside, held⟩)
            obtain ⟨above, member, part⟩ := ih nested listed left
            exact ⟨above, List.mem_cons_of_mem _ member, part⟩
        · exact ih nested listed within

end Table

variable {privileges : PrivilegeBits}

/-- A name is written if its entry is taken. -/
theorem mem_toNames {name : String} :
    name ∈ toNames privileges ↔ ∃ entry ∈ taken names privileges, entry.1 = name := by
  rw [toNames, Dictionary.mem_distinct, cover_eq_map, List.mem_map]

/-- Privileges that are written out as names are read back, those without names left out. -/
theorem ofNames_toNames_eq (privileges : PrivilegeBits) :
    ofNames (toNames privileges) ∅ = .ok privileges.declaredPart := by
  have written {name : String} (listed : name ∈ toNames privileges) :
      ∃ bits, ofName? name = some bits ∧ bits ⊆ privileges ∧ bits ⊆ Mask.declared := by
    obtain ⟨entry, member, rfl⟩ := mem_toNames.mp listed
    have present := taken_sublist.subset member
    exact ⟨entry.2, ofName?_of_mem entry present, subset_of_mem_taken member,
      subset_declared_of_mem_names entry present⟩
  rw [ofNames_eq_ok_iff]
  constructor
  · intro name listed
    obtain ⟨bits, known, -⟩ := written listed
    rw [known]
    rfl
  · refine Mask.ext fun i => mem_meaningOf.trans (Iff.trans ?_ Mask.mem_declaredPart.symm)
    constructor
    · rintro ⟨name, listed, bits, known, inside⟩
      obtain ⟨other, same, held, declared⟩ := written listed
      rw [Option.some.inj (known.symm.trans same)] at inside
      exact ⟨Mask.subset_iff.mp held i inside, Mask.subset_iff.mp declared i inside⟩
    · rintro ⟨held, declared⟩
      obtain ⟨entry, listed, alone⟩ := exists_name_of_single i (Mask.mem_declared.mp declared)
      have within : entry.2 ⊆ privileges := alone ▸ Mask.single_subset held
      obtain ⟨above, member, part⟩ := exists_taken_above nested_names listed within
        (ne_empty_of_mem_names entry listed)
      have own : i ∈ entry.2 := alone ▸ Mask.single_mem held
      exact ⟨above.1, mem_toNames.mpr ⟨above, member, rfl⟩, above.2,
        ofName?_of_mem above (taken_sublist.subset member), Mask.subset_iff.mp part i own⟩

/-- The names for privileges stand for these privileges. -/
theorem ofNames_toNames (within : privileges ⊆ Mask.declared) :
    ofNames (toNames privileges) ∅ = .ok privileges :=
  (ofNames_toNames_eq privileges).trans (congrArg _ within)

/-- Whether a name stands for privileges that an entry has, and for some at all. -/
def NamesPart (entry : String × PrivilegeBits) (name : String) : Prop :=
  ∃ bits, ofName? name = some bits ∧ bits ≠ ∅ ∧ bits ⊆ entry.2

/-- If some names stand for the declared privileges, one of them names part of any entry taken. -/
theorem exists_namesPart {others : List String}
    (same : ofNames others ∅ = .ok privileges.declaredPart) {entry : String × PrivilegeBits}
    (member : entry ∈ taken names privileges) : ∃ name ∈ others, NamesPart entry name := by
  obtain ⟨-, means⟩ := ofNames_eq_ok_iff.mp same
  have present := taken_sublist.subset member
  obtain ⟨i, inside⟩ := Mask.ne_empty_iff.mp (ne_empty_of_mem_names entry present)
  have needed : i ∈ meaningOf others := means ▸ Mask.mem_declaredPart.mpr
    ⟨Mask.subset_iff.mp (subset_of_mem_taken member) i inside,
      Mask.subset_iff.mp (subset_declared_of_mem_names entry present) i inside⟩
  obtain ⟨name, listed, bits, known, held⟩ := mem_meaningOf.mp needed
  have filled : bits ≠ ∅ := Mask.ne_empty_iff.mpr ⟨i, held⟩
  have within : bits ⊆ privileges := Mask.subset_iff.mpr fun j part =>
    (Mask.mem_declaredPart.mp (means ▸ mem_meaningOf.mpr ⟨name, listed, bits, known, part⟩)).1
  -- The name is part of an entry that is taken, and as both have `i` it is the one in question.
  obtain ⟨above, other, part⟩ :=
    exists_taken_above nested_names (mem_names_of_ofName? known) within filled
  obtain rfl := eq_of_mem_taken member other inside (Mask.subset_iff.mp part i held)
  exact ⟨name, listed, bits, known, filled, part⟩

/-- No name is part of two entries that are taken. -/
theorem NamesPart.unique {first second : String × PrivilegeBits} {name : String}
    (one : NamesPart first name) (two : NamesPart second name)
    (member : first ∈ taken names privileges) (present : second ∈ taken names privileges) :
    first = second := by
  obtain ⟨bits, known, filled, part⟩ := one
  obtain ⟨again, same, -, within⟩ := two
  obtain rfl : bits = again := Option.some.inj (known.symm.trans same)
  obtain ⟨i, held⟩ := Mask.ne_empty_iff.mp filled
  exact eq_of_mem_taken member present (Mask.subset_iff.mp part i held)
    (Mask.subset_iff.mp within i held)

/-- Other names for the declared privileges are not fewer. -/
theorem length_toNames_le {others : List String}
    (same : ofNames others ∅ = .ok privileges.declaredPart) :
    (toNames privileges).length ≤ others.length := by
  have distinct : (toNames privileges).Nodup := (Dictionary.sorted_distinct _).nodup
  have written : (toNames privileges).toFinset =
      (taken names privileges).toFinset.image Prod.fst := by
    ext name
    simp only [List.mem_toFinset, mem_toNames, Finset.mem_image]
  have each : ∀ entry ∈ (taken names privileges).toFinset, ∃ name ∈ others.toFinset,
      NamesPart entry name := by
    simpa only [List.mem_toFinset] using fun entry => exists_namesPart same
  calc (toNames privileges).length
    _ = (toNames privileges).toFinset.card := (List.toFinset_card_of_nodup distinct).symm
    _ ≤ (taken names privileges).toFinset.card := written ▸ Finset.card_image_le
    _ ≤ others.toFinset.card :=
      Finset.card_le_card_of_forall_subsingleton NamesPart each fun name _ _ first _ second =>
        first.2.unique second.2 (by simpa using first.1) (by simpa using second.1)
    _ ≤ others.length := List.toFinset_card_le others

/-- **Privileges are written without loss and with the fewest names.** Whatever bits are set, the
names that they are written with ascend and are read back as the declared ones among them, and no
fewer names stand for these. -/
theorem written_shortest (privileges : PrivilegeBits) :
    let written := PrivilegeCatalogue.builtin.names privileges
    PrivilegeCatalogue.builtin.bits written = .ok privileges.declaredPart ∧
      written.Pairwise (· < ·) ∧
      ∀ others, PrivilegeCatalogue.builtin.bits others = .ok privileges.declaredPart →
        written.length ≤ others.length :=
  ⟨ofNames_toNames_eq privileges, Dictionary.sorted_distinct _, fun _ => length_toNames_le⟩

/-- Reading and versioning beside a bit without a name. -/
example : toNames ⟨0x80000803⟩ = ["jcr:read", "jcr:versionManagement"] := by decide +kernel

end Authorization.PrivilegeBits
