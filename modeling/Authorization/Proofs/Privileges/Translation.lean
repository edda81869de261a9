import Authorization.Proofs.Provider.Opinion

/-!
# Privileges, permissions and names

Every single privilege stands for one permission and every permission for one privilege, so an
opinion about a permission is one about its privilege (`opinion_ofPermissions`). Names are read up
to the first one that is not known (`ofNames_eq`).
-/

namespace Authorization

/-- The declared capabilities are the twenty-one lowest bits. -/
theorem Mask.mem_declared {v : Vocabulary} {i : Nat} : i ∈ (declared : Mask v) ↔ i < 21 := by
  have bits : (declared : Mask v).bits = BitVec.ofNat 64 (2 ^ 21 - 1) := v.declared_eq
  rw [mem_def, bits, BitVec.getLsbD_ofNat, Nat.testBit_two_pow_sub_one, Bool.and_eq_true,
    decide_eq_true_eq, decide_eq_true_eq]
  omega

namespace PrivilegeBits

section Meanings

variable {privilege permission : Nat}

theorem lt_of_meaning : ∀ meaning ∈ meanings, meaning.1 < 21 ∧ meaning.2 < 21 := by decide

theorem exists_meaning : ∀ privilege < 21, ∃ meaning ∈ meanings, meaning.1 = privilege := by decide

theorem meaning_inj : ∀ meaning ∈ meanings, ∀ other ∈ meanings,
    (meaning.1 = other.1 ↔ meaning.2 = other.2) := by decide

variable (meant : (privilege, permission) ∈ meanings)

include meant

/-- A privilege stands for permissions if the permission it means is among them. -/
theorem mem_ofPermissions {permissions : Permissions} :
    privilege ∈ ofPermissions permissions ↔ permission ∈ permissions := by
  simp only [ofPermissions, Mask.mem_foldl_union, List.mem_filter, decide_eq_true_eq,
    Mask.mem_single]
  constructor
  · rintro ⟨other, ⟨listed, member⟩, same, -⟩
    have equal : permission = other.2 := (meaning_inj _ meant other listed).mp same
    rw [equal]
    exact member
  · intro member
    have bit := (lt_of_meaning _ meant).1
    exact ⟨_, ⟨meant, member⟩, rfl, by omega⟩

/-- The permissions of privileges are what these mean. -/
theorem mem_permissions {privileges : PrivilegeBits} :
    permission ∈ privileges.permissions ↔ privilege ∈ privileges := by
  simp only [permissions, Mask.mem_foldl_union, List.mem_filter, decide_eq_true_eq,
    Mask.mem_single]
  constructor
  · rintro ⟨other, ⟨listed, member⟩, same, -⟩
    have equal : privilege = other.1 := (meaning_inj _ meant other listed).mpr same
    rw [equal]
    exact member
  · intro member
    have bit := (lt_of_meaning _ meant).2
    exact ⟨_, ⟨meant, member⟩, rfl, by omega⟩

/-- Who has an opinion about a permission has the same about its privilege. -/
theorem opinion_ofPermissions (covers granted : Permissions) :
    Mask.opinion (ofPermissions covers) (ofPermissions granted) privilege =
      Mask.opinion covers granted permission := by
  simp only [Mask.opinion, mem_ofPermissions meant]

end Meanings

/-- Permissions imply declared privileges only. -/
theorem ofPermissions_subset_declared (permissions : Permissions) :
    ofPermissions permissions ⊆ Mask.declared := by
  refine Mask.subset_iff.mpr fun privilege member => ?_
  simp only [ofPermissions, Mask.mem_foldl_union, List.mem_filter, Mask.mem_single] at member
  obtain ⟨meaning, ⟨listed, -⟩, rfl, -⟩ := member
  exact Mask.mem_declared.mpr (lt_of_meaning meaning listed).1

/-- More permissions imply more privileges. -/
theorem ofPermissions_mono {permissions more : Permissions} (within : permissions ⊆ more) :
    ofPermissions permissions ⊆ ofPermissions more := by
  refine Mask.subset_iff.mpr fun privilege member => ?_
  have bit := Mask.mem_declared.mp (Mask.subset_iff.mp (ofPermissions_subset_declared _) _ member)
  obtain ⟨meaning, meant, rfl⟩ := exists_meaning privilege bit
  rw [mem_ofPermissions meant] at member ⊢
  exact Mask.subset_iff.mp within _ member

/-- Every permission that privileges stand for is that of one of them. -/
theorem exists_of_mem_permissions {privileges : PrivilegeBits} {permission : Nat}
    (member : permission ∈ privileges.permissions) :
    ∃ privilege ∈ privileges, (privilege, permission) ∈ meanings := by
  simp only [permissions, Mask.mem_foldl_union, List.mem_filter, decide_eq_true_eq,
    Mask.mem_single] at member
  obtain ⟨meaning, ⟨listed, held⟩, rfl, -⟩ := member
  exact ⟨meaning.1, held, listed⟩

/-- Declared privileges stand for some permission if there are any. -/
theorem permissions_ne_empty {privileges : PrivilegeBits} (declared : privileges ⊆ Mask.declared)
    (filled : privileges ≠ ∅) : privileges.permissions ≠ ∅ := by
  obtain ⟨privilege, member⟩ := Mask.ne_empty_iff.mp filled
  have bit := Mask.mem_declared.mp (Mask.subset_iff.mp declared privilege member)
  obtain ⟨meaning, meant, rfl⟩ := exists_meaning privilege bit
  exact Mask.ne_empty_iff.mpr ⟨meaning.2, (mem_permissions meant).mpr member⟩

section Names

theorem ofName?_of_mem : ∀ entry ∈ names, ofName? entry.1 = some entry.2 := by decide +kernel

theorem ne_empty_of_mem_names : ∀ entry ∈ names, entry.2 ≠ ∅ := by decide

theorem subset_declared_of_mem_names : ∀ entry ∈ names, entry.2 ⊆ Mask.declared := by decide

theorem exists_name_of_single : ∀ i < 21, ∃ entry ∈ names, entry.2 = .single i := by decide

theorem mem_names_of_ofName? {name : String} {bits : PrivilegeBits}
    (known : ofName? name = some bits) : (name, bits) ∈ names := by
  obtain ⟨entry, found, rfl⟩ := Option.map_eq_some_iff.mp known
  have same : entry.1 = name := by simpa using List.find?_some found
  rw [← same]
  exact List.mem_of_find?_eq_some found

/-- What several names stand for together; a name that is not known stands for nothing. -/
def meaningOf (listed : List String) : PrivilegeBits :=
  listed.foldl (fun held name => held ∪ (ofName? name).getD ∅) ∅

/-- The bits that names stand for are those of each name. -/
theorem mem_meaningOf {listed : List String} {i : Nat} :
    i ∈ meaningOf listed ↔ ∃ name ∈ listed, ∃ bits, ofName? name = some bits ∧ i ∈ bits := by
  rw [meaningOf, Mask.mem_foldl_union]
  refine exists_congr fun name => and_congr_right fun _ => ?_
  cases ofName? name <;> simp

/-- Names are read up to the first one that is not known. -/
theorem ofNames_eq (listed : List String) :
    ofNames listed ∅ = match listed.find? fun name => (ofName? name).isNone with
      | some name => .error (.unknownPrivilege name)
      | none => .ok (meaningOf listed) := by
  suffices general : ∀ held : PrivilegeBits, ofNames listed held =
      match listed.find? fun name => (ofName? name).isNone with
      | some name => .error (.unknownPrivilege name)
      | none => .ok (listed.foldl (fun held name => held ∪ (ofName? name).getD ∅) held) from
    general ∅
  induction listed with
  | nil => exact fun held => rfl
  | cons name listed ih =>
      intro held
      rw [ofNames, List.find?_cons, List.foldl_cons]
      cases ofName? name with
      | none => rfl
      | some bits => exact ih (held ∪ bits)

/-- Names are refused exactly for the first unknown one. -/
theorem ofNames_eq_error_iff {listed : List String} {error : AuthorizationError} :
    ofNames listed ∅ = .error error ↔
      ∃ name, listed.find? (fun name => (ofName? name).isNone) = some name ∧
        error = .unknownPrivilege name := by
  rw [ofNames_eq]
  cases listed.find? fun name => (ofName? name).isNone <;> simp [eq_comm]

/-- Names that are all known stand for their bits. -/
theorem ofNames_eq_ok_iff {listed : List String} {bits : PrivilegeBits} :
    ofNames listed ∅ = .ok bits ↔
      (∀ name ∈ listed, (ofName? name).isSome) ∧ meaningOf listed = bits := by
  rw [ofNames_eq]
  cases unknown : listed.find? fun name => (ofName? name).isNone with
  | none =>
      rw [List.find?_eq_none] at unknown
      simp only [Except.ok.injEq, iff_and_self]
      intro _ name listed
      simpa [Option.isSome_iff_ne_none] using unknown name listed
  | some name =>
      have missing : ofName? name = none := by simpa using List.find?_some unknown
      simp only [reduceCtorEq, false_iff, not_and]
      intro known
      have some := known name (List.mem_of_find?_eq_some unknown)
      simp [missing] at some

/-- Known names stand for declared privileges. -/
theorem meaningOf_subset_declared (listed : List String) : meaningOf listed ⊆ Mask.declared := by
  refine Mask.subset_iff.mpr fun i member => ?_
  obtain ⟨name, -, bits, known, inside⟩ := mem_meaningOf.mp member
  have within := subset_declared_of_mem_names _ (mem_names_of_ofName? known)
  exact Mask.subset_iff.mp within i inside

theorem subset_declared_of_ofNames {listed : List String} {bits : PrivilegeBits}
    (known : ofNames listed ∅ = .ok bits) : bits ⊆ Mask.declared := by
  obtain ⟨-, rfl⟩ := ofNames_eq_ok_iff.mp known
  exact meaningOf_subset_declared listed

/-- Known names stand for no privilege only if there are none. -/
theorem meaningOf_eq_empty_iff {listed : List String}
    (known : ∀ name ∈ listed, (ofName? name).isSome) : meaningOf listed = ∅ ↔ listed = [] := by
  constructor
  · intro bare
    by_contra filled
    obtain ⟨name, present⟩ := List.exists_mem_of_ne_nil _ filled
    obtain ⟨bits, named⟩ := Option.isSome_iff_exists.mp (known name present)
    obtain ⟨i, inside⟩ :=
      Mask.ne_empty_iff.mp (ne_empty_of_mem_names _ (mem_names_of_ofName? named))
    have member := mem_meaningOf.mpr ⟨name, present, bits, named, inside⟩
    rw [bare] at member
    exact Mask.notMem_empty i member
  · rintro rfl
    rfl

theorem ne_empty_of_ofNames {listed : List String} {bits : PrivilegeBits}
    (known : ofNames listed ∅ = .ok bits) (filled : listed ≠ []) : bits ≠ ∅ := by
  obtain ⟨all, rfl⟩ := ofNames_eq_ok_iff.mp known
  exact mt (meaningOf_eq_empty_iff all).mp filled

end Names

end PrivilegeBits

end Authorization
