import Authorization.Proofs.Restriction.Enforcement

/-!
# Entries that nothing restricts

For an entry at a path the standard provider narrows what the entry applies to by every name list
stored with it, and by a stored glob whose first value is a text. A list without names and a glob
that cannot be read match nothing. But a stored glob without a text counts as none, so an entry with
no other restriction then applies everywhere. The provider does not accept such an entry: one that
it accepts applies everywhere only if nothing is stored with it (`restricted_by_text_and_names`).
-/

namespace Authorization

namespace GlobRestriction

variable {place : String} {property : Option Property}

/-- A glob's pattern, by whether there is a text and whether it can be read. -/
theorem pattern_cases (place : String) (property : Option Property) :
    (text? property = none ∧ pattern (some place) property = .all) ∨
    (∃ text fault, text? property = some text ∧ matcher place text = .error fault ∧
      pattern (some place) property = .none) ∨
    ∃ text placed, text? property = some text ∧ matcher place text = .ok placed ∧
      pattern (some place) property = .matcher placed := by
  unfold pattern
  cases text? property with
  | none => exact .inl ⟨rfl, rfl⟩
  | some text =>
      cases read : matcher place text with
      | error fault => exact .inr (.inl ⟨text, fault, rfl, read, by simp [read]⟩)
      | ok placed => exact .inr (.inr ⟨text, placed, rfl, read, by simp [read]⟩)

/-- A glob restricts nothing only where it has no text. -/
theorem pattern_eq_all_iff : pattern (some place) property = .all ↔ text? property = none := by
  obtain ⟨absent, made⟩ | ⟨text, fault, found, -, made⟩ | ⟨text, placed, found, -, made⟩ :=
    pattern_cases place property
  · exact iff_of_true made absent
  · simp [made, found]
  · simp [made, found]

/-- A stored text restricts the entry to what it matches as a glob. One that cannot be read matches
nothing. -/
theorem matchesNode_pattern_iff {item : String} :
    (pattern (some place) property).matchesNode item = true ↔
      ∀ text, text? property = some text → Matches place text item := by
  obtain ⟨absent, made⟩ | ⟨text, fault, found, unread, made⟩ | ⟨text, placed, found, read, made⟩ :=
    pattern_cases place property
  · rw [made, absent]
    exact iff_of_true rfl (by simp)
  · rw [made]
    refine iff_of_false Bool.false_ne_true fun all => ?_
    obtain ⟨placed, read, -⟩ := all text found
    simp [unread] at read
  · rw [made, found]
    simp [Matches, read, RestrictionPattern.matchesNode, RestrictionPattern.meaning]

theorem repository_of_matcher {text : String} {placed : ItemMatcher}
    (read : matcher place text = .ok placed) : placed.repository = false := by
  unfold matcher at read
  obtain ⟨glob, -, ⟨⟩⟩ := bind_eq_ok_iff.mp read
  rfl

/-- A glob matches the repository only where it has no text. -/
theorem matchesRepository_pattern_iff :
    (pattern (some place) property).matchesRepository = true ↔ text? property = none := by
  obtain ⟨absent, made⟩ | ⟨text, fault, found, -, made⟩ | ⟨text, placed, found, read, made⟩ :=
    pattern_cases place property
  · rw [made]
    exact iff_of_true rfl absent
  · rw [made, found]
    exact iff_of_false Bool.false_ne_true (by simp)
  · rw [made, found]
    exact iff_of_false (Bool.eq_false_iff.mp (repository_of_matcher read)) (by simp)

end GlobRestriction

namespace ItemNamesRestriction

variable {place : String} {property : Option Property}

theorem pattern_eq_all_iff : pattern (some place) property = .all ↔ property = none := by
  cases property <;> simp [pattern]

/-- A stored list restricts the entry to the names that are the texts in it, of whatever type. -/
theorem matchesProperty_pattern_iff {item name : String} :
    (pattern (some place) property).matchesProperty item name = true ↔
      ∀ stored, property = some stored → ∃ value ∈ stored.values, value.text? = some name := by
  cases property with
  | none => exact iff_of_true rfl (by simp)
  | some stored =>
      change List.contains _ name = true ↔ _
      simp [List.mem_filterMap]

theorem matchesRepository_pattern_iff :
    (pattern (some place) property).matchesRepository = true ↔ property = none := by
  cases property with
  | none => exact iff_of_true rfl rfl
  | some stored => exact iff_of_false Bool.false_ne_true (by simp)

end ItemNamesRestriction

namespace RestrictionStore

/-- Whether neither a glob with a text nor a list of names is stored. -/
structure Silent (store : RestrictionStore) : Prop where
  glob : GlobRestriction.text? (store.find? GlobRestriction.key) = none
  names : store.find? ItemNamesRestriction.key = none

/-- Whether the text stored as a glob, if there is one, matches an item's path, and a stored list of
names, if there is one, has the item's name among its texts. -/
structure Permits (store : RestrictionStore) (place item name : String) : Prop where
  glob : ∀ text, GlobRestriction.text? (store.find? GlobRestriction.key) = some text →
    GlobRestriction.Matches place text item
  names : ∀ property, store.find? ItemNamesRestriction.key = some property →
    ∃ value ∈ property.values, value.text? = some name

theorem silent_iff {store : RestrictionStore} : store.Silent ↔
    GlobRestriction.text? (store.find? GlobRestriction.key) = none ∧
      store.find? ItemNamesRestriction.key = none :=
  ⟨fun ⟨glob, names⟩ => ⟨glob, names⟩, fun ⟨glob, names⟩ => ⟨glob, names⟩⟩

theorem permits_iff {store : RestrictionStore} {place item name : String} :
    store.Permits place item name ↔
      (∀ text, GlobRestriction.text? (store.find? GlobRestriction.key) = some text →
        GlobRestriction.Matches place text item) ∧
      ∀ property, store.find? ItemNamesRestriction.key = some property →
        ∃ value ∈ property.values, value.text? = some name :=
  ⟨fun ⟨glob, names⟩ => ⟨glob, names⟩, fun ⟨glob, names⟩ => ⟨glob, names⟩⟩

end RestrictionStore

namespace RestrictionService

variable {place : String} {store : RestrictionStore}

/-- The standard provider restricts nothing exactly if an entry is silent. -/
theorem pattern_standard_eq_all_iff :
    standard.pattern (some place) store = .all ↔ store.Silent := by
  rw [pattern_standard,
    RestrictionPattern.combine_eq_all_iff (isNormal_standard_parts (some place) store),
    List.forall_mem_cons, List.forall_mem_singleton, GlobRestriction.pattern_eq_all_iff,
    ItemNamesRestriction.pattern_eq_all_iff, RestrictionStore.silent_iff]

/-- The standard provider's patterns restrict nothing only where nothing at all is stored, as long
as the provider accepts the entry. -/
theorem pattern_eq_all_iff_of_acceptable (acceptable : store.Acceptable (some place)) :
    standard.pattern (some place) store = .all ↔
      store.find? GlobRestriction.key = none ∧ store.find? ItemNamesRestriction.key = none := by
  rw [pattern_standard_eq_all_iff, RestrictionStore.silent_iff]
  refine and_congr_left fun _ => ⟨fun wordless => ?_, fun absent => by rw [absent]; rfl⟩
  cases found : store.find? GlobRestriction.key with
  | none => rfl
  | some property =>
      obtain ⟨_, text, _, -, -, values, -⟩ := acceptable.glob property found
      rw [found, RestrictionSource.text?_of_values values] at wordless
      cases wordless

/-- **What restricts an entry.** Whatever is stored with it, an entry at a path is restricted by
the text of its glob and by the list of its names, together: its pattern is the one for all items,
and matches the repository, exactly if it has neither. For an entry that the provider accepts this
means that neither a glob nor a list of names is stored. -/
theorem restricted_by_text_and_names (place : String) (store : RestrictionStore) :
    (standard.pattern (some place) store = .all ↔ store.Silent) ∧
      (store.Proper → standard.validate (some place) store = .ok () →
        (standard.pattern (some place) store = .all ↔
          store.find? GlobRestriction.key = none ∧ store.find? ItemNamesRestriction.key = none)) ∧
      ((standard.pattern (some place) store).matchesRepository = true ↔ store.Silent) ∧
      (∀ item, (standard.pattern (some place) store).matchesNode item = true ↔
        store.Permits place item (Path.name item)) ∧
      ∀ item name, (standard.pattern (some place) store).matchesProperty item name = true ↔
        store.Permits place (Path.concat item name) name := by
  refine ⟨pattern_standard_eq_all_iff, fun proper accepted => ?_, ?_, fun item => ?_,
    fun item name => ?_⟩
  · exact pattern_eq_all_iff_of_acceptable ((validate_standard_eq_ok_iff proper).mp accepted)
  · rw [pattern_standard, RestrictionPattern.matchesRepository_combine, List.all_eq_true,
      List.forall_mem_cons, List.forall_mem_singleton,
      GlobRestriction.matchesRepository_pattern_iff,
      ItemNamesRestriction.matchesRepository_pattern_iff, RestrictionStore.silent_iff]
  · rw [pattern_standard, RestrictionPattern.matchesNode_combine, List.all_eq_true,
      List.forall_mem_cons, List.forall_mem_singleton, matchesNode_names,
      GlobRestriction.matchesNode_pattern_iff, ItemNamesRestriction.matchesProperty_pattern_iff,
      RestrictionStore.permits_iff]
  · rw [pattern_standard, RestrictionPattern.matchesProperty_combine, List.all_eq_true,
      List.forall_mem_cons, List.forall_mem_singleton, matchesProperty_glob,
      GlobRestriction.matchesNode_pattern_iff, ItemNamesRestriction.matchesProperty_pattern_iff,
      RestrictionStore.permits_iff]

/-- An accepted entry with a glob for what lies below does not apply everywhere. -/
theorem accepted_glob_narrows :
    let glob : Property := .single GlobRestriction.key (.string "/*")
    RestrictionStore.Proper [(glob.name, glob)] ∧
      standard.validate (some "/docs") [(glob.name, glob)] = .ok () ∧
      standard.pattern (some "/docs") [(glob.name, glob)] ≠ .all := by
  intro glob
  have proper : RestrictionStore.Proper [(glob.name, glob)] :=
    RestrictionStore.proper_singleton glob fun _ => rfl
  have accepted : standard.validate (some "/docs") [(glob.name, glob)] = .ok () := rfl
  refine ⟨proper, accepted, fun all => ?_⟩
  have nothing := ((restricted_by_text_and_names "/docs" _).2.1 proper accepted).mp all
  cases nothing.1

/-- An entry with a number for its only glob applies everywhere. -/
theorem number_for_glob_unrestricted :
    let glob : Property := .single GlobRestriction.key (.long 1)
    RestrictionStore.Proper [(glob.name, glob)] ∧
      Dictionary.find? [(glob.name, glob)] GlobRestriction.key = some glob ∧
      standard.pattern (some "/docs") [(glob.name, glob)] = .all := by
  intro glob
  refine ⟨RestrictionStore.proper_singleton glob fun _ => rfl, rfl, ?_⟩
  rw [pattern_standard]
  rfl

end RestrictionService

end Authorization
