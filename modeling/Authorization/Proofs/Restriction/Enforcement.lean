import Authorization.Proofs.Path.Canonical
import Authorization.Proofs.Restriction.Flattening
import Authorization.Restriction.Assembly

/-!
# Enforcing what has been accepted

The standard provider accepts an entry exactly if it holds no glob that cannot be read and nothing
of another shape under the names of its two restrictions (`validate_standard_eq_ok_iff`). Then its
pattern applies to the items that both restrictions allow (`enforces_of_acceptable`).
-/

namespace Authorization

namespace RestrictionCatalogue

variable {path : Option String} {store : RestrictionStore}

/-- An entry is valid if no property has a fault and none is missing. -/
theorem validate_eq_ok_iff {catalogue : RestrictionCatalogue} :
    catalogue.validate path store = .ok () ↔
      (∀ property ∈ store.values, catalogue.fault? path property = none) ∧
        catalogue.missing? path store = none := by
  rw [← firstFault?_eq_none_iff, validate]
  cases catalogue.firstFault? path store.values with
  | some found => simp
  | none => cases catalogue.missing? path store <;> simp

/-- A provider of one restriction, which need not be there, accepts what is stored under its name
as the definition says. -/
theorem validate_single_eq_ok_iff (definition : RestrictionDefinition)
    (optional : definition.mandatory = false)
    (proper : store.Proper) :
    (ofList [definition]).validate path store = .ok () ↔
      ∀ property, store.find? definition.name = some property →
        path.isSome ∧ property.multiValued = definition.multiValued ∧
          ∀ value ∈ property.values, value.type = definition.valueType := by
  have only name : (ofList [definition]).definition? name =
      if definition.name = name then some definition else none := by
    by_cases same : definition.name = name <;> simp [definition?_ofList, same]
  have present : (ofList [definition]).missing? path store = none := by
    cases path with
    | none => rfl
    | some place => simp [missing?, ofList, Dictionary.ofList, Dictionary.insert,
        Dictionary.values, optional]
  rw [validate_eq_ok_iff, and_iff_left present]
  constructor
  · intro sound property found
    have named := proper.named found
    have member := proper.mem_values_iff.mpr (named.symm ▸ found)
    exact (fault?_eq_none_iff ((only _).trans (if_pos named.symm))).mp (sound property member)
  · intro shaped property member
    have found := proper.mem_values_iff.mp member
    by_cases named : definition.name = property.name
    · exact (fault?_eq_none_iff ((only _).trans (if_pos named))).mpr
        (shaped property (named ▸ found))
    · exact fault?_of_unknown ((only _).trans (if_neg named))

end RestrictionCatalogue

/-- Properties with one text have it as their only value. -/
theorem Property.IsProper.eq_string {property : Property} (proper : property.IsProper)
    (single : property.multiValued = false)
    (typed : ∀ value ∈ property.values, value.type = .string) :
    ∃ text, property.values = [.string text] := by
  obtain ⟨value, values⟩ := List.length_eq_one_iff.mp (proper single)
  have type := typed value (by simp [values])
  cases value with
  | string text => exact ⟨text, values⟩
  | name _ | path _ | long _ | boolean _ => cases type

/-- Among names, a text belongs to those of the values exactly if the name is one of them. -/
theorem Value.mem_texts_iff {values : List Value} (typed : ∀ value ∈ values, value.type = .name)
    {text : String} : text ∈ values.filterMap Value.text? ↔ .name text ∈ values := by
  rw [List.mem_filterMap]
  constructor
  · rintro ⟨value, member, same⟩
    have type := typed value member
    cases value with
    | name other =>
        obtain rfl : other = text := by simpa [Value.text?] using same
        exact member
    | string _ | path _ | long _ | boolean _ => cases type
  · exact fun member => ⟨.name text, member, rfl⟩

/-- A glob, put after the path of an entry, matches the path of an item. -/
def GlobRestriction.Matches (place text item : String) : Prop :=
  ∃ matcher, GlobRestriction.matcher place text = .ok matcher ∧ matcher.node item = true

theorem GlobRestriction.property_of_matcher {place text : String} {matcher : ItemMatcher}
    (read : GlobRestriction.matcher place text = .ok matcher) (item name : String) :
    matcher.property item name = matcher.node (Path.concat item name) := by
  rw [GlobRestriction.matcher] at read
  generalize Glob.parse _ = parsed at read
  cases parsed with
  | error error => cases read
  | ok whole =>
      cases read
      rfl

namespace RestrictionStore

variable (path : Option String) (store : RestrictionStore)

/-- What the standard restrictions may look like in an entry: a glob that can be read, and names. -/
structure Acceptable : Prop where
  glob : ∀ property, store.find? GlobRestriction.key = some property →
    ∃ place text matcher, path = some place ∧ property.multiValued = false ∧
      property.values = [.string text] ∧ GlobRestriction.matcher place text = .ok matcher
  names : ∀ property, store.find? ItemNamesRestriction.key = some property →
    path.isSome ∧ property.multiValued = true ∧ ∀ value ∈ property.values, value.type = .name

/-- Whether an entry's glob, if it has one, matches an item's path, and the names of the entry, if
it has any, contain the item's name. -/
structure Allows (item name : String) : Prop where
  glob : ∀ property, store.find? GlobRestriction.key = some property →
    ∃ place text, path = some place ∧ property.values = [.string text] ∧
      GlobRestriction.Matches place text item
  names : ∀ property, store.find? ItemNamesRestriction.key = some property →
    .name name ∈ property.values

end RestrictionStore

section Standard

open RestrictionStore

variable {path : Option String} {store : RestrictionStore}

namespace RestrictionSource

theorem text?_of_values {property : Property} {text : String}
    (values : property.values = [.string text]) :
    GlobRestriction.text? (some property) = some text := by
  rw [GlobRestriction.text?, Option.bind_some, Property.value?, values]
  rfl

/-- The glob provider accepts an entry without a glob, or with one glob that can be read. -/
theorem validate_glob_eq_ok_iff (proper : store.Proper) :
    glob.service.validate path store = .ok () ↔
      ∀ property, store.find? GlobRestriction.key = some property →
        ∃ place text matcher, path = some place ∧ property.multiValued = false ∧
          property.values = [.string text] ∧
            GlobRestriction.matcher place text = .ok matcher := by
  change (_ >>= fun _ => GlobRestriction.check path store) = _ ↔ _
  rw [checks_eq_ok_iff, RestrictionCatalogue.validate_single_eq_ok_iff _ rfl proper]
  constructor
  · rintro ⟨shaped, checked⟩ property found
    obtain ⟨placed, single, typed⟩ := shaped property found
    obtain ⟨place, rfl⟩ := Option.isSome_iff_exists.mp placed
    obtain ⟨text, values⟩ := (proper.single found).eq_string single typed
    cases read : GlobRestriction.matcher place text with
    | error error =>
        unfold GlobRestriction.check at checked
        simp [found, text?_of_values values, read] at checked
    | ok matcher => exact ⟨place, text, matcher, rfl, single, values, read⟩
  · intro readable
    constructor
    · intro property found
      obtain ⟨place, text, matcher, rfl, single, values, -⟩ := readable property found
      exact ⟨rfl, single, by simp [values, Value.type]⟩
    · cases found : store.find? GlobRestriction.key with
      | none =>
          unfold GlobRestriction.check
          rw [found]
          cases path <;> rfl
      | some property =>
          obtain ⟨place, text, matcher, rfl, -, values, read⟩ := readable property found
          unfold GlobRestriction.check
          simp [found, text?_of_values values, read]

/-- The item names provider accepts an entry without names, or with a list of names. -/
theorem validate_itemNames_eq_ok_iff (proper : store.Proper)
    {enclosing : Option (Option String → OrderedSet RestrictionDefinition)}
    (agreed : ∀ supported ∈ enclosing, ItemNamesRestriction.conflicts (supported path) = false) :
    (itemNames enclosing).service.validate path store = .ok () ↔
      ∀ property, store.find? ItemNamesRestriction.key = some property →
        path.isSome ∧ property.multiValued = true ∧
          ∀ value ∈ property.values, value.type = .name := by
  have checked : ItemNamesRestriction.check enclosing path store = .ok () := by
    unfold ItemNamesRestriction.check
    split
    · rename_i supported _
      rw [agreed supported rfl]
      rfl
    · rfl
  change (_ >>= fun _ => ItemNamesRestriction.check enclosing path store) = _ ↔ _
  rw [checks_eq_ok_iff, and_iff_left checked]
  exact RestrictionCatalogue.validate_single_eq_ok_iff _ rfl proper

end RestrictionSource

/-- What the composite around the standard item names provider declares. -/
def standardSupported : Option String → OrderedSet RestrictionDefinition :=
  RestrictionArrangement.supported (.composite 1 [.leaf .glob, .leaf (.itemNames 0)])

theorem conflicts_standardSupported (path : Option String) :
    ItemNamesRestriction.conflicts (standardSupported path) = false := by
  cases path <;> rfl

namespace RestrictionService

theorem joins_standard : standard.Joins [.glob, .itemNames (some standardSupported)] :=
  RestrictionArrangement.joins_leaves
    (.composite 1 [.leaf .glob, .leaf (.itemNames (some standardSupported))])

/-- The standard provider accepts an entry exactly if its glob can be read and its names are
names. -/
theorem validate_standard_eq_ok_iff (proper : store.Proper) :
    standard.validate path store = .ok () ↔ store.Acceptable path := by
  have agreed : ∀ supported ∈ some standardSupported,
      ItemNamesRestriction.conflicts (supported path) = false := by
    rintro _ ⟨⟩
    exact conflicts_standardSupported path
  rw [joins_standard.validate]
  change (_ >>= fun _ => _ >>= fun _ => Except.ok ()) = _ ↔ _
  rw [checks_eq_ok_iff, checks_eq_ok_iff, and_iff_left rfl,
    RestrictionSource.validate_glob_eq_ok_iff proper,
    RestrictionSource.validate_itemNames_eq_ok_iff proper agreed]
  exact ⟨fun ⟨glob, names⟩ => ⟨glob, names⟩, fun shaped => ⟨shaped.glob, shaped.names⟩⟩

/-- The standard provider's patterns combine those for the glob and for the names. -/
theorem pattern_standard :
    standard.pattern path store = .combine
      [GlobRestriction.pattern path (store.find? GlobRestriction.key),
        ItemNamesRestriction.pattern path (store.find? ItemNamesRestriction.key)] :=
  joins_standard.pattern path store

theorem isNormal_standard_parts (path : Option String) (store : RestrictionStore) :
    ∀ pattern ∈ [GlobRestriction.pattern path (store.find? GlobRestriction.key),
      ItemNamesRestriction.pattern path (store.find? ItemNamesRestriction.key)],
      pattern.IsNormal :=
  List.forall_mem_cons.mpr ⟨RestrictionSource.glob.isNormal_pattern path store,
    List.forall_mem_singleton.mpr ((RestrictionSource.itemNames none).isNormal_pattern path store)⟩

end RestrictionService

section Patterns

variable (acceptable : store.Acceptable path)

include acceptable

theorem pattern_glob_of_acceptable :
    (store.find? GlobRestriction.key = none ∧
      GlobRestriction.pattern path (store.find? GlobRestriction.key) = .all) ∨
    ∃ property place text matcher, store.find? GlobRestriction.key = some property ∧
      path = some place ∧ property.values = [.string text] ∧
      GlobRestriction.matcher place text = .ok matcher ∧
      GlobRestriction.pattern path (store.find? GlobRestriction.key) = .matcher matcher := by
  cases found : store.find? GlobRestriction.key with
  | none => exact .inl ⟨rfl, by cases path <;> rfl⟩
  | some property =>
      obtain ⟨place, text, matcher, rfl, -, values, read⟩ := acceptable.glob property found
      refine .inr ⟨property, place, text, matcher, rfl, rfl, values, read, ?_⟩
      unfold GlobRestriction.pattern
      simp [RestrictionSource.text?_of_values values, read]

theorem pattern_names_of_acceptable :
    (store.find? ItemNamesRestriction.key = none ∧
      ItemNamesRestriction.pattern path (store.find? ItemNamesRestriction.key) = .all) ∨
    ∃ property, store.find? ItemNamesRestriction.key = some property ∧
      (∀ value ∈ property.values, value.type = .name) ∧
      ItemNamesRestriction.pattern path (store.find? ItemNamesRestriction.key) =
        .matcher (ItemNamesRestriction.matcher (property.values.filterMap Value.text?)) := by
  cases found : store.find? ItemNamesRestriction.key with
  | none => exact .inl ⟨rfl, by cases path <;> rfl⟩
  | some property =>
      obtain ⟨placed, -, typed⟩ := acceptable.names property found
      obtain ⟨place, rfl⟩ := Option.isSome_iff_exists.mp placed
      exact .inr ⟨property, rfl, typed, rfl⟩

/-- In an acceptable entry the glob matches items by their paths. -/
theorem matchesNode_glob_iff (item : String) :
    (GlobRestriction.pattern path (store.find? GlobRestriction.key)).matchesNode item = true ↔
      ∀ property, store.find? GlobRestriction.key = some property →
        ∃ place text, path = some place ∧ property.values = [.string text] ∧
          GlobRestriction.Matches place text item := by
  rcases pattern_glob_of_acceptable acceptable with
    ⟨absent, pattern⟩ | ⟨property, place, text, matcher, found, rfl, values, read, pattern⟩
  · rw [pattern, absent]
    exact iff_of_true rfl (by simp)
  · rw [pattern, found]
    constructor
    · rintro matching _ ⟨⟩
      exact ⟨place, text, rfl, values, matcher, read, matching⟩
    · intro allowed
      obtain ⟨_, other, ⟨⟩, same, found, again, matching⟩ := allowed property rfl
      obtain rfl : other = text := by simpa [values] using same.symm
      obtain rfl : found = matcher := by simpa [read] using again.symm
      exact matching

/-- In an acceptable entry the names match items by their names. -/
theorem matchesProperty_names_iff (item name : String) :
    (ItemNamesRestriction.pattern path (store.find? ItemNamesRestriction.key)).matchesProperty
        item name = true ↔
      ∀ property, store.find? ItemNamesRestriction.key = some property →
        .name name ∈ property.values := by
  rcases pattern_names_of_acceptable acceptable with
    ⟨absent, pattern⟩ | ⟨property, found, typed, pattern⟩
  · rw [pattern, absent]
    exact iff_of_true rfl (by simp)
  · rw [pattern, found]
    change List.contains _ name = true ↔ _
    rw [List.contains_iff_mem, Value.mem_texts_iff typed]
    simp

end Patterns

/-- A glob matches a property by the path that the property has below its node. -/
theorem matchesProperty_glob (property : Option Property) (item name : String) :
    (GlobRestriction.pattern path property).matchesProperty item name =
      (GlobRestriction.pattern path property).matchesNode (Path.concat item name) := by
  unfold GlobRestriction.pattern
  split
  · split
    · rename_i matcher read
      exact GlobRestriction.property_of_matcher read item name
    · rfl
  · rfl

/-- Names match a node as they match a property of the node's name. -/
theorem matchesNode_names (property : Option Property) (item : String) :
    (ItemNamesRestriction.pattern path property).matchesNode item =
      (ItemNamesRestriction.pattern path property).matchesProperty item (Path.name item) := by
  unfold ItemNamesRestriction.pattern
  split <;> rfl

/-- The pattern of an entry applies to the items that the restrictions stored with it allow, and
does not reject all items out of hand. -/
structure RestrictionPattern.Enforces (pattern : RestrictionPattern) (path : Option String)
    (store : RestrictionStore) : Prop where
  usable : pattern ≠ .none
  node : ∀ item, pattern.matchesNode item = true ↔ store.Allows path item (Path.name item)
  /-- The name of a node other than the root is the last element of its path. -/
  last : ∀ names name, Path.IsName name →
    (pattern.matchesNode (Path.ofElements (names ++ [name])) = true ↔
      store.Allows path (Path.ofElements (names ++ [name])) name)
  property : ∀ item name, pattern.matchesProperty item name = true ↔
    store.Allows path (Path.concat item name) name

/-- What the standard provider accepts, its pattern enforces. -/
theorem enforces_of_acceptable (acceptable : store.Acceptable path) :
    (RestrictionService.standard.pattern path store).Enforces path store := by
  have glob := matchesNode_glob_iff acceptable
  have names := matchesProperty_names_iff acceptable
  have node : ∀ item, (RestrictionService.standard.pattern path store).matchesNode item = true ↔
      store.Allows path item (Path.name item) := by
    intro item
    rw [RestrictionService.pattern_standard, RestrictionPattern.matchesNode_combine]
    simp only [List.all_cons, List.all_nil, Bool.and_true, Bool.and_eq_true, matchesNode_names,
      glob, names]
    exact ⟨fun ⟨glob, names⟩ => ⟨glob, names⟩, fun allowed => ⟨allowed.glob, allowed.names⟩⟩
  refine ⟨?_, node, fun names name named => ?_, fun item name => ?_⟩
  · rw [RestrictionService.pattern_standard, Ne, RestrictionPattern.combine_eq_none_iff
      (RestrictionService.isNormal_standard_parts path store), List.mem_pair, not_or]
    constructor
    · rcases pattern_glob_of_acceptable acceptable with
        ⟨-, pattern⟩ | ⟨_, _, _, _, -, -, -, -, pattern⟩ <;> simp [pattern]
    · rcases pattern_names_of_acceptable acceptable with ⟨-, pattern⟩ | ⟨_, -, -, pattern⟩ <;>
        simp [pattern]
  · rw [node, Path.name_ofElements named]
  · rw [RestrictionService.pattern_standard, RestrictionPattern.matchesProperty_combine]
    simp only [List.all_cons, List.all_nil, Bool.and_true, Bool.and_eq_true,
      matchesProperty_glob, glob, names]
    exact ⟨fun ⟨glob, names⟩ => ⟨glob, names⟩, fun allowed => ⟨allowed.glob, allowed.names⟩⟩

end Standard

end Authorization
