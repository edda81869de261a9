import Mathlib.Logic.Unique
import Authorization.Proofs.Restriction.Order
import Authorization.Proofs.Restriction.Store
import Authorization.Restriction.Service

/-!
# What a catalogue makes and stores

A catalogue makes restrictions that fit their definitions (`Fits.of_create`, `Fits.of_createMulti`).
Of restrictions to be written it stores all up to the first that it refuses (`run_write_accepted`,
`run_write_refused`), and it refuses none that fits (`refusal?_eq_none_iff`).
-/

namespace Authorization

theorem bind_eq_ok_iff {ε α β : Type} {first : Except ε α} {next : α → Except ε β} {done : β} :
    (first >>= next) = .ok done ↔ ∃ value, first = .ok value ∧ next value = .ok done := by
  cases first <;> simp [bind, Except.bind]

/-- Two checks, the second after the first, pass if both do. -/
theorem checks_eq_ok_iff {ε : Type} {first second : Except ε Unit} :
    (first >>= fun _ => second) = .ok () ↔ first = .ok () ∧ second = .ok () :=
  bind_eq_ok_iff.trans Unique.exists_iff

/-- A service declares a name if it supports a definition with the name. -/
theorem RestrictionService.declares_iff {service : RestrictionService} {path : Option String}
    {name : String} :
    service.declares path name = true ↔ ∃ definition ∈ service.supported path,
      definition.name = name := by
  simp [declares]

namespace RestrictionCatalogue

section Listed

variable {definitions : List RestrictionDefinition} {definition : RestrictionDefinition}
  {path : Option String} {name : String}

/-- Of definitions with one name the last one counts. -/
theorem definition?_ofList :
    (ofList definitions).definition? name =
      definitions.reverse.find? fun definition => definition.name == name := by
  rw [definition?, ofList, Dictionary.find?_ofList, ← List.map_reverse, List.find?_map,
    Option.map_map]
  exact Option.map_id_apply

theorem name_of_definition? (found : (ofList definitions).definition? name = some definition) :
    definition.name = name := by
  rw [definition?_ofList] at found
  simpa using List.find?_some found

theorem mem_values_iff :
    definition ∈ (ofList definitions).definitions.values ↔
      (ofList definitions).definition? definition.name = some definition := by
  have sorted : (ofList definitions).definitions.Sorted := Dictionary.sorted_ofList _
  constructor
  · intro member
    obtain ⟨⟨key, value⟩, listed, rfl⟩ := List.mem_map.mp member
    have found : (ofList definitions).definition? key = some value :=
      Dictionary.find?_of_mem sorted listed
    rwa [name_of_definition? found]
  · intro found
    exact List.mem_map.mpr ⟨_, Dictionary.mem_of_find? found, rfl⟩

/-- At a path the definitions that count are supported, and at the repository none. -/
theorem mem_supported_iff :
    definition ∈ (ofList definitions).supported path ↔
      path.isSome ∧ (ofList definitions).definition? definition.name = some definition := by
  cases path with
  | none => simp [supported]
  | some path => rw [supported, OrderedSet.mem_ofList, mem_values_iff]; simp

theorem ascending_supported (catalogue : RestrictionCatalogue) (path : Option String) :
    OrderedSet.Ascending (catalogue.supported path) := by
  cases path with
  | none => exact List.Pairwise.nil
  | some path => exact OrderedSet.ascending_ofList _

/-- What is read is stored under its name, and has the definition that counts. -/
theorem mem_read_iff {store : RestrictionStore} {restriction : Restriction} :
    restriction ∈ (ofList definitions).read path store ↔
      path.isSome ∧
        (ofList definitions).definition? restriction.name = some restriction.definition ∧
        store.find? restriction.name = some restriction.property := by
  cases path with
  | none => simp [read]
  | some path =>
      rw [read, OrderedSet.mem_ofList, List.mem_filterMap]
      simp only [mem_values_iff, Option.isSome_some, true_and]
      constructor
      · rintro ⟨definition, known, held⟩
        obtain ⟨property, found, rfl⟩ := Option.map_eq_some_iff.mp held
        exact ⟨known, found⟩
      · rintro ⟨known, found⟩
        exact ⟨restriction.definition, known, Option.map_eq_some_iff.mpr ⟨_, found, rfl⟩⟩

theorem ascending_read (catalogue : RestrictionCatalogue) (path : Option String)
    (store : RestrictionStore) : OrderedSet.Ascending (catalogue.read path store) := by
  cases path with
  | none => exact List.Pairwise.nil
  | some path => exact OrderedSet.ascending_ofList _

theorem exists_mem_supported_iff :
    (∃ definition ∈ (ofList definitions).supported path, definition.name = name) ↔
      path.isSome ∧ ((ofList definitions).definition? name).isSome := by
  constructor
  · rintro ⟨definition, member, rfl⟩
    obtain ⟨placed, found⟩ := mem_supported_iff.mp member
    exact ⟨placed, by rw [found]; rfl⟩
  · rintro ⟨placed, known⟩
    obtain ⟨definition, found⟩ := Option.isSome_iff_exists.mp known
    have named := name_of_definition? found
    exact ⟨definition, mem_supported_iff.mpr ⟨placed, named ▸ found⟩, named⟩

end Listed

variable {catalogue other : RestrictionCatalogue} {path : Option String} {name : String}
  {definition : RestrictionDefinition} {restriction : Restriction}

theorem require_some (found : catalogue.definition? name = some definition) (place : String) :
    catalogue.require (some place) name = .ok definition := by
  simp [require, found]

theorem require_eq_error
    (absent : ¬(path.isSome = true ∧ (catalogue.definition? name).isSome = true)) :
    catalogue.require path name = .error (.unsupportedRestriction path name) := by
  cases path with
  | none => rfl
  | some path =>
      cases known : catalogue.definition? name with
      | none => simp [require, known]
      | some definition => simp [known] at absent

/-- What is required is found at paths, if there is a definition. -/
theorem require_eq_ok_iff :
    catalogue.require path name = .ok definition ↔
      path.isSome ∧ catalogue.definition? name = some definition := by
  cases path with
  | none => simp [require]
  | some path =>
      cases known : catalogue.definition? name with
      | none => simp [require, known]
      | some other => simp [require, known]

/-- Catalogues that define a name alike require it alike. -/
theorem require_congr (same : catalogue.definition? name = other.definition? name) :
    catalogue.require path name = other.require path name := by
  unfold require
  rw [same]

theorem create_congr (same : catalogue.require path name = other.require path name)
    (value : Value) : catalogue.create path name value = other.create path name value := by
  rw [create, create, same]

theorem createMulti_congr (same : catalogue.require path name = other.require path name)
    (values : List Value) :
    catalogue.createMulti path name values = other.createMulti path name values := by
  rw [createMulti, createMulti, same]

theorem writeOne_congr
    (same : catalogue.require path restriction.name = other.require path restriction.name) :
    catalogue.writeOne path restriction = other.writeOne path restriction := by
  rw [writeOne, writeOne, same]

theorem write_singleton (restriction : Restriction) :
    catalogue.write path [restriction] = catalogue.writeOne path restriction := by
  rw [write]
  exact bind_pure_unit

/-- A restriction made as its definition, which the catalogue holds, demands. -/
structure Fits (catalogue : RestrictionCatalogue) (restriction : Restriction) : Prop where
  defined : catalogue.definition? restriction.name = some restriction.definition
  named : restriction.property.name = restriction.name
  multiplicity : restriction.property.multiValued = restriction.definition.multiValued
  typed : ∀ value ∈ restriction.property.values, value.type = restriction.definition.valueType
  single : restriction.property.IsProper

/-- Values have no fault if all have the type of the definition. -/
theorem typeFault?_eq_none_iff {values : List Value} :
    typeFault? definition values = none ↔ ∀ value ∈ values, value.type = definition.valueType := by
  simp [typeFault?]

theorem requireTypes_eq_ok_iff {values : List Value} :
    requireTypes path definition values = .ok () ↔
      ∀ value ∈ values, value.type = definition.valueType := by
  rw [← typeFault?_eq_none_iff, requireTypes]
  cases typeFault? definition values <;> simp

/-- Values of the right type make a restriction that may have any number of them. -/
theorem createMulti_of_typed {values : List Value} {place : String}
    (found : catalogue.definition? name = some definition)
    (several : definition.multiValued = true)
    (typed : ∀ value ∈ values, value.type = definition.valueType) :
    catalogue.createMulti (some place) name values = .ok ⟨definition, ⟨name, values, true⟩⟩ := by
  have passed : requireTypes (some place) definition values = .ok () :=
    requireTypes_eq_ok_iff.mpr typed
  rw [createMulti, require_some found]
  change (requireTypes (some place) definition values >>= fun _ => _) = _
  rw [passed]
  change ite _ _ _ = _
  rw [if_pos (.inl several), several]
  rfl

section Made

variable {definitions : List RestrictionDefinition}

/-- What is made from a value fits the definitions. -/
theorem Fits.of_create {value : Value}
    (made : (ofList definitions).create path name value = .ok restriction) :
    (ofList definitions).Fits restriction := by
  rw [create] at made
  obtain ⟨definition, required, made⟩ := bind_eq_ok_iff.mp made
  obtain ⟨_, typed, made⟩ := bind_eq_ok_iff.mp made
  obtain ⟨-, found⟩ := require_eq_ok_iff.mp required
  have named := name_of_definition? found
  cases made
  exact
    { defined := named.symm ▸ found
      named := named.symm
      multiplicity := rfl
      typed := requireTypes_eq_ok_iff.mp typed
      single := fun _ => rfl }

theorem Fits.of_createMulti {values : List Value}
    (made : (ofList definitions).createMulti path name values = .ok restriction) :
    (ofList definitions).Fits restriction := by
  rw [createMulti] at made
  obtain ⟨definition, required, made⟩ := bind_eq_ok_iff.mp made
  obtain ⟨_, typed, made⟩ := bind_eq_ok_iff.mp made
  obtain ⟨-, found⟩ := require_eq_ok_iff.mp required
  have named := name_of_definition? found
  split at made
  · rename_i count
    cases made
    exact
      { defined := named.symm ▸ found
        named := named.symm
        multiplicity := rfl
        typed := requireTypes_eq_ok_iff.mp typed
        single := fun one => count.resolve_left (by simpa using one) }
  · cases made

end Made

section Fault

variable {property : Property}

/-- A catalogue finds no fault with what is stored under a name that it does not know. -/
theorem fault?_of_unknown (unknown : catalogue.definition? property.name = none) :
    catalogue.fault? path property = none := by
  rw [fault?, unknown, Option.bind_none]

/-- A property that is defined has no fault exactly if it has the shape that its definition asks
for. -/
theorem fault?_eq_none_iff (known : catalogue.definition? property.name = some definition) :
    catalogue.fault? path property = none ↔
      path.isSome ∧ property.multiValued = definition.multiValued ∧
        ∀ value ∈ property.values, value.type = definition.valueType := by
  rw [fault?, known, Option.bind_some, ← typeFault?_eq_none_iff]
  cases path with
  | none => simp
  | some place =>
      by_cases multiplicity : property.multiValued = definition.multiValued <;>
        simp [multiplicity]

/-- No stored property that a restriction fits has a fault. -/
theorem Fits.fault?_eq_none (fits : catalogue.Fits restriction) (place : String) :
    catalogue.fault? (some place) restriction.property = none :=
  (fault?_eq_none_iff (fits.named ▸ fits.defined)).mpr ⟨rfl, fits.multiplicity, fits.typed⟩

end Fault

theorem firstFault?_eq_some_iff {properties : List Property} {property : Property}
    {fault : RestrictionFault} :
    catalogue.firstFault? path properties = some (property, fault) ↔
      (properties.find? fun property => (catalogue.fault? path property).isSome) = some property ∧
        catalogue.fault? path property = some fault := by
  induction properties with
  | nil => simp [firstFault?]
  | cons head tail ih =>
      rw [firstFault?, List.find?_cons]
      cases faulty : catalogue.fault? path head with
      | none => simpa using ih
      | some found =>
          simp only [Option.some.injEq, Prod.mk.injEq, Option.isSome_some]
          constructor
          · rintro ⟨rfl, rfl⟩
            exact ⟨rfl, faulty⟩
          · rintro ⟨rfl, same⟩
            exact ⟨rfl, Option.some.inj (faulty.symm.trans same)⟩

theorem firstFault?_eq_none_iff {properties : List Property} :
    catalogue.firstFault? path properties = none ↔
      ∀ property ∈ properties, catalogue.fault? path property = none := by
  induction properties with
  | nil => simp [firstFault?]
  | cons head tail ih =>
      rw [firstFault?, List.forall_mem_cons, ← ih]
      cases catalogue.fault? path head <;> simp

/-- A catalogue complains about a stored property, or about one that is missing. -/
theorem validate_eq_error {store : RestrictionStore} {error : AuthorizationError}
    (rejected : catalogue.validate path store = .error error) :
    (∃ property ∈ store.values, ∃ fault, catalogue.fault? path property = some fault ∧
      error = .invalidRestriction path property.name fault) ∨
    (∃ definition : RestrictionDefinition, store.find? definition.name = none ∧
      error = .invalidRestriction path definition.name .missing) := by
  rw [validate] at rejected
  split at rejected
  · rename_i property fault first
    cases rejected
    obtain ⟨listed, faulty⟩ := firstFault?_eq_some_iff.mp first
    exact .inl ⟨property, List.mem_of_find?_eq_some listed, fault, faulty, rfl⟩
  · split at rejected
    · rename_i definition absent
      cases rejected
      obtain ⟨_, -, found⟩ := Option.bind_eq_some_iff.mp absent
      have wanted := List.find?_some found
      simp only [Bool.and_eq_true, Option.isNone_iff_eq_none] at wanted
      exact .inr ⟨definition, wanted.2, rfl⟩
    · cases rejected

/-- Why a catalogue refuses to store a restriction, if it does. -/
def refusal? (catalogue : RestrictionCatalogue) (path : Option String)
    (restriction : Restriction) : Option AuthorizationError :=
  match catalogue.require path restriction.name with
  | .error error => some error
  | .ok definition =>
    if definition = restriction.definition then none
    else some (.invalidRestriction path restriction.name .definition)

/-- At a path a restriction is not refused if its definition is the one that counts. -/
theorem refusal?_eq_none_iff {place : String} :
    catalogue.refusal? (some place) restriction = none ↔
      catalogue.definition? restriction.name = some restriction.definition := by
  cases known : catalogue.definition? restriction.name with
  | none => simp [refusal?, require, known]
  | some definition => simp [refusal?, require, known]

/-- Writing a restriction stores its property, or leaves everything as it is. -/
theorem run_writeOne (catalogue : RestrictionCatalogue) (path : Option String)
    (restriction : Restriction) (store : RestrictionStore) :
    (catalogue.writeOne path restriction).run.run store =
      match catalogue.refusal? path restriction with
      | none => (.ok (), store.put restriction.property)
      | some error => (.error error, store) := by
  rw [writeOne, refusal?]
  cases catalogue.require path restriction.name with
  | error error => rfl
  | ok definition =>
      change (ite (definition = restriction.definition) (modify (·.put restriction.property))
        (throw _) : StoreStep Unit).run.run store = _
      split
      · rename_i same
        simp only [if_pos same]
        rfl
      · rename_i differs
        simp only [if_neg differs]
        rfl

/-- Writing goes on behind a restriction that is stored, and stops at one that is refused. -/
theorem run_write_cons (restrictions : List Restriction) (store : RestrictionStore) :
    (catalogue.write path (restriction :: restrictions)).run.run store =
      match catalogue.refusal? path restriction with
      | none => (catalogue.write path restrictions).run.run (store.put restriction.property)
      | some error => (.error error, store) := by
  rw [write, ExceptT.run_bind, StateT.run_bind, run_writeOne]
  cases catalogue.refusal? path restriction <;> rfl

/-- Restrictions of which none is refused are all stored. -/
theorem run_write_accepted {restrictions : List Restriction}
    (accepted : ∀ restriction ∈ restrictions, catalogue.refusal? path restriction = none)
    (store : RestrictionStore) :
    (catalogue.write path restrictions).run.run store = (.ok (), store.putAll restrictions) := by
  induction restrictions generalizing store with
  | nil => rfl
  | cons restriction restrictions ih =>
      obtain ⟨here, rest⟩ := List.forall_mem_cons.mp accepted
      rw [run_write_cons, here]
      exact ih rest _

/-- Restrictions before the first that is refused are stored, and none after it. -/
theorem run_write_refused {restrictions rest : List Restriction} {error : AuthorizationError}
    (accepted : ∀ restriction ∈ restrictions, catalogue.refusal? path restriction = none)
    (refused : catalogue.refusal? path restriction = some error) (store : RestrictionStore) :
    (catalogue.write path (restrictions ++ restriction :: rest)).run.run store =
      (.error error, store.putAll restrictions) := by
  induction restrictions generalizing store with
  | nil =>
      rw [List.nil_append, run_write_cons, refused]
      rfl
  | cons first restrictions ih =>
      obtain ⟨here, others⟩ := List.forall_mem_cons.mp accepted
      rw [List.cons_append, run_write_cons, here]
      exact ih others _

/-- The first of some restrictions that is not made under the catalogue's own definition. -/
def foreign? (catalogue : RestrictionCatalogue) (restrictions : List Restriction) :
    Option Restriction :=
  restrictions.find? fun restriction =>
    catalogue.definition? restriction.name ≠ some restriction.definition

/-- Storing restrictions that are stored already changes nothing. It ends with the first that is
not made under the catalogue's own definition. -/
theorem run_write_stored {restrictions : List Restriction} {store : RestrictionStore}
    {place : String} (proper : store.Proper)
    (stored : ∀ restriction ∈ restrictions,
      store.find? restriction.name = some restriction.property)
    (known : ∀ restriction ∈ restrictions, (catalogue.definition? restriction.name).isSome) :
    (catalogue.write (some place) restrictions).run.run store =
      (match catalogue.foreign? restrictions with
        | none => .ok ()
        | some restriction =>
          .error (.invalidRestriction (some place) restriction.name .definition), store) := by
  cases first : catalogue.foreign? restrictions with
  | none =>
      have accepted : ∀ restriction ∈ restrictions,
          catalogue.refusal? (some place) restriction = none := by
        intro restriction member
        have own := List.find?_eq_none.mp first restriction member
        exact refusal?_eq_none_iff.mpr (by simpa using own)
      rw [run_write_accepted accepted, proper.putAll_of_find? stored]
  | some restriction =>
      obtain ⟨foreign, before, after, rfl, own⟩ := List.find?_eq_some_iff_append.mp first
      have accepted : ∀ restriction ∈ before,
          catalogue.refusal? (some place) restriction = none :=
        fun restriction member => refusal?_eq_none_iff.mpr (by simpa using own restriction member)
      have refused : catalogue.refusal? (some place) restriction =
          some (.invalidRestriction (some place) restriction.name .definition) := by
        obtain ⟨definition, found⟩ := Option.isSome_iff_exists.mp (known restriction (by simp))
        have differs : definition ≠ restriction.definition := by simpa [found] using foreign
        simp [refusal?, require, found, differs]
      rw [run_write_refused accepted refused,
        proper.putAll_of_find? fun earlier member =>
          stored earlier (List.mem_append_left _ member)]

end RestrictionCatalogue

end Authorization
