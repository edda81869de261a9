import Authorization.Proofs.Restriction.Catalogue

/-!
# Judging entries by a catalogue

A catalogue accepts the entries that hold what is declared as it is declared (`WellFormed`). Of any
other entry it reports the least name whose stored property breaks its definition, and only where
none does so the least name of a mandatory definition without a property (`Judged`). Names are
compared by the code points of their characters, which is how their bytes in UTF-8 compare as well.
What is stored under names without a definition makes no difference (`entries_judged`).
-/

namespace Authorization

namespace Dictionary

variable {β : Type} {entries : Dictionary β} {test : β → Bool} {value : β}

/-- Whether the value under a key passes a test. -/
def Passes (entries : Dictionary β) (test : β → Bool) (key : String) : Prop :=
  ∃ value, entries.find? key = some value ∧ test value = true

/-- The first value to pass a test stands under the least key with one that does. -/
theorem find?_values_eq_some_iff (sorted : entries.Sorted) :
    entries.values.find? test = some value ↔ ∃ key, entries.find? key = some value ∧
      test value = true ∧ ∀ other < key, ¬entries.Passes test other := by
  rw [values, List.find?_map, Option.map_eq_some_iff]
  constructor
  · rintro ⟨⟨key, value⟩, first, rfl⟩
    obtain ⟨passes, before, after, rfl, failing⟩ := List.find?_eq_some_iff_append.mp first
    refine ⟨key, find?_of_mem sorted (by simp), passes, ?_⟩
    rintro other smaller ⟨earlier, found, passed⟩
    rcases List.mem_append.mp (mem_of_find? found) with member | member
    · simpa [passed] using failing _ member
    · rcases List.mem_cons.mp member with same | later
      · cases same
        exact absurd smaller (String.lt_irrefl _)
      · have above := (List.pairwise_append.mp sorted).2.1
        have larger : key < other := (List.pairwise_cons.mp above).1 _ later
        exact absurd (String.lt_trans smaller larger) (String.lt_irrefl _)
  · rintro ⟨key, found, passes, least⟩
    obtain ⟨before, after, rfl⟩ := List.append_of_mem (mem_of_find? found)
    refine ⟨(key, value), List.find?_eq_some_iff_append.mpr ⟨passes, before, after, rfl, ?_⟩, rfl⟩
    intro earlier member
    have smaller : earlier.1 < key :=
      (List.pairwise_append.mp sorted).2.2 _ member _ List.mem_cons_self
    have stored := find?_of_mem sorted (List.mem_append_left _ member)
    rw [Bool.not_eq_true']
    exact Bool.eq_false_iff.mpr fun passed => least _ smaller ⟨_, stored, passed⟩

theorem find?_values_eq_none_iff (sorted : entries.Sorted) :
    entries.values.find? test = none ↔ ∀ key, ¬entries.Passes test key := by
  rw [List.find?_eq_none]
  constructor
  · rintro failing key ⟨value, found, passed⟩
    exact failing value (List.mem_map.mpr ⟨_, mem_of_find? found, rfl⟩) passed
  · intro failing value member passed
    obtain ⟨⟨key, value⟩, listed, rfl⟩ := List.mem_map.mp member
    exact failing key ⟨value, find?_of_mem sorted listed, passed⟩

end Dictionary

namespace RestrictionCatalogue

variable {catalogue : RestrictionCatalogue} {definitions : List RestrictionDefinition}
  {definition : RestrictionDefinition} {path : Option String} {store : RestrictionStore}
  {property : Property} {name : String} {fault : RestrictionFault}

/-- What is wrong with a property under a definition: the first of the demands that it does not
meet, and among values of a wrong type the first. -/
inductive Breaks (definition : RestrictionDefinition) (property : Property) :
    Option String → RestrictionFault → Prop
  | repositoryLevel : Breaks definition property none .repositoryLevel
  | multiplicity {place : String} (differs : property.multiValued ≠ definition.multiValued) :
      Breaks definition property (some place) .multiplicity
  | type {place : String} {before after : List Value} {value : Value}
      (agrees : property.multiValued = definition.multiValued)
      (listed : property.values = before ++ value :: after)
      (typed : ∀ earlier ∈ before, earlier.type = definition.valueType)
      (wrong : value.type ≠ definition.valueType) :
      Breaks definition property (some place) (.type definition.valueType value.type)

/-- Whether a property is stored under a name with a definition that it breaks. -/
def Offends (catalogue : RestrictionCatalogue) (path : Option String) (store : RestrictionStore)
    (name : String) (fault : RestrictionFault) : Prop :=
  ∃ definition property, catalogue.definition? name = some definition ∧
    store.find? name = some property ∧ Breaks definition property path fault

/-- Whether nothing is stored under a name with a mandatory definition. -/
def Lacks (catalogue : RestrictionCatalogue) (store : RestrictionStore) (name : String) : Prop :=
  ∃ definition, catalogue.definition? name = some definition ∧ definition.mandatory = true ∧
    store.find? name = none

/-- Entries as a catalogue wants them: those of the repository as a whole hold nothing that is
declared, and those at a path hold it as declared and all of it that is mandatory. -/
inductive WellFormed (catalogue : RestrictionCatalogue) :
    Option String → RestrictionStore → Prop
  | unplaced {store : RestrictionStore}
      (undeclared : ∀ name property, store.find? name = some property →
        catalogue.definition? name = none) :
      WellFormed catalogue none store
  | placed {place : String} {store : RestrictionStore}
      (declared : ∀ name property definition, store.find? name = some property →
        catalogue.definition? name = some definition →
          property.multiValued = definition.multiValued ∧
            ∀ value ∈ property.values, value.type = definition.valueType)
      (mandatory : ∀ name definition, catalogue.definition? name = some definition →
        definition.mandatory = true → (store.find? name).isSome) :
      WellFormed catalogue (some place) store

/-- How an entry is judged. -/
inductive Judged (catalogue : RestrictionCatalogue) (path : Option String)
    (store : RestrictionStore) : Except AuthorizationError Unit → Prop
  | accepted (wellFormed : catalogue.WellFormed path store) : Judged catalogue path store (.ok ())
  | offending {name : String} {fault : RestrictionFault}
      (offends : catalogue.Offends path store name fault)
      (first : ∀ other < name, ∀ fault, ¬catalogue.Offends path store other fault) :
      Judged catalogue path store (.error (.invalidRestriction path name fault))
  | lacking {name : String} (placed : path.isSome)
      (sound : ∀ name fault, ¬catalogue.Offends path store name fault)
      (lacks : catalogue.Lacks store name)
      (first : ∀ other < name, ¬catalogue.Lacks store other) :
      Judged catalogue path store (.error (.invalidRestriction path name .missing))

/-- The fault is the first value of another type. -/
theorem typeFault?_eq_some_iff {values : List Value} :
    typeFault? definition values = some fault ↔ ∃ before value after,
      values = before ++ value :: after ∧
        (∀ earlier ∈ before, earlier.type = definition.valueType) ∧
        value.type ≠ definition.valueType ∧ fault = .type definition.valueType value.type := by
  rw [typeFault?, Option.map_eq_some_iff]
  constructor
  · rintro ⟨value, first, rfl⟩
    obtain ⟨wrong, before, after, listed, typed⟩ := List.find?_eq_some_iff_append.mp first
    exact ⟨before, value, after, listed, by simpa using typed, by simpa using wrong, rfl⟩
  · rintro ⟨before, value, after, listed, typed, wrong, rfl⟩
    exact ⟨value, List.find?_eq_some_iff_append.mpr
      ⟨by simpa using wrong, before, after, listed, by simpa using typed⟩, rfl⟩

/-- The faults of a property are the ways in which it breaks its definition. -/
theorem fault?_eq_some_iff (known : catalogue.definition? property.name = some definition) :
    catalogue.fault? path property = some fault ↔ Breaks definition property path fault := by
  rw [fault?, known, Option.bind_some]
  constructor
  · intro found
    cases path with
    | none =>
        cases found
        exact .repositoryLevel
    | some place =>
        rw [if_neg (by simp)] at found
        split at found
        · rename_i differs
          cases found
          exact .multiplicity differs
        · rename_i agrees
          obtain ⟨before, value, after, listed, typed, wrong, rfl⟩ :=
            typeFault?_eq_some_iff.mp found
          exact .type (by simpa using agrees) listed typed wrong
  · intro breaks
    cases breaks with
    | repositoryLevel => rfl
    | multiplicity differs => rw [if_neg (by simp), if_pos differs]
    | type agrees listed typed wrong =>
        rw [if_neg (by simp), if_neg (by simpa using agrees)]
        exact typeFault?_eq_some_iff.mpr ⟨_, _, _, listed, typed, wrong, rfl⟩

/-- A property offends if the catalogue finds a fault with it. -/
theorem offends_iff (proper : store.Proper) :
    catalogue.Offends path store name fault ↔
      ∃ property, store.find? name = some property ∧
        catalogue.fault? path property = some fault := by
  constructor
  · rintro ⟨definition, property, known, found, breaks⟩
    obtain rfl := proper.named found
    exact ⟨property, found, (fault?_eq_some_iff known).mpr breaks⟩
  · rintro ⟨property, found, faulty⟩
    obtain rfl := proper.named found
    cases known : catalogue.definition? property.name with
    | none => simp [fault?_of_unknown known] at faulty
    | some definition =>
        exact ⟨definition, property, known, found, (fault?_eq_some_iff known).mp faulty⟩

/-- No property offends under a name exactly if what is stored there has no fault. -/
theorem not_offends_iff (proper : store.Proper) :
    (∀ fault, ¬catalogue.Offends path store name fault) ↔
      ¬store.Passes (fun property => (catalogue.fault? path property).isSome) name := by
  simp only [offends_iff proper, Dictionary.Passes, Option.isSome_iff_exists]
  constructor
  · rintro sound ⟨property, found, fault, faulty⟩
    exact sound fault ⟨property, found, faulty⟩
  · rintro sound fault ⟨property, found, faulty⟩
    exact sound ⟨property, found, fault, faulty⟩

/-- The first fault found in a store is that of the least name that offends. -/
theorem firstFault?_values_eq_some_iff (proper : store.Proper) :
    (∃ property, property.name = name ∧
      catalogue.firstFault? path store.values = some (property, fault)) ↔
      catalogue.Offends path store name fault ∧
        ∀ other < name, ∀ fault, ¬catalogue.Offends path store other fault := by
  simp only [firstFault?_eq_some_iff, not_offends_iff proper,
    Dictionary.find?_values_eq_some_iff proper.sorted]
  rw [offends_iff proper]
  constructor
  · rintro ⟨property, rfl, ⟨key, found, -, least⟩, faulty⟩
    obtain rfl := proper.named found
    exact ⟨⟨property, found, faulty⟩, least⟩
  · rintro ⟨⟨property, found, faulty⟩, least⟩
    exact ⟨property, proper.named found, ⟨name, found, by simp [faulty], least⟩, faulty⟩

theorem firstFault?_values_eq_none_iff (proper : store.Proper) :
    catalogue.firstFault? path store.values = none ↔
      ∀ name fault, ¬catalogue.Offends path store name fault := by
  simp only [not_offends_iff proper, ← Dictionary.find?_values_eq_none_iff proper.sorted]
  rw [firstFault?_eq_none_iff, List.find?_eq_none]
  simp

/-- A store lacks what is mandatory and not there. -/
theorem lacks_iff : (ofList definitions).Lacks store name ↔
    (ofList definitions).definitions.Passes
      (fun definition => definition.mandatory && (store.find? definition.name).isNone) name := by
  simp only [Dictionary.Passes, Bool.and_eq_true, Option.isNone_iff_eq_none]
  constructor
  · rintro ⟨definition, known, mandatory, absent⟩
    obtain rfl := name_of_definition? known
    exact ⟨definition, known, mandatory, absent⟩
  · rintro ⟨definition, known, mandatory, absent⟩
    obtain rfl := name_of_definition? known
    exact ⟨definition, known, mandatory, absent⟩

/-- The definition found missing is that of the least name that is lacking. -/
theorem missing?_eq_some_iff (place : String) :
    (∃ definition, definition.name = name ∧
      (ofList definitions).missing? (some place) store = some definition) ↔
      (ofList definitions).Lacks store name ∧
        ∀ other < name, ¬(ofList definitions).Lacks store other := by
  have sorted : (ofList definitions).definitions.Sorted := Dictionary.sorted_ofList _
  simp only [missing?, Option.bind_some, Dictionary.find?_values_eq_some_iff sorted, lacks_iff]
  constructor
  · rintro ⟨definition, rfl, key, found, wanted, least⟩
    obtain rfl := name_of_definition? found
    exact ⟨⟨definition, found, wanted⟩, least⟩
  · rintro ⟨⟨definition, found, wanted⟩, least⟩
    exact ⟨definition, name_of_definition? found, name, found, wanted, least⟩

theorem missing?_eq_none_iff {place : String} :
    (ofList definitions).missing? (some place) store = none ↔
      ∀ name, ¬(ofList definitions).Lacks store name := by
  have sorted : (ofList definitions).definitions.Sorted := Dictionary.sorted_ofList _
  simp only [missing?, Option.bind_some, Dictionary.find?_values_eq_none_iff sorted, lacks_iff]

/-- A property that does not break its definition has the shape that this asks for. -/
theorem not_breaks_iff (known : catalogue.definition? property.name = some definition) :
    (∀ fault, ¬Breaks definition property path fault) ↔
      path.isSome ∧ property.multiValued = definition.multiValued ∧
        ∀ value ∈ property.values, value.type = definition.valueType := by
  simp only [← fault?_eq_none_iff known, ← fault?_eq_some_iff known,
    Option.eq_none_iff_forall_ne_some, ne_eq]

/-- An entry is well-formed if nothing in it offends and, at a path, nothing is lacking. -/
theorem wellFormed_iff (proper : store.Proper) :
    catalogue.WellFormed path store ↔ (∀ name fault, ¬catalogue.Offends path store name fault) ∧
      (path.isSome → ∀ name, ¬catalogue.Lacks store name) := by
  constructor
  · intro wellFormed
    cases wellFormed with
    | unplaced undeclared =>
        refine ⟨?_, by simp⟩
        rintro name fault ⟨definition, property, known, found, -⟩
        simp [undeclared name property found] at known
    | placed declared mandatory =>
        refine ⟨?_, ?_⟩
        · rintro name fault ⟨definition, property, known, found, breaks⟩
          obtain rfl := proper.named found
          exact (not_breaks_iff known).mpr ⟨rfl, declared _ _ _ found known⟩ fault breaks
        · rintro - name ⟨definition, known, wanted, absent⟩
          simpa [absent] using mandatory name definition known wanted
  · rintro ⟨sound, present⟩
    cases path with
    | none =>
        refine .unplaced fun name property found => ?_
        refine Option.eq_none_iff_forall_ne_some.mpr fun definition known => ?_
        exact sound name _ ⟨definition, property, known, found, .repositoryLevel⟩
    | some place =>
        refine .placed (fun name property definition found known => ?_)
          fun name definition known wanted => ?_
        · obtain rfl := proper.named found
          exact ((not_breaks_iff known).mp fun fault breaks =>
            sound _ fault ⟨definition, property, known, found, breaks⟩).2
        · exact Option.isSome_iff_ne_none.mpr fun absent =>
            present rfl name ⟨definition, known, wanted, absent⟩

/-- Validation judges entries as they are to be judged. -/
theorem validate_iff_judged (proper : store.Proper)
    {outcome : Except AuthorizationError Unit} :
    (ofList definitions).validate path store = outcome ↔
      (ofList definitions).Judged path store outcome := by
  constructor
  · rintro rfl
    unfold validate
    -- Properties are looked at first, so what is missing counts only if none of them offends.
    cases first : (ofList definitions).firstFault? path store.values with
    | some found =>
        obtain ⟨property, fault⟩ := found
        obtain ⟨offends, least⟩ :=
          (firstFault?_values_eq_some_iff proper).mp ⟨property, rfl, first⟩
        exact .offending offends least
    | none =>
        have sound := (firstFault?_values_eq_none_iff proper).mp first
        cases path with
        | none => exact .accepted ((wellFormed_iff proper).mpr ⟨sound, by simp⟩)
        | some place =>
            cases absent : (ofList definitions).missing? (some place) store with
            | none =>
                exact .accepted ((wellFormed_iff proper).mpr
                  ⟨sound, fun _ => missing?_eq_none_iff.mp absent⟩)
            | some definition =>
                obtain ⟨lacks, least⟩ := (missing?_eq_some_iff place).mp ⟨definition, rfl, absent⟩
                exact .lacking rfl sound lacks least
  · intro judged
    cases judged with
    | accepted wellFormed =>
        obtain ⟨sound, present⟩ := (wellFormed_iff proper).mp wellFormed
        rw [validate, (firstFault?_values_eq_none_iff proper).mpr sound]
        cases path with
        | none => rfl
        | some place => rw [missing?_eq_none_iff.mpr (present rfl)]
    | offending offends least =>
        obtain ⟨property, rfl, first⟩ :=
          (firstFault?_values_eq_some_iff proper).mpr ⟨offends, least⟩
        rw [validate, first]
    | lacking placed sound lacks least =>
        obtain ⟨place, rfl⟩ := Option.isSome_iff_exists.mp placed
        obtain ⟨definition, rfl, absent⟩ := (missing?_eq_some_iff place).mpr ⟨lacks, least⟩
        rw [validate, (firstFault?_values_eq_none_iff proper).mpr sound]
        simp only [absent]

/-- Entries that hold the same under the declared names are judged alike. -/
theorem Judged.of_agreeing {other : RestrictionStore} {outcome : Except AuthorizationError Unit}
    (proper : store.Proper) (properOther : other.Proper)
    (agreeing : ∀ name, (catalogue.definition? name).isSome → other.find? name = store.find? name)
    (judged : catalogue.Judged path store outcome) : catalogue.Judged path other outcome := by
  have offends name fault :
      catalogue.Offends path other name fault ↔ catalogue.Offends path store name fault := by
    refine exists_congr fun definition => exists_congr fun property => ?_
    exact and_congr_right fun known => by rw [agreeing name (by simp [known])]
  have lacks name : catalogue.Lacks other name ↔ catalogue.Lacks store name := by
    refine exists_congr fun definition => ?_
    exact and_congr_right fun known => by rw [agreeing name (by simp [known])]
  cases judged with
  | accepted wellFormed =>
      refine .accepted ((wellFormed_iff properOther).mpr ?_)
      simpa only [offends, lacks] using (wellFormed_iff proper).mp wellFormed
  | offending offended least =>
      exact .offending ((offends _ _).mpr offended) (by simpa only [offends] using least)
  | lacking placed sound lacking least =>
      exact .lacking placed (by simpa only [offends] using sound) ((lacks _).mpr lacking)
        (by simpa only [lacks] using least)

/-- **Validation by a catalogue.** A catalogue accepts exactly the well-formed entries, and judges
the others by the first name that offends, or by the first that is lacking if none offends. What is
stored under names that the catalogue does not know makes no difference. -/
theorem entries_judged (definitions : List RestrictionDefinition) (path : Option String)
    (proper : store.Proper) :
    ((ofList definitions).validate path store = .ok () ↔
      (ofList definitions).WellFormed path store) ∧
    (∀ outcome, (ofList definitions).validate path store = outcome ↔
      (ofList definitions).Judged path store outcome) ∧
    ∀ other : RestrictionStore, other.Proper →
      (∀ name, ((ofList definitions).definition? name).isSome →
        other.find? name = store.find? name) →
      (ofList definitions).validate path other = (ofList definitions).validate path store := by
  refine ⟨(validate_iff_judged proper).trans ⟨?_, .accepted⟩,
    fun outcome => validate_iff_judged proper, fun other properOther agreeing => ?_⟩
  · rintro ⟨wellFormed⟩
    exact wellFormed
  · exact (validate_iff_judged properOther).mpr
      (((validate_iff_judged proper).mp rfl).of_agreeing proper properOther agreeing)

/-- A wrong type is reported before a missing owner, and a note beside it is not looked at. -/
theorem number_for_glob_reported :
    let definitions : List RestrictionDefinition :=
      [{ name := "rep:glob", valueType := .string },
        { name := "owner", valueType := .name, mandatory := true }]
    let glob : Property := .single "rep:glob" (.long 1)
    let note : Property := .single "note" (.boolean true)
    let store : RestrictionStore := [(glob.name, glob)]
    let error : AuthorizationError :=
      .invalidRestriction (some "/docs") "rep:glob" (.type .string .long)
    store.Proper ∧ (store.put note).Proper ∧
      (ofList definitions).validate (some "/docs") store = .error error ∧
      (ofList definitions).Judged (some "/docs") store (.error error) ∧
      (ofList definitions).validate (some "/docs") (store.put note) = .error error ∧
      ¬(ofList definitions).WellFormed (some "/docs") store := by
  intro definitions glob note store error
  have proper : store.Proper := RestrictionStore.proper_singleton glob fun _ => rfl
  have properNote : (store.put note).Proper := proper.put fun _ => rfl
  have rejected : (ofList definitions).validate (some "/docs") store = .error error := rfl
  obtain ⟨accepted, judged, indifferent⟩ := entries_judged definitions (some "/docs") proper
  refine ⟨proper, properNote, rejected, (judged _).mp rejected, ?_, fun wellFormed => ?_⟩
  · refine (indifferent _ properNote fun name known => ?_).trans rejected
    rw [RestrictionStore.find?_put, if_neg]
    rintro rfl
    exact absurd known (by decide)
  · exact absurd (rejected.symm.trans (accepted.mpr wellFormed)) (by simp)

end RestrictionCatalogue

end Authorization
