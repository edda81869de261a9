import Authorization.Proofs.Restriction.Flattening

/-!
# Storing restrictions and reading them back

Restrictions that a composite has made survive being stored if its sources define different names
(`stored_of_made`). If two sources define a name differently, a restriction is read for each of the
two definitions, but only one made under the definition of the first source can be written, so
writing what has been read fails there (`written_back`).
-/

namespace Authorization

namespace RestrictionSource

/-- The names that a source has definitions of. -/
def names (source : RestrictionSource) : List String :=
  source.definitions.map RestrictionDefinition.name

variable {sources : List RestrictionSource} {source : RestrictionSource} {name : String}
  {definition : RestrictionDefinition}

theorem mem_names (found : source.catalogue.definition? name = some definition) :
    name ∈ source.names := by
  rw [catalogue, RestrictionCatalogue.definition?_ofList] at found
  exact List.mem_map.mpr
    ⟨definition, List.mem_reverse.mp (List.mem_of_find?_eq_some found),
      by simpa using List.find?_some found⟩

theorem exists_source_of_joint (found : (joint sources).definition? name = some definition) :
    ∃ source ∈ sources, source.catalogue.definition? name = some definition := by
  rw [joint, RestrictionCatalogue.definition?_joint] at found
  exact List.exists_of_findSome?_eq_some found

theorem joint_isSome (member : source ∈ sources)
    (found : source.catalogue.definition? name = some definition) :
    ((joint sources).definition? name).isSome := by
  rw [joint, RestrictionCatalogue.definition?_joint, List.findSome?_isSome_iff]
  exact ⟨source, member, Option.isSome_iff_exists.mpr ⟨definition, found⟩⟩

/-- The first of some restrictions that is not made under the definition of the first source that
defines its name. -/
def foreign? (sources : List RestrictionSource) (restrictions : List Restriction) :
    Option Restriction :=
  restrictions.find? fun restriction =>
    (sources.findSome? fun source => source.catalogue.definition? restriction.name) ≠
      some restriction.definition

theorem foreign?_joint (restrictions : List Restriction) :
    (joint sources).foreign? restrictions = foreign? sources restrictions := by
  unfold RestrictionCatalogue.foreign?
  simp only [joint, RestrictionCatalogue.definition?_joint]
  rfl

/-- Sources that define different names all have the say about their own. -/
theorem joint_of_distinct
    (distinct : sources.Pairwise fun first second => first.names.Disjoint second.names)
    (member : source ∈ sources)
    (found : source.catalogue.definition? name = some definition) :
    (joint sources).definition? name = some definition := by
  obtain ⟨before, after, rfl⟩ := List.append_of_mem member
  rw [joint, RestrictionCatalogue.definition?_joint]
  refine List.findSome?_eq_some_iff.mpr ⟨before, source, after, rfl, found, ?_⟩
  intro other earlier
  have apart := (List.pairwise_append.mp distinct).2.2 other earlier source List.mem_cons_self
  refine Option.eq_none_iff_forall_ne_some.mpr fun rival defined => ?_
  exact apart (mem_names defined) (mem_names found)

end RestrictionSource

namespace RestrictionService

/-- Whether a restriction is one that a service makes from a value or from values. -/
inductive Makes (service : RestrictionService) (path : Option String) : Restriction → Prop where
  | one {name value restriction} (made : service.create path name value = .ok restriction) :
      Makes service path restriction
  | several {name values restriction}
      (made : service.createMulti path name values = .ok restriction) :
      Makes service path restriction

namespace Joins

open RestrictionSource (joint)

variable {service : RestrictionService} {sources : List RestrictionSource} {path : String}
  {store : RestrictionStore} {restriction : Restriction} {definition : RestrictionDefinition}

theorem mem_supported_iff (joins : service.Joins sources) :
    definition ∈ service.supported (some path) ↔
      ∃ source ∈ sources, source.catalogue.definition? definition.name = some definition := by
  simp only [joins.supported, OrderedSet.mem_ofList, List.mem_flatMap, RestrictionSource.supported,
    RestrictionCatalogue.mem_supported_iff, Option.isSome_some, true_and]
  rfl

/-- A service reads what is stored under a name, once for each definition that it supports. -/
theorem mem_read_iff (joins : service.Joins sources) :
    restriction ∈ service.read (some path) store ↔
      restriction.definition ∈ service.supported (some path) ∧
        store.find? restriction.name = some restriction.property := by
  rw [joins.mem_supported_iff]
  simp only [joins.read, OrderedSet.mem_ofList, List.mem_flatMap, RestrictionSource.read,
    RestrictionCatalogue.mem_read_iff, Option.isSome_some, true_and]
  constructor
  · rintro ⟨source, member, known, found⟩
    exact ⟨⟨source, member, known⟩, found⟩
  · rintro ⟨⟨source, member, known⟩, found⟩
    exact ⟨source, member, known, found⟩

/-- What a service makes fits the joint definitions. -/
theorem fits (joins : service.Joins sources) (made : service.Makes (some path) restriction) :
    (joint sources).Fits restriction := by
  cases made with
  | one made =>
      rw [joins.follows.create] at made
      exact .of_create made
  | several made =>
      rw [joins.follows.createMulti] at made
      exact .of_createMulti made

end Joins

end RestrictionService

/-- If a catalogue finds no fault with restrictions that have been written, it rejects the entry for
something else. -/
theorem RestrictionCatalogue.unwritten_of_error (catalogue : RestrictionCatalogue)
    {path : Option String} {before : RestrictionStore} {restrictions : List Restriction}
    (named : ∀ restriction ∈ restrictions, restriction.property.name = restriction.name)
    (whole : (before.putAll restrictions).Proper)
    (faultless : ∀ restriction ∈ restrictions, catalogue.fault? path restriction.property = none)
    {error : AuthorizationError}
    (rejected : catalogue.validate path (before.putAll restrictions) = .error error) :
    ∃ name fault, error = .invalidRestriction path name fault ∧
      ∀ restriction ∈ restrictions, restriction.name ≠ name := by
  rcases validate_eq_error rejected with
    ⟨property, member, fault, faulty, rfl⟩ | ⟨definition, absent, rfl⟩
  · refine ⟨_, _, rfl, Restriction.last?_eq_none_iff.mp ?_⟩
    have held := whole.mem_values_iff.mp member
    rw [RestrictionStore.find?_putAll named] at held
    -- What is stored under a name that has been written is the last restriction of that name.
    cases last : Restriction.last? restrictions property.name with
    | none => rfl
    | some written =>
        have same : written.property = property := by simpa [last] using held
        have sound := faultless written (Restriction.mem_of_last? last).1
        rw [same, faulty] at sound
        cases sound
  · refine ⟨_, _, rfl, Restriction.last?_eq_none_iff.mp ?_⟩
    rw [RestrictionStore.find?_putAll named] at absent
    exact Option.map_eq_none_iff.mp (Option.or_eq_none_iff.mp absent).1

/-- What holds of the store `after` some restrictions have been written into the store `before`:
the last restriction of each name is read back, nothing else has changed, and no source finds fault
with what was written. -/
structure RestrictionService.Stored (service : RestrictionService)
    (sources : List RestrictionSource) (path : String) (restrictions : List Restriction)
    (before after : RestrictionStore) : Prop where
  read : ∀ restriction, restriction ∈ service.read (some path) after ↔
    match Restriction.last? restrictions restriction.name with
    | some written => restriction = written
    | none => restriction.definition ∈ service.supported (some path) ∧
        before.find? restriction.name = some restriction.property
  unchanged : ∀ name, (∀ restriction ∈ restrictions, restriction.name ≠ name) →
    after.find? name = before.find? name
  faultless : ∀ source ∈ sources, ∀ restriction ∈ restrictions,
    source.catalogue.fault? (some path) restriction.property = none
  /-- What a source rejects the entry for has not been written. -/
  accepted : ∀ source ∈ sources, ∀ error,
    source.catalogue.validate (some path) after = .error error →
      ∃ name fault, error = .invalidRestriction (some path) name fault ∧
        ∀ restriction ∈ restrictions, restriction.name ≠ name

section Distinct

open RestrictionSource (joint joint_of_distinct)

variable {sources : List RestrictionSource}
  (distinct : sources.Pairwise fun first second => first.names.Disjoint second.names)

include distinct

/-- What fits a definition of one source has no fault in the eyes of any other source. -/
theorem RestrictionSource.fault?_of_fits {source : RestrictionSource} {restriction : Restriction}
    (fits : (joint sources).Fits restriction) (member : source ∈ sources) (path : String) :
    source.catalogue.fault? (some path) restriction.property = none := by
  cases known : source.catalogue.definition? restriction.name with
  | none => exact RestrictionCatalogue.fault?_of_unknown (fits.named.symm ▸ known)
  | some definition =>
      have say := joint_of_distinct distinct member known
      have own : definition = restriction.definition :=
        Option.some.inj (say.symm.trans fits.defined)
      have alone : source.catalogue.Fits restriction := { fits with defined := own ▸ known }
      exact alone.fault?_eq_none path

namespace RestrictionService.Joins

variable {service : RestrictionService} (joins : service.Joins sources) {path : String}
  {before : RestrictionStore} {restrictions : List Restriction}

include joins

/-- Under the name of a restriction that fits, only its own definition is supported. -/
theorem supported_of_fits {restriction : Restriction} {definition : RestrictionDefinition}
    (fits : (joint sources).Fits restriction) (named : definition.name = restriction.name) :
    definition ∈ service.supported (some path) ↔ definition = restriction.definition := by
  rw [joins.mem_supported_iff]
  constructor
  · rintro ⟨source, member, known⟩
    have say := joint_of_distinct distinct member known
    rw [named] at say
    exact Option.some.inj (say.symm.trans fits.defined)
  · rintro rfl
    exact RestrictionSource.exists_source_of_joint fits.defined

/-- After restrictions are stored, the last of each name is read, and of other names what was stored
before. -/
theorem mem_read_putAll_iff
    (fits : ∀ restriction ∈ restrictions, (joint sources).Fits restriction)
    (restriction : Restriction) :
    restriction ∈ service.read (some path) (before.putAll restrictions) ↔
      match Restriction.last? restrictions restriction.name with
      | some written => restriction = written
      | none => restriction.definition ∈ service.supported (some path) ∧
          before.find? restriction.name = some restriction.property := by
  rw [joins.mem_read_iff, RestrictionStore.find?_putAll fun written member =>
    (fits written member).named]
  cases last : Restriction.last? restrictions restriction.name with
  | none => rfl
  | some written =>
      obtain ⟨member, named⟩ := Restriction.mem_of_last? last
      rw [joins.supported_of_fits distinct (fits written member) named.symm]
      obtain ⟨definition, property⟩ := restriction
      obtain ⟨own, held⟩ := written
      simp [eq_comm]

/-- Restrictions that a service has made, each under a name that one source defines, survive being
written. -/
theorem stored (proper : before.Proper)
    (made : ∀ restriction ∈ restrictions, service.Makes (some path) restriction) :
    ∃ after, (service.write (some path) restrictions).run.run before = (.ok (), after) ∧
      service.Stored sources path restrictions before after := by
  have fits restriction (member : restriction ∈ restrictions) :=
    joins.fits (made restriction member)
  have named restriction (member : restriction ∈ restrictions) :=
    (fits restriction member).named
  have faultless source (present : source ∈ sources) restriction
      (member : restriction ∈ restrictions) :=
    RestrictionSource.fault?_of_fits distinct (fits restriction member) present path
  have whole : (before.putAll restrictions).Proper :=
    proper.putAll fun restriction member => (fits restriction member).single
  refine ⟨before.putAll restrictions, ?_, ?_⟩
  · rw [joins.follows.write]
    exact RestrictionCatalogue.run_write_accepted (fun restriction member =>
      RestrictionCatalogue.refusal?_eq_none_iff.mpr (fits restriction member).defined) before
  · refine ⟨joins.mem_read_putAll_iff distinct fits, ?_, faultless, ?_⟩
    · intro name unwritten
      rw [RestrictionStore.find?_putAll named, Restriction.last?_eq_none_iff.mpr unwritten]
      rfl
    · intro source present error rejected
      exact source.catalogue.unwritten_of_error named whole (faultless source present) rejected

end RestrictionService.Joins

end Distinct

namespace RestrictionService.Joins

open RestrictionSource (joint)

variable {service : RestrictionService} {sources : List RestrictionSource} {path : String}
  {store : RestrictionStore}

/-- Writing what has been read changes nothing, and ends with the first restriction that another
source than the one it was read by has the say about. -/
theorem run_write_read (joins : service.Joins sources) (proper : store.Proper) :
    (service.write (some path) (service.read (some path) store)).run.run store =
      (match RestrictionSource.foreign? sources (service.read (some path) store) with
        | none => .ok ()
        | some restriction =>
          .error (.invalidRestriction (some path) restriction.name .definition), store) := by
  rw [joins.follows.write, ← RestrictionSource.foreign?_joint]
  refine RestrictionCatalogue.run_write_stored proper (fun restriction member => ?_)
    fun restriction member => ?_
  · exact (joins.mem_read_iff.mp member).2
  · obtain ⟨source, present, known⟩ :=
      joins.mem_supported_iff.mp (joins.mem_read_iff.mp member).1
    exact RestrictionSource.joint_isSome present known

/-- Everything that has been read can be written if no two sources differ about a stored name. -/
theorem foreign?_read_eq_none_iff (joins : service.Joins sources) :
    RestrictionSource.foreign? sources (service.read (some path) store) = none ↔
      ∀ first ∈ sources, ∀ second ∈ sources, ∀ name, (store.find? name).isSome →
        ∀ one other, first.catalogue.definition? name = some one →
          second.catalogue.definition? name = some other → one = other := by
  rw [← RestrictionSource.foreign?_joint, RestrictionCatalogue.foreign?, List.find?_eq_none]
  simp only [ne_eq, decide_not, Bool.not_eq_true', decide_eq_false_iff_not, not_not]
  constructor
  · intro own first present second there name held one other known differently
    obtain ⟨property, found⟩ := Option.isSome_iff_exists.mp held
    have say source (listed : source ∈ sources) definition
        (defined : source.catalogue.definition? name = some definition) :
        (joint sources).definition? name = some definition := by
      have named : definition.name = name := RestrictionCatalogue.name_of_definition? defined
      subst named
      exact own ⟨definition, property⟩
        (joins.mem_read_iff.mpr ⟨joins.mem_supported_iff.mpr ⟨source, listed, defined⟩, found⟩)
    exact Option.some.inj
      ((say first present one known).symm.trans (say second there other differently))
  · intro agreed restriction member
    obtain ⟨supported, found⟩ := joins.mem_read_iff.mp member
    obtain ⟨source, present, known⟩ := joins.mem_supported_iff.mp supported
    obtain ⟨definition, say⟩ :=
      Option.isSome_iff_exists.mp (RestrictionSource.joint_isSome present known)
    obtain ⟨first, there, defined⟩ := RestrictionSource.exists_source_of_joint say
    have same : definition = restriction.definition :=
      agreed first there source present restriction.name (by rw [found]; rfl) _ _ defined known
    exact same ▸ say

end RestrictionService.Joins

namespace RestrictionArrangement

variable {path : String}

/-- Restrictions that an arrangement of sources with different names has made are written, read
back as the last of their names, and accepted by every source. -/
theorem stored_of_made (arrangement : RestrictionArrangement RestrictionSource)
    (distinct : arrangement.leaves.Pairwise fun first second =>
      first.names.Disjoint second.names)
    {before : RestrictionStore} (proper : before.Proper) {restrictions : List Restriction}
    (made : ∀ restriction ∈ restrictions,
      (arrangement.service RestrictionSource.service).Makes (some path) restriction) :
    ∃ after, ((arrangement.service RestrictionSource.service).write
        (some path) restrictions).run.run before = (.ok (), after) ∧
      (arrangement.service RestrictionSource.service).Stored arrangement.leaves path restrictions
        before after :=
  arrangement.joins_leaves.stored distinct proper made

section Standard

/-- Globs, and item names in a composite of their own. -/
def nestedStandard : RestrictionArrangement RestrictionSource :=
  .composite 1 [.leaf .glob, .composite 0 [.leaf (.itemNames none), .leaf .empty]]

/-- The restriction to the items of one name. -/
def onlyNamed (name : String) : Restriction :=
  ⟨ItemNamesRestriction.definition, ⟨"rep:itemNames", [.name name], true⟩⟩

/-- Of two restrictions to names the last is read back, and the glob stays. -/
theorem final_name_read_back :
    ∃ after, ((nestedStandard.service RestrictionSource.service).write (some "/docs")
        [onlyNamed "draft", onlyNamed "final"]).run.run
          [("rep:glob", ⟨"rep:glob", [.string "/*"], false⟩)] = (.ok (), after) ∧
      (∀ restriction, restriction.name = "rep:itemNames" →
        (restriction ∈
            (nestedStandard.service RestrictionSource.service).read (some "/docs") after ↔
          restriction = onlyNamed "final")) ∧
      after.find? "rep:glob" = some ⟨"rep:glob", [.string "/*"], false⟩ := by
  have distinct : nestedStandard.leaves.Pairwise fun first second =>
      first.names.Disjoint second.names := by
    change List.Pairwise _ [RestrictionSource.glob, .itemNames none, .empty]
    simp [RestrictionSource.names, RestrictionSource.glob, RestrictionSource.itemNames,
      RestrictionSource.ofCatalogue, RestrictionSource.empty, GlobRestriction.key,
      ItemNamesRestriction.definition, ItemNamesRestriction.key]
  have proper := RestrictionStore.proper_singleton ⟨"rep:glob", [.string "/*"], false⟩ fun _ => rfl
  have made : ∀ restriction ∈ [onlyNamed "draft", onlyNamed "final"],
      (nestedStandard.service RestrictionSource.service).Makes (some "/docs") restriction := by
    refine List.forall_mem_cons.mpr ⟨?_, List.forall_mem_singleton.mpr ?_⟩
    · exact @RestrictionService.Makes.one _ _ "rep:itemNames" (.name "draft") _ rfl
    · exact @RestrictionService.Makes.several _ _ "rep:itemNames" [.name "final"] _ rfl
  obtain ⟨after, written, stored⟩ := stored_of_made nestedStandard distinct proper made
  refine ⟨after, written, fun restriction named => ?_, stored.unchanged "rep:glob" (by decide)⟩
  have read := stored.read restriction
  rw [named] at read
  exact read

end Standard

/-- What a composite reads can be written back, with no change, unless two of its sources differ
about a stored name. Then writing fails with the first restriction that is not made under the
definition of the first source that defines its name. -/
theorem written_back (sources : List RestrictionSource) (id : Nat) {store : RestrictionStore}
    (proper : store.Proper) :
    let service := (collapse id (sources.map .leaf)).service RestrictionSource.service
    let held := service.read (some path) store
    (service.write (some path) held).run.run store =
      (match RestrictionSource.foreign? sources held with
        | none => .ok ()
        | some restriction =>
          .error (.invalidRestriction (some path) restriction.name .definition), store) ∧
    (RestrictionSource.foreign? sources held = none ↔
      ∀ first ∈ sources, ∀ second ∈ sources, ∀ name, (store.find? name).isSome →
        ∀ one other, first.catalogue.definition? name = some one →
          second.catalogue.definition? name = some other → one = other) := by
  intro service held
  have joins : service.Joins sources := joins_collapse id sources
  exact ⟨joins.run_write_read proper, joins.foreign?_read_eq_none_iff⟩

section Disputed

/-- A source that defines one name. -/
def labels (name : String) (valueType : ValueType) : RestrictionSource :=
  .declaring "labels" [⟨name, valueType, false, false⟩] .all none trivial

/-- Three sources, the first two of which define `kind` differently. -/
def disputing : List RestrictionSource :=
  [labels "kind" .string, labels "kind" .name, labels "owner" .string]

/-- As long as the disputed name is not stored, everything can be written back. -/
theorem owner_written_back :
    (let service := (collapse 0 (disputing.map .leaf)).service RestrictionSource.service
    let store : RestrictionStore := [("owner", ⟨"owner", [.string "ann"], false⟩)]
    (service.write (some "/docs") (service.read (some "/docs") store)).run.run store =
      (.ok (), store)) := by
  have proper := RestrictionStore.proper_singleton ⟨"owner", [.string "ann"], false⟩ fun _ => rfl
  exact (@written_back "/docs" disputing 0 _ proper).1

/-- The restriction of the disputed name that the second source has read cannot be written back. -/
theorem kind_not_written_back :
    (let service := (collapse 0 (disputing.map .leaf)).service RestrictionSource.service
    let store : RestrictionStore := [("kind", ⟨"kind", [.string "note"], false⟩)]
    (service.write (some "/docs") (service.read (some "/docs") store)).run.run store =
      (.error (.invalidRestriction (some "/docs") "kind" .definition), store)) := rfl

end Disputed

end RestrictionArrangement

end Authorization
