import Authorization.Proofs.Restriction.Flattening
import Authorization.Proofs.Restriction.Routing

/-!
# Writes that fail midway

A composite refuses a restriction that none of its sources declares, and one that the first source
to declare its name declares in another way (`Refuse`). A write ends with the first restriction
that is refused. What precedes it has been stored as by a write of its own, and nothing else
(`write_stops_at_refused`).
-/

namespace Authorization

namespace RestrictionCatalogue

variable {catalogue : RestrictionCatalogue} {path : Option String}
  {restrictions : List Restriction} {before after : RestrictionStore} {error : AuthorizationError}

/-- Either no restriction of a list is refused, or there is a first one. -/
theorem accepted_or_refused (catalogue : RestrictionCatalogue) (path : Option String)
    (restrictions : List Restriction) :
    (∀ restriction ∈ restrictions, catalogue.refusal? path restriction = none) ∨
      ∃ stored refused rest error, restrictions = stored ++ refused :: rest ∧
        (∀ earlier ∈ stored, catalogue.refusal? path earlier = none) ∧
        catalogue.refusal? path refused = some error := by
  cases first : restrictions.find? fun restriction =>
      (catalogue.refusal? path restriction).isSome with
  | none => exact .inl (by simpa using List.find?_eq_none.mp first)
  | some refused =>
      obtain ⟨reason, stored, rest, listed, earlier⟩ := List.find?_eq_some_iff_append.mp first
      obtain ⟨error, reason⟩ := Option.isSome_iff_exists.mp reason
      exact .inr ⟨stored, refused, rest, error, listed, by simpa using earlier, reason⟩

/-- Writing succeeds exactly if no restriction is refused, and then all are stored. -/
theorem run_write_eq_ok_iff :
    (catalogue.write path restrictions).run.run before = (.ok (), after) ↔
      (∀ restriction ∈ restrictions, catalogue.refusal? path restriction = none) ∧
        after = before.putAll restrictions := by
  constructor
  · intro succeeded
    rcases catalogue.accepted_or_refused path restrictions with
      accepted | ⟨stored, refused, rest, error, rfl, accepted, reason⟩
    · rw [run_write_accepted accepted] at succeeded
      cases succeeded
      exact ⟨accepted, rfl⟩
    · rw [run_write_refused accepted reason] at succeeded
      cases succeeded
  · rintro ⟨accepted, rfl⟩
    exact run_write_accepted accepted before

/-- A write fails with the first restriction that is refused, after it has stored those before. -/
theorem run_write_eq_error_iff :
    (catalogue.write path restrictions).run.run before = (.error error, after) ↔
      ∃ stored refused rest, restrictions = stored ++ refused :: rest ∧
        (catalogue.write path stored).run.run before = (.ok (), after) ∧
        catalogue.refusal? path refused = some error := by
  constructor
  · intro failed
    rcases catalogue.accepted_or_refused path restrictions with
      accepted | ⟨stored, refused, rest, fault, rfl, accepted, reason⟩
    · rw [run_write_accepted accepted] at failed
      cases failed
    · rw [run_write_refused accepted reason] at failed
      cases failed
      exact ⟨stored, refused, rest, rfl, run_write_accepted accepted before, reason⟩
  · rintro ⟨stored, refused, rest, rfl, succeeded, reason⟩
    obtain ⟨accepted, rfl⟩ := run_write_eq_ok_iff.mp succeeded
    exact run_write_refused accepted reason before

end RestrictionCatalogue

namespace RestrictionSource

variable {sources : List RestrictionSource} {path : Option String} {name : String}
  {definition : RestrictionDefinition} {restriction : Restriction}
  {error : AuthorizationError}

/-- The error with which sources together refuse to store a restriction: none of them declares its
name, or the first that does holds another definition. -/
inductive Refuse (sources : List RestrictionSource) (path : Option String)
    (restriction : Restriction) : AuthorizationError → Prop
  | undeclared
      (silent : ∀ source ∈ sources, source.service.declares path restriction.name = false) :
      Refuse sources path restriction (.unsupportedRestriction path restriction.name)
  | foreign {source : RestrictionSource} {definition : RestrictionDefinition}
      (first : sources.find? (fun source => source.service.declares path restriction.name) =
        some source)
      (known : source.catalogue.definition? restriction.name = some definition)
      (differs : definition ≠ restriction.definition) :
      Refuse sources path restriction (.invalidRestriction path restriction.name .definition)

/-- A name is declared by one of the sources if their definitions have it. -/
theorem declares_joint_iff :
    (∃ source ∈ sources, source.service.declares path name = true) ↔
      path.isSome ∧ ((joint sources).definition? name).isSome := by
  simp only [(follows _).declares, joint, RestrictionCatalogue.definition?_joint,
    List.findSome?_isSome_iff]
  constructor
  · rintro ⟨source, member, placed, known⟩
    exact ⟨placed, source, member, known⟩
  · rintro ⟨placed, source, member, known⟩
    exact ⟨source, member, placed, known⟩

theorem require_joint_eq_error_iff :
    (joint sources).require path name = .error error ↔
      (∀ source ∈ sources, source.service.declares path name = false) ∧
        error = .unsupportedRestriction path name := by
  have silent_iff : (∀ source ∈ sources, source.service.declares path name = false) ↔
      ¬(path.isSome ∧ ((joint sources).definition? name).isSome) := by
    rw [← declares_joint_iff]
    simp
  rw [silent_iff]
  constructor
  · intro failed
    have absent : ¬(path.isSome ∧ ((joint sources).definition? name).isSome) := by
      rintro ⟨placed, known⟩
      obtain ⟨definition, found⟩ := Option.isSome_iff_exists.mp known
      rw [RestrictionCatalogue.require_eq_ok_iff.mpr ⟨placed, found⟩] at failed
      cases failed
    rw [RestrictionCatalogue.require_eq_error absent] at failed
    cases failed
    exact ⟨absent, rfl⟩
  · rintro ⟨absent, rfl⟩
    exact RestrictionCatalogue.require_eq_error absent

/-- The definition that sources together require is that of the first to declare the name. -/
theorem require_joint_eq_ok_iff :
    (joint sources).require path name = .ok definition ↔
      ∃ source, sources.find? (fun source => source.service.declares path name) = some source ∧
        source.catalogue.definition? name = some definition := by
  rw [RestrictionCatalogue.require_eq_ok_iff, joint, RestrictionCatalogue.definition?_joint,
    findSome?_eq_some_iff_find?]
  have declares (source : RestrictionSource) : source.service.declares path name =
      (path.isSome && (source.catalogue.definition? name).isSome) :=
    Bool.eq_iff_iff.mpr (by rw [source.follows.declares, Bool.and_eq_true])
  simp only [declares]
  cases path with
  | none =>
      have nowhere : sources.find? (fun _ => false) = none := List.find?_eq_none.mpr (by simp)
      simp [nowhere]
  | some place =>
      simp only [Option.isSome_some, Bool.true_and, true_and]
      rfl

/-- The joint definitions refuse a restriction for the reason that the sources have. -/
theorem refusal?_joint_eq_some_iff :
    (joint sources).refusal? path restriction = some error ↔
      Refuse sources path restriction error := by
  rw [RestrictionCatalogue.refusal?]
  cases required : (joint sources).require path restriction.name with
  | error fault =>
      obtain ⟨silent, rfl⟩ := require_joint_eq_error_iff.mp required
      constructor
      · rintro ⟨⟩
        exact .undeclared silent
      · rintro (_ | ⟨first, _, _⟩)
        · rfl
        · simpa [silent _ (List.mem_of_find?_eq_some first)] using List.find?_some first
  | ok definition =>
      obtain ⟨source, first, known⟩ := require_joint_eq_ok_iff.mp required
      have loud := List.find?_some first
      constructor
      · intro refused
        obtain ⟨differs, ⟨⟩⟩ := Option.ite_none_left_eq_some.mp refused
        exact .foreign first known differs
      · rintro (silent | ⟨other, found, differs⟩)
        · rw [silent source (List.mem_of_find?_eq_some first)] at loud
          cases loud
        · obtain rfl := Option.some.inj (first.symm.trans other)
          obtain rfl := Option.some.inj (known.symm.trans found)
          exact if_neg differs

theorem refusal?_joint_eq_none_iff :
    (joint sources).refusal? path restriction = none ↔
      ∀ error, ¬Refuse sources path restriction error := by
  simp only [← refusal?_joint_eq_some_iff, Option.eq_none_iff_forall_ne_some, ne_eq]

end RestrictionSource

namespace RestrictionService.Joins

open RestrictionSource (Refuse refusal?_joint_eq_some_iff refusal?_joint_eq_none_iff)

variable {service : RestrictionService} {sources : List RestrictionSource} {path : Option String}
  {restrictions : List Restriction} {before after : RestrictionStore} {error : AuthorizationError}

theorem run_write_eq_ok_iff (joins : service.Joins sources) :
    (service.write path restrictions).run.run before = (.ok (), after) ↔
      (∀ restriction ∈ restrictions, ∀ fault, ¬Refuse sources path restriction fault) ∧
        after = before.putAll restrictions := by
  rw [joins.follows.write, RestrictionCatalogue.run_write_eq_ok_iff]
  simp only [refusal?_joint_eq_none_iff]

/-- A service stops at the first restriction that the sources refuse, and keeps what it has
stored. -/
theorem run_write_eq_error_iff (joins : service.Joins sources) :
    (service.write path restrictions).run.run before = (.error error, after) ↔
      ∃ stored first rest, restrictions = stored ++ first :: rest ∧
        (service.write path stored).run.run before = (.ok (), after) ∧
        Refuse sources path first error := by
  rw [joins.follows.write, RestrictionCatalogue.run_write_eq_error_iff]
  simp only [refusal?_joint_eq_some_iff]

/-- A write of one restriction that is refused changes nothing. -/
theorem run_write_singleton (joins : service.Joins sources) {restriction : Restriction}
    (refuse : Refuse sources path restriction error) (store : RestrictionStore) :
    (service.write path [restriction]).run.run store = (.error error, store) := by
  rw [joins.follows.write, RestrictionCatalogue.run_write_cons,
    refusal?_joint_eq_some_iff.mpr refuse]

end RestrictionService.Joins

namespace RestrictionArrangement

/-- **Exactly what precedes the first refused restriction is stored.** However composites are
nested, and whatever names their sources share, a write fails if and only if one of its restrictions
is refused. It then ends with the error of the first of these alone, and the entry is left as by a
successful write of the restrictions before. If none is refused, all are stored. -/
theorem write_stops_at_refused
    (arrangement : RestrictionArrangement RestrictionSource) (path : Option String)
    (restrictions : List Restriction) (before : RestrictionStore) :
    let write := fun restrictions =>
      ((arrangement.service RestrictionSource.service).write path restrictions).run.run
    let refused := RestrictionSource.Refuse arrangement.leaves path
    (∀ error after, write restrictions before = (.error error, after) ↔
      ∃ stored first rest, restrictions = stored ++ first :: rest ∧
        (∀ earlier ∈ stored, ∀ fault, ¬refused earlier fault) ∧
        refused first error ∧ (∀ store, write [first] store = (.error error, store)) ∧
        write stored before = (.ok (), after)) ∧
    ((∀ restriction ∈ restrictions, ∀ fault, ¬refused restriction fault) ↔
      write restrictions before = (.ok (), before.putAll restrictions)) := by
  intro write refused
  have joins := arrangement.joins_leaves
  refine ⟨fun error after => ?_, ?_⟩
  · rw [joins.run_write_eq_error_iff]
    constructor
    · rintro ⟨stored, first, rest, listed, succeeded, refuse⟩
      exact ⟨stored, first, rest, listed, (joins.run_write_eq_ok_iff.mp succeeded).1, refuse,
        joins.run_write_singleton refuse, succeeded⟩
    · rintro ⟨stored, first, rest, listed, -, refuse, -, succeeded⟩
      exact ⟨stored, first, rest, listed, succeeded, refuse⟩
  · rw [joins.run_write_eq_ok_iff]
    exact (and_iff_left rfl).symm

/-- The second of three restrictions is one that the first source to declare `kind` would not have
made. The first restriction is stored and can be found, the third is not. -/
theorem owner_stored_before_refused_kind :
    let labels (name : String) (valueType : ValueType) : RestrictionSource :=
      .declaring "labels" [⟨name, valueType, false, false⟩] .all none trivial
    let arrangement : RestrictionArrangement RestrictionSource :=
      .composite 1 [.leaf .glob, .composite 0
        [.leaf (labels "kind" .string), .leaf (labels "kind" .name),
          .leaf (labels "owner" .string)]]
    let restriction (name value : String) (valueType : ValueType) : Restriction :=
      ⟨⟨name, valueType, false, false⟩, ⟨name, [.string value], false⟩⟩
    let owner := restriction "owner" "ann" .string
    let misread := restriction "kind" "note" .name
    let kind := restriction "kind" "note" .string
    let service := arrangement.service RestrictionSource.service
    let stored : RestrictionStore := [("owner", owner.property)]
    RestrictionSource.Refuse arrangement.leaves (some "/docs") misread
        (.invalidRestriction (some "/docs") "kind" .definition) ∧
      (service.write (some "/docs") [owner, misread, kind]).run.run [] =
        (.error (.invalidRestriction (some "/docs") "kind" .definition), stored) ∧
      stored.find? "owner" = some owner.property ∧ stored.find? "kind" = none := by
  intro labels arrangement restriction owner misread kind service stored
  have first : arrangement.leaves.find? (fun source =>
      source.service.declares (some "/docs") misread.name) = some (labels "kind" .string) := rfl
  have known : (labels "kind" .string).catalogue.definition? misread.name =
      some kind.definition := rfl
  have refuse : RestrictionSource.Refuse arrangement.leaves (some "/docs") misread
      (.invalidRestriction (some "/docs") "kind" .definition) :=
    .foreign first known (by decide)
  have written : (service.write (some "/docs") [owner]).run.run [] = (.ok (), stored) := rfl
  obtain ⟨-, accepted⟩ := write_stops_at_refused arrangement (some "/docs") [owner] []
  obtain ⟨stops, -⟩ := write_stops_at_refused arrangement (some "/docs") [owner, misread, kind] []
  exact ⟨refuse, (stops _ _).mpr ⟨[owner], misread, [kind], rfl, accepted.mpr written, refuse,
    arrangement.joins_leaves.run_write_singleton refuse, written⟩, by decide, by decide⟩

end RestrictionArrangement

end Authorization
