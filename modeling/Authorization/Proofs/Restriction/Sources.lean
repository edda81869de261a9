import Authorization.Proofs.Restriction.Catalogue
import Authorization.Proofs.Restriction.Pattern
import Authorization.Restriction.Arrangement

/-!
# Sources of restrictions

A source makes, reads and stores restrictions as a catalogue of its own says. Sources that are
combined make and store them as one catalogue does, in which the first of the sources that define a
name has the say (`definition?_joint`, `follows_composite`). A service that combines sources, by
itself or through other such services, joins them (`RestrictionService.Joins`): what it answers
follows from the sources and their order alone (`Joins.alike`).
-/

namespace Authorization

namespace RestrictionCatalogue

variable {β : Type} {definitions : β → List RestrictionDefinition} {members : List β}
  {name : String}

/-- The catalogue of all definitions of some members, of which the first member that defines a name
has the say. -/
def joint (definitions : β → List RestrictionDefinition) (members : List β) :
    RestrictionCatalogue :=
  .ofList (members.reverse.flatMap definitions)

theorem definition?_joint :
    (joint definitions members).definition? name =
      members.findSome? fun member => (ofList (definitions member)).definition? name := by
  simp only [joint, definition?_ofList, List.reverse_flatMap, List.reverse_reverse,
    List.find?_flatMap, Function.comp_apply]

theorem joint_singleton (member : β) : joint definitions [member] = ofList (definitions member) :=
  congrArg ofList (List.append_nil _)

/-- The definitions of members that have definitions from members of their own. -/
theorem joint_flatMap {γ : Type} (groups : List γ) (members : γ → List β) :
    joint definitions (groups.flatMap members) =
      joint (fun group => (members group).reverse.flatMap definitions) groups := by
  rw [joint, joint, List.reverse_flatMap, List.flatMap_assoc]
  rfl

end RestrictionCatalogue

namespace RestrictionService

/-- Services that answer alike, whatever they are called. -/
structure Alike (first second : RestrictionService) : Prop where
  supported : first.supported = second.supported
  create : first.create = second.create
  createMulti : first.createMulti = second.createMulti
  read : first.read = second.read
  write : first.write = second.write
  validate : first.validate = second.validate
  pattern : first.pattern = second.pattern
  patternFor : first.patternFor = second.patternFor

/-- A service that makes and stores restrictions as a catalogue does. -/
structure Follows (service : RestrictionService) (catalogue : RestrictionCatalogue) : Prop where
  declares : ∀ path name, service.declares path name = true ↔
    path.isSome ∧ (catalogue.definition? name).isSome
  create : service.create = catalogue.create
  createMulti : service.createMulti = catalogue.createMulti
  write : service.write = catalogue.write

section Composite

open RestrictionCatalogue

variable {β : Type} {members : List β} {service : β → RestrictionService}
  {definitions : β → List RestrictionDefinition}
  (follows : ∀ member ∈ members, (service member).Follows (ofList (definitions member)))

include follows

/-- A name is sent to a member that requires it as the joint catalogue does, or to none if that
does not know it. -/
theorem route_of_follows (path : Option String) (name : String) :
    (∃ member ∈ members, route (members.map service) path name = .ok (service member) ∧
      (ofList (definitions member)).require path name =
        (joint definitions members).require path name) ∨
    (route (members.map service) path name = .error (.unsupportedRestriction path name) ∧
      (joint definitions members).require path name =
        .error (.unsupportedRestriction path name)) := by
  rw [route, List.find?_map]
  cases first : members.find? ((fun member => member.declares path name) ∘ service) with
  | none =>
      refine .inr ⟨rfl, require_eq_error fun known => ?_⟩
      rw [definition?_joint, List.findSome?_isSome_iff] at known
      obtain ⟨placed, member, present, known⟩ := known
      exact List.find?_eq_none.mp first member present
        (((follows member present).declares path name).mpr ⟨placed, known⟩)
  | some member =>
      obtain ⟨declares, before, after, rfl, others⟩ := List.find?_eq_some_iff_append.mp first
      obtain ⟨placed, known⟩ := ((follows member (by simp)).declares path name).mp declares
      have silent : (before.findSome? fun member =>
          (ofList (definitions member)).definition? name) = none := by
        refine List.findSome?_eq_none_iff.mpr fun other listed => ?_
        by_contra defined
        have declared := ((follows other (by simp [listed])).declares path name).mpr
          ⟨placed, Option.isSome_iff_ne_none.mpr defined⟩
        simpa [declared] using others other listed
      refine .inl ⟨member, by simp, rfl, require_congr ?_⟩
      rw [definition?_joint, List.findSome?_append, silent, Option.none_or]
      exact (List.findSome?_cons_of_isSome (f := fun member =>
        (ofList (definitions member)).definition? name) known).symm

/-- Sending each restriction to a member that declares its name is writing it by the joint
definitions. -/
theorem writeRouted_of_follows (path : Option String) (restrictions : List Restriction) :
    writeRouted (members.map service) path restrictions =
      (joint definitions members).write path restrictions := by
  induction restrictions with
  | nil => rfl
  | cons restriction restrictions ih =>
      rw [writeRouted, RestrictionCatalogue.write, ih]
      rcases route_of_follows follows path restriction.name with
        ⟨member, present, routed, same⟩ | ⟨routed, absent⟩
      · rw [routed, ← writeOne_congr same, ← write_singleton,
          ← (follows member present).write]
        rfl
      · rw [routed, writeOne, absent]
        rfl

/-- A composite makes and stores restrictions as the joint catalogue of its members. -/
theorem follows_composite :
    (composite (members.map service)).Follows (joint definitions members) where
  declares path name := by
    rw [declares_iff, definition?_joint, List.findSome?_isSome_iff]
    simp only [composite, OrderedSet.mem_ofList, List.flatMap_map, List.mem_flatMap]
    constructor
    · rintro ⟨definition, ⟨member, present, declared⟩, named⟩
      obtain ⟨placed, known⟩ := ((follows member present).declares path name).mp
        (declares_iff.mpr ⟨definition, declared, named⟩)
      exact ⟨placed, member, present, known⟩
    · rintro ⟨placed, member, present, known⟩
      obtain ⟨definition, declared, named⟩ := declares_iff.mp
        (((follows member present).declares path name).mpr ⟨placed, known⟩)
      exact ⟨definition, ⟨member, present, declared⟩, named⟩
  create := by
    funext path name value
    change route (members.map service) path name >>= _ = _
    rcases route_of_follows follows path name with
      ⟨member, present, routed, same⟩ | ⟨routed, absent⟩
    · rw [routed, ← create_congr same, ← (follows member present).create]
      rfl
    · rw [routed, RestrictionCatalogue.create, absent]
      rfl
  createMulti := by
    funext path name values
    change route (members.map service) path name >>= _ = _
    rcases route_of_follows follows path name with
      ⟨member, present, routed, same⟩ | ⟨routed, absent⟩
    · rw [routed, ← createMulti_congr same, ← (follows member present).createMulti]
      rfl
    · rw [routed, RestrictionCatalogue.createMulti, absent]
      rfl
  write := by
    funext path restrictions
    exact writeRouted_of_follows follows path restrictions

end Composite

theorem validateAll_append (path : Option String) (store : RestrictionStore)
    (members others : List RestrictionService) :
    validateAll path store (members ++ others) =
      (validateAll path store members).bind fun _ => validateAll path store others := by
  induction members with
  | nil => rfl
  | cons member members ih =>
      rw [List.cons_append, validateAll, validateAll, ih]
      cases member.validate path store <;> rfl

end RestrictionService

/-- A provider that makes, reads and stores restrictions as the catalogue of its definitions says.
It may check entries further and find patterns in its own way. Patterns with parts come from
combining, so they are normal. -/
structure RestrictionSource where
  definitions : List RestrictionDefinition
  service : RestrictionService
  supported : service.supported = (RestrictionCatalogue.ofList definitions).supported
  create : service.create = (RestrictionCatalogue.ofList definitions).create
  createMulti : service.createMulti = (RestrictionCatalogue.ofList definitions).createMulti
  read : service.read = (RestrictionCatalogue.ofList definitions).read
  write : service.write = (RestrictionCatalogue.ofList definitions).write
  isNormal_pattern : ∀ path store, (service.pattern path store).IsNormal
  isNormal_patternFor : ∀ path restrictions, (service.patternFor path restrictions).IsNormal

namespace RestrictionSource

/-- What a source holds definitions in. -/
def catalogue (source : RestrictionSource) : RestrictionCatalogue := .ofList source.definitions

/-- The catalogue that sources have together. -/
def joint (sources : List RestrictionSource) : RestrictionCatalogue :=
  .joint definitions sources

/-- The source that answers from a catalogue, with further checks and patterns of its own. -/
def ofCatalogue (name : String) (definitions : List RestrictionDefinition)
    (check : Option String → RestrictionStore → Except AuthorizationError Unit) (key : String)
    (pattern : Option String → Option Property → RestrictionPattern)
    (normal : ∀ path property, (pattern path property).IsNormal) : RestrictionSource where
  definitions := definitions
  service := .ofCatalogue name (.ofList definitions) check key pattern
  supported := rfl
  create := rfl
  createMulti := rfl
  read := rfl
  write := rfl
  isNormal_pattern path _ := normal path _
  isNormal_patternFor path _ := normal path _

/-- The source without any definitions. -/
def empty : RestrictionSource where
  definitions := []
  service := .empty
  supported := by
    funext path
    cases path <;> rfl
  create := by
    funext path name value
    cases path <;> rfl
  createMulti := by
    funext path name values
    cases path <;> rfl
  read := by
    funext path store
    cases path <;> rfl
  write := by
    funext path restrictions
    match path, restrictions with
    | _, [] => rfl
    | none, _ :: _ => rfl
    | some _, _ :: _ => rfl
  isNormal_pattern _ _ := trivial
  isNormal_patternFor _ _ := trivial

/-- The source of globs. -/
def glob : RestrictionSource :=
  ofCatalogue "glob" [{ name := GlobRestriction.key, valueType := .string }] GlobRestriction.check
    GlobRestriction.key GlobRestriction.pattern fun path property => by
      unfold GlobRestriction.pattern
      split
      · split <;> trivial
      · trivial

/-- The source of item names, given what is declared around it. -/
def itemNames (enclosing : Option (Option String → OrderedSet RestrictionDefinition)) :
    RestrictionSource :=
  ofCatalogue "item-names" [ItemNamesRestriction.definition] (ItemNamesRestriction.check enclosing)
    ItemNamesRestriction.key ItemNamesRestriction.pattern fun path property => by
      unfold ItemNamesRestriction.pattern
      split <;> trivial

/-- A source with the same pattern for every entry. It may reject all entries. -/
def declaring (name : String) (definitions : List RestrictionDefinition)
    (pattern : RestrictionPattern) (rejection : Option String) (normal : pattern.IsNormal) :
    RestrictionSource where
  definitions := definitions
  service := RestrictionLeaf.declaringService name (.ofList definitions) pattern rejection
  supported := rfl
  create := rfl
  createMulti := rfl
  read := rfl
  write := rfl
  isNormal_pattern _ _ := normal
  isNormal_patternFor _ _ := normal

variable (source : RestrictionSource)

/-- A source does what its catalogue does. -/
theorem follows : source.service.Follows source.catalogue where
  declares path name := by
    rw [RestrictionService.declares_iff, source.supported]
    exact RestrictionCatalogue.exists_mem_supported_iff
  create := source.create
  createMulti := source.createMulti
  write := source.write

end RestrictionSource

namespace RestrictionService

/-- A service that answers as some sources do together, in their order. -/
structure Joins (service : RestrictionService) (sources : List RestrictionSource) : Prop where
  follows : service.Follows (RestrictionSource.joint sources)
  supported : ∀ path, service.supported path =
    .ofList (sources.flatMap fun source => source.service.supported path)
  read : ∀ path store, service.read path store =
    .ofList (sources.flatMap fun source => source.service.read path store)
  validate : ∀ path store, service.validate path store =
    validateAll path store (sources.map RestrictionSource.service)
  pattern : ∀ path store, service.pattern path store =
    .combine (sources.map fun source => source.service.pattern path store)
  patternFor : ∀ path restrictions, service.patternFor path restrictions =
    .combine (sources.map fun source => source.service.patternFor path restrictions)

/-- Services that join the same sources answer alike. -/
theorem Joins.alike {first second : RestrictionService} {sources : List RestrictionSource}
    (joins : first.Joins sources) (same : second.Joins sources) : first.Alike second where
  supported := funext fun path => (joins.supported path).trans (same.supported path).symm
  create := joins.follows.create.trans same.follows.create.symm
  createMulti := joins.follows.createMulti.trans same.follows.createMulti.symm
  read := funext₂ fun path store => (joins.read path store).trans (same.read path store).symm
  write := joins.follows.write.trans same.follows.write.symm
  validate := funext₂ fun path store =>
    (joins.validate path store).trans (same.validate path store).symm
  pattern := funext₂ fun path store =>
    (joins.pattern path store).trans (same.pattern path store).symm
  patternFor := funext₂ fun path restrictions =>
    (joins.patternFor path restrictions).trans (same.patternFor path restrictions).symm

theorem joins_empty : empty.Joins [] where
  follows := RestrictionSource.empty.follows
  supported _ := rfl
  read _ _ := rfl
  validate _ _ := rfl
  pattern _ _ := rfl
  patternFor _ _ := rfl

theorem joins_source (source : RestrictionSource) : source.service.Joins [source] where
  follows := by
    rw [RestrictionSource.joint, RestrictionCatalogue.joint_singleton]
    exact source.follows
  supported path := by
    rw [List.flatMap_singleton, source.supported,
      (RestrictionCatalogue.ascending_supported _ path).ofList_eq]
  read path store := by
    rw [List.flatMap_singleton, source.read,
      (RestrictionCatalogue.ascending_read _ path store).ofList_eq]
  validate path store := bind_pure_unit.symm
  pattern path store :=
    (RestrictionPattern.combine_singleton (source.isNormal_pattern path store)).symm
  patternFor path restrictions :=
    (RestrictionPattern.combine_singleton (source.isNormal_patternFor path restrictions)).symm

section Members

variable {β : Type} {members : List β} {service : β → RestrictionService}
  {sources : β → List RestrictionSource}

theorem ofList_members {α : Type} [Ord α] [Std.TransOrd α] [Std.LawfulEqOrd α]
    (observe : RestrictionService → OrderedSet α)
    (each : ∀ member ∈ members, observe (service member) =
      .ofList ((sources member).flatMap fun source => observe source.service)) :
    OrderedSet.ofList ((members.map service).flatMap observe) =
      .ofList ((members.flatMap sources).flatMap fun source => observe source.service) :=
  calc
    _ = OrderedSet.ofList (members.flatMap fun member => observe (service member)) := by
      rw [List.flatMap_map]
    _ = OrderedSet.ofList (members.flatMap fun member =>
        OrderedSet.ofList ((sources member).flatMap fun source => observe source.service)) :=
      congrArg (OrderedSet.ofList ∘ List.flatten) (List.map_congr_left each)
    _ = _ := by rw [OrderedSet.ofList_flatMap_ofList, List.flatMap_assoc]

theorem combine_members (observe : RestrictionService → RestrictionPattern)
    (each : ∀ member ∈ members, observe (service member) =
      .combine ((sources member).map fun source => observe source.service))
    (normal : ∀ source : RestrictionSource, (observe source.service).IsNormal) :
    RestrictionPattern.combine ((members.map service).map observe) =
      .combine ((members.flatMap sources).map fun source => observe source.service) := by
  rw [List.map_map, List.map_flatMap, ← RestrictionPattern.combine_map_combine]
  · exact congrArg RestrictionPattern.combine (List.map_congr_left each)
  · intro member _ pattern found
    obtain ⟨source, _, rfl⟩ := List.mem_map.mp found
    exact normal source

theorem validateAll_members {path : Option String} {store : RestrictionStore}
    (each : ∀ member ∈ members, (service member).validate path store =
      validateAll path store ((sources member).map RestrictionSource.service)) :
    validateAll path store (members.map service) =
      validateAll path store ((members.flatMap sources).map RestrictionSource.service) := by
  induction members with
  | nil => rfl
  | cons member members ih =>
      obtain ⟨here, rest⟩ := List.forall_mem_cons.mp each
      rw [List.flatMap_cons, List.map_append, validateAll_append, ← here, ← ih rest]
      rfl

/-- A composite of services that join sources joins them all. -/
theorem joins_composite (joins : ∀ member ∈ members, (service member).Joins (sources member)) :
    (composite (members.map service)).Joins (members.flatMap sources) where
  follows := by
    rw [RestrictionSource.joint, RestrictionCatalogue.joint_flatMap]
    exact follows_composite fun member present => (joins member present).follows
  supported path := ofList_members (fun member => member.supported path)
    fun member present => (joins member present).supported path
  read path store := ofList_members (fun member => member.read path store)
    fun member present => (joins member present).read path store
  validate path store := validateAll_members
    fun member present => (joins member present).validate path store
  pattern path store := combine_members (fun member => member.pattern path store)
    (fun member present => (joins member present).pattern path store)
    fun source => source.isNormal_pattern path store
  patternFor path restrictions :=
    combine_members (fun member => member.patternFor path restrictions)
      (fun member present => (joins member present).patternFor path restrictions)
      fun source => source.isNormal_patternFor path restrictions

end Members

end RestrictionService

end Authorization
