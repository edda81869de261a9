import Authorization.Restriction.Catalogue
import Authorization.Restriction.Pattern

/-!
# Restriction services

A service owns kinds of restrictions: it makes, stores, reads and checks them, and says to which
items an entry with such restrictions applies. A composite service sends each restriction to the
first of its members that declares the name, checks an entry with all members, and combines their
patterns.
-/

namespace Authorization

/-- What can be asked of a provider of restrictions. An absent path stands for entries of the
repository as a whole. -/
structure RestrictionService where
  name : String
  supported : Option String → OrderedSet RestrictionDefinition
  create : Option String → String → Value → Except AuthorizationError Restriction
  createMulti : Option String → String → List Value → Except AuthorizationError Restriction
  read : Option String → RestrictionStore → OrderedSet Restriction
  /-- Stores restrictions in order, up to the first that cannot be stored. -/
  write : Option String → List Restriction → StoreStep Unit
  validate : Option String → RestrictionStore → Except AuthorizationError Unit
  pattern : Option String → RestrictionStore → RestrictionPattern
  patternFor : Option String → OrderedSet Restriction → RestrictionPattern

namespace RestrictionService

/-- Whether a service supports a restriction with a name. -/
def declares (service : RestrictionService) (path : Option String) (name : String) : Bool :=
  (service.supported path).any fun definition => definition.name == name

/-- The service without any kinds of restrictions. -/
def empty : RestrictionService where
  name := "empty"
  supported _ := []
  create path name _ := .error (.unsupportedRestriction path name)
  createMulti path name _ := .error (.unsupportedRestriction path name)
  read _ _ := []
  write path restrictions :=
    match restrictions with
    | [] => pure ()
    | restriction :: _ => throw (.unsupportedRestriction path restriction.name)
  validate _ _ := .ok ()
  pattern _ _ := .all
  patternFor _ _ := .all

/-- The service that follows from a catalogue, with further checks on entries that the catalogue
accepts. The pattern is found from the property stored under a name, or from the first of the given
restrictions with that name. -/
def ofCatalogue (name : String) (catalogue : RestrictionCatalogue)
    (check : Option String → RestrictionStore → Except AuthorizationError Unit)
    (key : String) (pattern : Option String → Option Property → RestrictionPattern) :
    RestrictionService where
  name := name
  supported := catalogue.supported
  create := catalogue.create
  createMulti := catalogue.createMulti
  read := catalogue.read
  write := catalogue.write
  validate path store := do
    catalogue.validate path store
    check path store
  pattern path store := pattern path (store.find? key)
  patternFor path restrictions :=
    pattern path ((restrictions.find? fun restriction => restriction.name == key).map
      Restriction.property)

/-- The first member that declares a name for entries at a path. -/
def route (members : List RestrictionService) (path : Option String) (name : String) :
    Except AuthorizationError RestrictionService :=
  match members.find? fun member => member.declares path name with
  | some member => .ok member
  | none => .error (.unsupportedRestriction path name)

/-- Stores restrictions in order, each with the member that its name is sent to. -/
def writeRouted (members : List RestrictionService) (path : Option String) :
    List Restriction → StoreStep Unit
  | [] => pure ()
  | restriction :: restrictions => do
    let member ← route members path restriction.name
    member.write path [restriction]
    writeRouted members path restrictions

/-- Checks an entry with services in order, up to the first that rejects it. -/
def validateAll (path : Option String) (store : RestrictionStore) :
    List RestrictionService → Except AuthorizationError Unit
  | [] => .ok ()
  | member :: members => do
    member.validate path store
    validateAll path store members

/-- The service of several members: what it makes and stores goes to the first that declares the
name. -/
def composite (members : List RestrictionService) : RestrictionService where
  name := "composite"
  supported path := .ofList (members.flatMap fun member => member.supported path)
  create path name value := do
    let member ← route members path name
    member.create path name value
  createMulti path name values := do
    let member ← route members path name
    member.createMulti path name values
  read path store := .ofList (members.flatMap fun member => member.read path store)
  write := writeRouted members
  validate path store := validateAll path store members
  pattern path store := .combine (members.map fun member => member.pattern path store)
  patternFor path restrictions :=
    .combine (members.map fun member => member.patternFor path restrictions)

end RestrictionService

end Authorization
