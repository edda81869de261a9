import Authorization.Error
import Authorization.Restriction.Definition
import Authorization.Restriction.Store

/-!
# Catalogues of restrictions

A catalogue holds the definitions of one provider, each under its name, and does all that follows
from them: making, reading, writing and checking restrictions. Restrictions exist for entries at a
path only; an entry of the repository as a whole has none.
-/

namespace Authorization

/-- Steps that change a store and may fail. What was stored before a failure stays. -/
abbrev StoreStep := ExceptT AuthorizationError (StateM RestrictionStore)

/-- The definitions of a provider, by their names. -/
structure RestrictionCatalogue where
  definitions : Dictionary RestrictionDefinition

namespace RestrictionCatalogue

/-- The catalogue of some definitions. Of several with one name the last counts. -/
def ofList (definitions : List RestrictionDefinition) : RestrictionCatalogue :=
  ⟨Dictionary.ofList (definitions.map fun definition => (definition.name, definition))⟩

def definition? (catalogue : RestrictionCatalogue) (name : String) :
    Option RestrictionDefinition :=
  catalogue.definitions.find? name

/-- What is supported at a path. At the repository there are no restrictions. -/
def supported (catalogue : RestrictionCatalogue) (path : Option String) :
    OrderedSet RestrictionDefinition :=
  match path with
  | some _ => .ofList catalogue.definitions.values
  | none => []

/-- The definition of a name for entries at a path, or the error that there is none. -/
def require (catalogue : RestrictionCatalogue) (path : Option String) (name : String) :
    Except AuthorizationError RestrictionDefinition :=
  match path, catalogue.definition? name with
  | some _, some definition => .ok definition
  | _, _ => .error (.unsupportedRestriction path name)

/-- What is wrong with the types of values under a definition. -/
def typeFault? (definition : RestrictionDefinition) (values : List Value) :
    Option RestrictionFault :=
  (values.find? fun value => value.type ≠ definition.valueType).map fun value =>
    .type definition.valueType value.type

/-- Fails if the types of values are not as declared. -/
def requireTypes (path : Option String) (definition : RestrictionDefinition)
    (values : List Value) : Except AuthorizationError Unit :=
  match typeFault? definition values with
  | some fault => .error (.invalidRestriction path definition.name fault)
  | none => .ok ()

/-- A restriction with a single value, if the definition of its name takes that. -/
def create (catalogue : RestrictionCatalogue) (path : Option String) (name : String)
    (value : Value) : Except AuthorizationError Restriction := do
  let definition ← catalogue.require path name
  requireTypes path definition [value]
  pure ⟨definition, ⟨name, [value], definition.multiValued⟩⟩

/-- Makes a restriction of any number of values, which must be one if that is declared. -/
def createMulti (catalogue : RestrictionCatalogue) (path : Option String) (name : String)
    (values : List Value) : Except AuthorizationError Restriction := do
  let definition ← catalogue.require path name
  requireTypes path definition values
  if definition.multiValued ∨ values.length = 1 then
    pure ⟨definition, ⟨name, values, definition.multiValued⟩⟩
  else throw (.invalidRestriction path name (.count values.length))

/-- The restrictions with a definition in the catalogue that are stored with an entry. -/
def read (catalogue : RestrictionCatalogue) (path : Option String) (store : RestrictionStore) :
    OrderedSet Restriction :=
  match path with
  | some _ =>
    .ofList <| catalogue.definitions.values.filterMap fun definition =>
      (store.find? definition.name).map fun property => ⟨definition, property⟩
  | none => []

/-- Stores a restriction, whose definition must be the one in the catalogue. -/
def writeOne (catalogue : RestrictionCatalogue) (path : Option String)
    (restriction : Restriction) : StoreStep Unit := do
  let definition ← catalogue.require path restriction.name
  if definition = restriction.definition then modify (·.put restriction.property)
  else throw (.invalidRestriction path restriction.name .definition)

/-- Stores restrictions in order, up to the first that cannot be stored. -/
def write (catalogue : RestrictionCatalogue) (path : Option String) :
    List Restriction → StoreStep Unit
  | [] => pure ()
  | restriction :: restrictions => do
    catalogue.writeOne path restriction
    write catalogue path restrictions

/-- What is wrong with a stored property. Names without a definition are not looked at. -/
def fault? (catalogue : RestrictionCatalogue) (path : Option String) (property : Property) :
    Option RestrictionFault :=
  (catalogue.definition? property.name).bind fun definition =>
    if path.isNone then some .repositoryLevel
    else if property.multiValued ≠ definition.multiValued then some .multiplicity
    else typeFault? definition property.values

/-- The first mandatory definition without a stored property, for entries at a path. -/
def missing? (catalogue : RestrictionCatalogue) (path : Option String)
    (store : RestrictionStore) : Option RestrictionDefinition :=
  path.bind fun _ => catalogue.definitions.values.find? fun definition =>
    definition.mandatory && (store.find? definition.name).isNone

/-- The first property that does not fit its definition, and why. -/
def firstFault? (catalogue : RestrictionCatalogue) (path : Option String) :
    List Property → Option (Property × RestrictionFault)
  | [] => none
  | property :: properties =>
    match catalogue.fault? path property with
    | some fault => some (property, fault)
    | none => firstFault? catalogue path properties

/-- Checks what is stored with an entry: first every stored property in the order of names, then
that nothing mandatory is missing. -/
def validate (catalogue : RestrictionCatalogue) (path : Option String)
    (store : RestrictionStore) : Except AuthorizationError Unit :=
  match catalogue.firstFault? path store.values with
  | some (property, fault) => .error (.invalidRestriction path property.name fault)
  | none =>
    match catalogue.missing? path store with
    | some definition => .error (.invalidRestriction path definition.name .missing)
    | none => .ok ()

end RestrictionCatalogue

end Authorization
