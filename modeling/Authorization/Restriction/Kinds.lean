import Authorization.Glob.Matching
import Authorization.Restriction.Service

/-!
# Kinds of restrictions

`rep:glob` narrows an entry to the items whose paths match a glob after the path of the entry, and
`rep:itemNames` to the items with one of some names. Both providers answer from a catalogue of one
definition.
-/

namespace Authorization

namespace GlobRestriction

/-- The name of the restriction. -/
def key : String := "rep:glob"

/-- The definitions of the provider: a single text. -/
def catalogue : RestrictionCatalogue := .ofList [{ name := key, valueType := .string }]

/-- The matcher for the paths that match a glob put after a path. The path of the root counts as
empty, and no character of the path is a wildcard. -/
def matcher (path glob : String) : Except PatternError ItemMatcher := do
  let base := if Path.isRoot path then "" else path
  let whole ← Glob.parse (Glob.escape base ++ glob)
  pure
    { node := whole.isMatch
      property := fun path name => whole.isMatch (Path.concat path name) }

/-- The glob that a property holds: the text of its first value. -/
def text? (property : Option Property) : Option String :=
  (property.bind Property.value?).bind Value.text?

/-- The pattern for the property that may hold a glob. A glob that cannot be read matches
nothing. -/
def pattern (path : Option String) (property : Option Property) : RestrictionPattern :=
  match path, text? property with
  | some path, some glob =>
    match matcher path glob with
    | .ok matcher => .matcher matcher
    | .error _ => .none
  | _, _ => .all

/-- Checks that a stored glob can be read. -/
def check (path : Option String) (store : RestrictionStore) : Except AuthorizationError Unit :=
  match path, text? (store.find? key) with
  | some place, some glob =>
    match matcher place glob with
    | .ok _ => .ok ()
    | .error error => .error (.invalidRestriction path key (.pattern error))
  | _, _ => .ok ()

def service : RestrictionService := .ofCatalogue "glob" catalogue check key pattern

end GlobRestriction

namespace ItemNamesRestriction

/-- The name of the restriction. -/
def key : String := "rep:itemNames"

/-- The definition of the restriction: any number of names. -/
def definition : RestrictionDefinition :=
  { name := key, valueType := .name, multiValued := true }

def catalogue : RestrictionCatalogue := .ofList [definition]

/-- What matches items with some names, and never the repository. -/
def matcher (names : List String) : ItemMatcher where
  node path := names.contains (Path.name path)
  property _ name := names.contains name

/-- The pattern for the property that may hold names. -/
def pattern (path : Option String) (property : Option Property) : RestrictionPattern :=
  match path, property with
  | some _, some property => .matcher (matcher (property.values.filterMap Value.text?))
  | _, _ => .all

/-- Whether definitions hold another one under the name of the restriction. -/
def conflicts (definitions : OrderedSet RestrictionDefinition) : Bool :=
  definitions.any fun other => other.name == key && other != definition

/-- Checks, for an entry with item names, that the composite around the provider declares them in
no other way. -/
def check (enclosing : Option (Option String → OrderedSet RestrictionDefinition))
    (path : Option String) (store : RestrictionStore) : Except AuthorizationError Unit :=
  match store.find? key, enclosing with
  | some _, some supported =>
    if conflicts (supported path) then .error (.invalidRestriction path key .conflict) else .ok ()
  | _, _ => .ok ()

/-- The provider of item name restrictions, given what the composite around it declares. -/
def service (enclosing : Option (Option String → OrderedSet RestrictionDefinition)) :
    RestrictionService :=
  .ofCatalogue "item-names" catalogue (check enclosing) key pattern

end ItemNamesRestriction

end Authorization
