import Authorization.Json.Value
import Authorization.Restriction.Definition

/-!
# Restriction definitions as JSON

A definition is written with all its fields. In reading, the fields with a default may be left out.
-/

namespace Authorization

def ValueType.ofJson? (json : Json) : Option ValueType := json.word?.bind ofWord?

namespace RestrictionDefinition

/-- Reads a definition, in which all but the name and the type may be left out. -/
def ofJson? (json : Json) : Option RestrictionDefinition :=
  match json.record? ["name", "value_type", "multi_valued", "mandatory"] with
  | some [some name, some type, multi, mandatory] => do
    return { name := ← name.text?
             valueType := ← ValueType.ofJson? type
             multiValued := ← Json.optional? Json.boolean? false multi
             mandatory := ← Json.optional? Json.boolean? false mandatory }
  | _ => none

def toJson (definition : RestrictionDefinition) : Json :=
  .record [("name", .text definition.name), ("value_type", .text definition.valueType.word),
    ("multi_valued", .boolean definition.multiValued),
    ("mandatory", .boolean definition.mandatory)]

/-- A definition made mandatory. -/
def requiredOnce (definition : RestrictionDefinition) : RestrictionDefinition :=
  { definition with mandatory := true }

end RestrictionDefinition

end Authorization
