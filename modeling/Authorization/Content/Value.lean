import Authorization.Text.Integer

/-!
# Typed values and properties

A property has a name and values of declared types; single-valued and multi-valued properties
differ even when they hold the same one value.
-/

namespace Authorization

/-- The types of values. -/
inductive ValueType where
  | string
  | name
  | path
  | long
  | boolean
  deriving DecidableEq

namespace ValueType

/-- All types, in their order. -/
def all : List ValueType := [string, name, path, long, boolean]

def word : ValueType → String
  | string => "string"
  | name => "name"
  | path => "path"
  | long => "long"
  | boolean => "boolean"

/-- The capitalised word for a type, as messages use it. -/
def title : ValueType → String
  | string => "String"
  | name => "Name"
  | path => "Path"
  | long => "Long"
  | boolean => "Boolean"

/-- The type that a word stands for. -/
def ofWord? (text : String) : Option ValueType := all.find? fun type => type.word == text

/-- The place of a type in their order. -/
def rank : ValueType → Nat
  | string => 0
  | name => 1
  | path => 2
  | long => 3
  | boolean => 4

end ValueType

/-- A single typed value. Long values are whole numbers of 64 bits. -/
inductive Value where
  | string (text : String)
  | name (text : String)
  | path (text : String)
  | long (number : Int)
  | boolean (truth : Bool)
  deriving DecidableEq

namespace Value

def type : Value → ValueType
  | string _ => .string
  | name _ => .name
  | path _ => .path
  | long _ => .long
  | boolean _ => .boolean

/-- The text of a value, unless it is a number or a truth value. -/
def text? : Value → Option String
  | string text | name text | path text => some text
  | long _ | boolean _ => none

/-- How a value is shown. -/
def render : Value → String
  | string text | name text | path text => text
  | long number => toString number
  | boolean truth => if truth then "true" else "false"

/-- Reads a value of the given type from its text. Any text is a textual value; a long value is a
signed decimal number of 64 bits, and a boolean is one of two words. -/
def parse? (type : ValueType) (raw : String) : Option Value :=
  match type with
  | .string => some (string raw)
  | .name => some (name raw)
  | .path => some (path raw)
  | .long => (Text.signed64? raw).map long
  | .boolean =>
    if raw = "true" then some (boolean true)
    else if raw = "false" then some (boolean false)
    else none

end Value

/-- A named property with its values. -/
structure Property where
  name : String
  values : List Value
  /-- Whether the property may hold any number of values. -/
  multiValued : Bool
  deriving DecidableEq

namespace Property

def single (name : String) (value : Value) : Property := ⟨name, [value], false⟩

/-- A property that may hold any number of values. -/
def multi (name : String) (values : List Value) : Property := ⟨name, values, true⟩

/-- The first value of a property. -/
def value? (property : Property) : Option Value := property.values.head?

def type? (property : Property) : Option ValueType := property.value?.map Value.type

end Property

end Authorization
