/-!
# JSON values

A JSON document as a value. Texts are kept with their meaning, members of objects in the order in
which they are written, and numbers as they are spelled. Main tools: `Json.record?` reads the
fields of a record from an object or an array, and `Json.render` writes a value on one line.
-/

namespace Authorization

/-- A JSON value. A string with an unpaired surrogate escape denotes no text. -/
inductive Json where
  | null
  | boolean (truth : Bool)
  | number (literal : String)
  | string (text : Option String)
  | array (items : List Json)
  | object (members : List (Option String × Json))
  deriving Inhabited

namespace Json

/-- A string with a text. -/
def text (text : String) : Json := string (some text)

def natural (n : Nat) : Json := number (toString n)

/-- An object with named members. -/
def record (members : List (String × Json)) : Json :=
  object (members.map fun (name, value) => (some name, value))

/-- The text of a string. -/
def text? : Json → Option String
  | string text => text
  | _ => none

def boolean? : Json → Option Bool
  | boolean truth => some truth
  | _ => none

def items? : Json → Option (List Json)
  | array items => some items
  | _ => none

/-- The last member of an object with a name. -/
def member? (name : String) : Json → Option Json
  | object members => (members.reverse.find? fun member => member.1 == some name).map Prod.snd
  | _ => none

/-- A word written as a string, or as an object with the word as its only key and null under it. -/
def word? : Json → Option String
  | string text => text
  | object [(some word, null)] => some word
  | _ => none

/-- The values of the named fields of a record, absent ones left out. A record is an object, in
which no named field occurs twice and other members are skipped, or an array that lists the fields
in order and may stop early. -/
def record? (names : List String) : Json → Option (List (Option Json))
  | object members =>
    if members.any fun member => member.1.isNone then none
    else if names.any fun name => 1 < (members.filter fun member => member.1 = some name).length
    then none
    else some (names.map fun name =>
      (members.find? fun member => member.1 = some name).map Prod.snd)
  | array items =>
    if names.length < items.length then none
    else some (items.map some ++ List.replicate (names.length - items.length) none)
  | _ => none

/-- Reads a field that may be left out. -/
def optional? {α : Type} (read : Json → Option α) (absent : α) : Option Json → Option α
  | some value => read value
  | none => some absent

/-- Reads every item of an array. -/
def list? {α : Type} (read : Json → Option α) (value : Json) : Option (List α) :=
  value.items?.bind fun items => items.mapM read

/-- A character within a quoted text. -/
def escape (c : Char) : List Char :=
  if c = '"' then ['\\', '"']
  else if c = '\\' then ['\\', '\\']
  else if c = '\n' then ['\\', 'n']
  else if c = '\r' then ['\\', 'r']
  else if c = '\t' then ['\\', 't']
  else if c.val.toNat < 0x20 then
    let digits := Nat.toDigits 16 c.val.toNat
    "\\u".toList ++ List.replicate (4 - digits.length) '0' ++ digits
  else [c]

def quote (text : String) : String :=
  "\"" ++ String.ofList (text.toList.flatMap escape) ++ "\""

mutual

/-- A value as a text, without any space. -/
def render : Json → String
  | null => "null"
  | boolean truth => if truth then "true" else "false"
  | number literal => literal
  | string text => quote (text.getD "")
  | array items => "[" ++ renderItems items ++ "]"
  | object members => "\x7b" ++ renderMembers members ++ "\x7d"

/-- The items of an array, with commas between them. -/
def renderItems : List Json → String
  | [] => ""
  | [item] => item.render
  | item :: next :: items => item.render ++ "," ++ renderItems (next :: items)

/-- The members of an object, with commas between them. -/
def renderMembers : List (Option String × Json) → String
  | [] => ""
  | [(name, value)] => quote (name.getD "") ++ ":" ++ value.render
  | (name, value) :: next :: members =>
    quote (name.getD "") ++ ":" ++ value.render ++ "," ++ renderMembers (next :: members)

end

end Json

end Authorization
