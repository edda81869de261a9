import Authorization.Json.Value
import Authorization.Text.Integer

/-!
# Reading JSON

A text is read to the end or refused. Nesting may be of any depth. Escapes of surrogates are
allowed everywhere; those that are not paired make the text of their string undefined.
-/

namespace Authorization.Json

/-- The characters allowed between tokens. -/
def isSpace (c : Char) : Bool := c == ' ' || c == '\n' || c == '\t' || c == '\r'

/-- The text after the spaces in front of it. -/
def skipSpace (text : List Char) : List Char := text.dropWhile isSpace

/-- A part of a string: a character, or one half of a character outside the basic plane. -/
inductive StringUnit where
  | char (c : Char)
  | high (code : Nat)
  | low (code : Nat)

/-- The unit that an escape of four hexadecimal digits stands for. -/
def StringUnit.ofCode (code : Nat) : StringUnit :=
  if 0xd800 ≤ code ∧ code < 0xdc00 then high (code - 0xd800)
  else if 0xdc00 ≤ code ∧ code < 0xe000 then low (code - 0xdc00)
  else char (Char.ofNat code)

/-- The text of a row of units, if every half character is followed by its other half. -/
def decodeUnits? : List StringUnit → Option (List Char)
  | [] => some []
  | .char c :: rest => (decodeUnits? rest).map (c :: ·)
  | .high upper :: .low lower :: rest =>
    (decodeUnits? rest).map (Char.ofNat (0x10000 + upper * 0x400 + lower) :: ·)
  | _ => none

/-- The character that an escape of one letter stands for. -/
def simpleEscape? (c : Char) : Option Char :=
  if c = '"' then some '"'
  else if c = '\\' then some '\\'
  else if c = '/' then some '/'
  else if c = 'b' then some '\x08'
  else if c = 'f' then some '\x0c'
  else if c = 'n' then some '\n'
  else if c = 'r' then some '\r'
  else if c = 't' then some '\t'
  else none

/-- The units of a string whose opening quote is read, and the text after its closing quote. -/
def readUnits? : List Char → Option (List StringUnit × List Char)
  | [] => none
  | '"' :: rest => some ([], rest)
  | '\\' :: 'u' :: a :: b :: c :: d :: rest =>
    match Text.readDigits? 16 0 [a, b, c, d], readUnits? rest with
    | some code, some (units, left) => some (.ofCode code :: units, left)
    | _, _ => none
  | '\\' :: c :: rest =>
    match simpleEscape? c, readUnits? rest with
    | some escaped, some (units, left) => some (.char escaped :: units, left)
    | _, _ => none
  | c :: rest =>
    if c.val.toNat < 0x20 then none
    else (readUnits? rest).map fun (units, left) => (.char c :: units, left)

/-- Reads what follows an opening quote. A string that stands for no text is read all the same. -/
def readString? (text : List Char) : Option (Option String × List Char) :=
  (readUnits? text).map fun (units, left) => ((decodeUnits? units).map String.ofList, left)

def spanDigits (text : List Char) : List Char × List Char := text.span Char.isDigit

/-- The whole part of a number: no digit before it but a zero alone. -/
def readWhole? (text : List Char) : Option (List Char × List Char) :=
  match spanDigits text with
  | ([], _) => none
  | (['0'], rest) => some (['0'], rest)
  | ('0' :: _, _) => none
  | (digits, rest) => some (digits, rest)

/-- The fraction of a number, if a point follows. -/
def readFraction? : List Char → Option (List Char × List Char)
  | '.' :: rest =>
    match spanDigits rest with
    | ([], _) => none
    | (digits, rest) => some ('.' :: digits, rest)
  | text => some ([], text)

/-- The exponent of a number, if its letter follows. -/
def readExponent? (text : List Char) : Option (List Char × List Char) :=
  match text with
  | e :: rest =>
    if e = 'e' ∨ e = 'E' then
      let (sign, rest) := match rest with
        | '+' :: rest => (['+'], rest)
        | '-' :: rest => (['-'], rest)
        | _ => ([], rest)
      match spanDigits rest with
      | ([], _) => none
      | (digits, rest) => some (e :: sign ++ digits, rest)
    else some ([], text)
  | [] => some ([], [])

/-- Reads a number, which is kept as it is written. -/
def readNumber? (text : List Char) : Option (Json × List Char) :=
  let (sign, text) := match text with
    | '-' :: rest => (['-'], rest)
    | _ => ([], text)
  (readWhole? text).bind fun (whole, text) =>
    (readFraction? text).bind fun (fraction, text) =>
      (readExponent? text).map fun (exponent, text) =>
        (number (String.ofList (sign ++ whole ++ fraction ++ exponent)), text)

mutual

/-- A value after any spaces, and the rest. Every step takes a character off the text or follows
one that does, so twice the length of the text is fuel enough. -/
def readValue? : Nat → List Char → Option (Json × List Char)
  | 0, _ => none
  | fuel + 1, text =>
    match skipSpace text with
    | 'n' :: 'u' :: 'l' :: 'l' :: rest => some (null, rest)
    | 't' :: 'r' :: 'u' :: 'e' :: rest => some (boolean true, rest)
    | 'f' :: 'a' :: 'l' :: 's' :: 'e' :: rest => some (boolean false, rest)
    | '"' :: rest => (readString? rest).map fun (text, rest) => (string text, rest)
    | '[' :: rest =>
      match skipSpace rest with
      | ']' :: rest => some (array [], rest)
      | rest => (readItems? fuel rest).map fun (items, rest) => (array items, rest)
    | '{' :: rest =>
      match skipSpace rest with
      | '}' :: rest => some (object [], rest)
      | rest => (readMembers? fuel rest).map fun (members, rest) => (object members, rest)
    | text => readNumber? text

/-- The items of an array up to its closing bracket, and the rest. -/
def readItems? : Nat → List Char → Option (List Json × List Char)
  | 0, _ => none
  | fuel + 1, text =>
    match readValue? fuel text with
    | some (item, rest) =>
      match skipSpace rest with
      | ',' :: rest => (readItems? fuel rest).map fun (items, rest) => (item :: items, rest)
      | ']' :: rest => some ([item], rest)
      | _ => none
    | none => none

/-- The members of an object up to its closing brace, and the rest. -/
def readMembers? : Nat → List Char → Option (List (Option String × Json) × List Char)
  | 0, _ => none
  | fuel + 1, text =>
    match skipSpace text with
    | '"' :: rest =>
      match readString? rest with
      | some (name, rest) =>
        match skipSpace rest with
        | ':' :: rest =>
          match readValue? fuel rest with
          | some (value, rest) =>
            match skipSpace rest with
            | ',' :: rest =>
              (readMembers? fuel rest).map fun (members, rest) => ((name, value) :: members, rest)
            | '}' :: rest => some ([(name, value)], rest)
            | _ => none
          | none => none
        | _ => none
      | none => none
    | _ => none

end

/-- The value that a text holds, with nothing but space around it. -/
def parse? (text : String) : Option Json :=
  let chars := text.toList
  match readValue? (2 * chars.length + 2) chars with
  | some (value, rest) => if (skipSpace rest).isEmpty then some value else none
  | none => none

end Authorization.Json
