import Authorization.Text.Split

/-!
# Options of a command line

An option has a long name after two dashes and possibly a letter after one, and takes one value: as
the next argument, after an equals sign, or right behind the letter. An argument that starts with a
dash is never the next argument that an option takes, unless it is the dash alone.

A value that is an argument of its own is checked only when another option follows or the arguments
end. A plain argument does not wait for that, so help about a command goes before such a check.
-/

namespace Authorization.CommandLine

/-- An option that takes a value. -/
structure OptionSpec where
  long : String
  short : Option Char := none
  repeated : Bool := false
  emptyAllowed : Bool := true

/-- Why arguments do not lead to a command. -/
inductive Refusal where
  | help
  | misuse
  deriving DecidableEq

/-- Options in the order given, with their values. -/
abbrev Given := List (String × String)

/-- What one argument looks like. -/
inductive Argument where
  | endOfOptions
  | long (name : String) (attached : Option String)
  | short (letter : Char) (attached : Option String)
  | plain (text : String)

/-- What an argument is. An equals sign between a letter and its value is dropped. -/
def Argument.ofText (text : String) : Argument :=
  match text.toList with
  | ['-', '-'] => endOfOptions
  | '-' :: '-' :: rest =>
    match Text.splitFirst? '=' rest with
    | some (name, value) => long (String.ofList name) (some (String.ofList value))
    | none => long (String.ofList rest) none
  | ['-', letter] => short letter none
  | '-' :: letter :: '=' :: value => short letter (some (String.ofList value))
  | '-' :: letter :: value => short letter (some (String.ofList value))
  | _ => plain text

/-- Adds an option to those given, if it may be given once more and may have the value. -/
def record (spec : OptionSpec) (value : String) (given : Given) : Except Refusal Given :=
  if !spec.repeated && given.any fun entry => entry.1 == spec.long then .error .misuse
  else if !spec.emptyAllowed && value.isEmpty then .error .misuse
  else .ok (given ++ [(spec.long, value)])

/-- The options read so far. The last one is kept apart until it is checked. -/
structure Reading where
  given : Given := []
  pending : Option (OptionSpec × String) := none

/-- All options read so far, checked. -/
def Reading.settle (reading : Reading) : Except Refusal Given :=
  match reading.pending with
  | some (spec, value) => record spec value reading.given
  | none => .ok reading.given

/-- The option of a long name, or why there is none. Help is asked for by a name without a value. -/
def findLong (specs : List OptionSpec) (name : String) (attached : Option String) :
    Except Refusal OptionSpec :=
  match specs.find? fun spec => spec.long == name with
  | some spec => .ok spec
  | none => .error (if name = "help" ∧ attached.isNone then .help else .misuse)

/-- The option of a letter, or why there is none. -/
def findShort (specs : List OptionSpec) (letter : Char) : Except Refusal OptionSpec :=
  match specs.find? fun spec => spec.short == some letter with
  | some spec => .ok spec
  | none => .error (if letter = 'h' then .help else .misuse)

/-- Reads options up to the first plain argument, and gives that argument and those after it. -/
def readOptions (specs : List OptionSpec) :
    List String → Reading → Except Refusal (Reading × List String)
  | [], reading => .ok (reading, [])
  | argument :: rest, reading =>
    match Argument.ofText argument with
    | .plain _ => .ok (reading, argument :: rest)
    | .endOfOptions => if rest.isEmpty then .ok (reading, []) else .error .misuse
    | .long name (some value) => do
      let given ← reading.settle
      let given ← record (← findLong specs name (some value)) value given
      readOptions specs rest { given }
    | .short letter (some value) => do
      let given ← reading.settle
      let given ← record (← findShort specs letter) value given
      readOptions specs rest { given }
    | .long name none => do
      let given ← reading.settle
      let spec ← findLong specs name none
      match rest with
      | value :: rest =>
        match Argument.ofText value with
        | .plain _ => readOptions specs rest { given, pending := some (spec, value) }
        | _ => .error .misuse
      | [] => .error .misuse
    | .short letter none => do
      let given ← reading.settle
      let spec ← findShort specs letter
      match rest with
      | value :: rest =>
        match Argument.ofText value with
        | .plain _ => readOptions specs rest { given, pending := some (spec, value) }
        | _ => .error .misuse
      | [] => .error .misuse

def Given.value? (given : Given) (name : String) : Option String :=
  (given.find? fun entry => entry.1 == name).map Prod.snd

/-- The value of an option that must be given. -/
def Given.require (given : Given) (name : String) : Except Refusal String :=
  match given.value? name with
  | some value => .ok value
  | none => .error .misuse

def Given.values (given : Given) (name : String) : List String :=
  (given.filter fun entry => entry.1 == name).map Prod.snd

end Authorization.CommandLine
