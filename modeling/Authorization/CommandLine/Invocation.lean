import Authorization.CommandLine.Options

/-!
# Invocations

The arguments of the program read as a command with the options that come before it.
-/

namespace Authorization.CommandLine

/-- What the program is asked to do. -/
inductive Command where
  | check (path actions : String)
  | privileges (path : Option String) (has : List String)
  | walk (path : String)
  | matching (entryPath : String) (restrictions : List String) (path : String)
    (property : Option String)
  deriving DecidableEq

/-- A command with its general options. -/
structure Invocation where
  config : String
  logLevel : Option String
  command : Command
  deriving DecidableEq

/-- The options that stand before a command. -/
def generalOptions : List OptionSpec :=
  [{ long := "config", short := some 'c', emptyAllowed := false }, { long := "log-level" }]

/-- The options of a command, after which nothing may follow. -/
def commandOptions (specs : List OptionSpec) (arguments : List String) : Except Refusal Given := do
  let (reading, rest) ← readOptions specs arguments {}
  if rest.isEmpty then reading.settle else throw .misuse

/-- The names of the commands. -/
def commandNames : List String := ["check", "privileges", "walk", "match", "help"]

/-- What asking for help about some commands leads to: help about the program or about one command,
and nothing else. -/
def helpRefusal : List String → Refusal
  | [] => .help
  | [name] => if commandNames.contains name then .help else .misuse
  | _ => .misuse

/-- Reads the options of a command. -/
def readCommand (name : String) (arguments : List String) : Except Refusal Command :=
  if name = "check" then do
    let given ← commandOptions [{ long := "path" }, { long := "actions" }] arguments
    return .check (← given.require "path") (← given.require "actions")
  else if name = "privileges" then do
    let given ← commandOptions [{ long := "path" }, { long := "has", repeated := true }] arguments
    return .privileges (given.value? "path") (given.values "has")
  else if name = "walk" then do
    let given ← commandOptions [{ long := "path" }] arguments
    return .walk (← given.require "path")
  else if name = "match" then do
    let given ← commandOptions
      [{ long := "entry-path" }, { long := "restriction", repeated := true }, { long := "path" },
        { long := "property" }] arguments
    return .matching (← given.require "entry-path") (given.values "restriction")
      (← given.require "path") (given.value? "property")
  else if name = "help" then throw (helpRefusal arguments)
  else throw .misuse

/-- Reads a command line: options for all commands, the command's name, and its own options. -/
def readInvocation (arguments : List String) : Except Refusal Invocation := do
  let (reading, rest) ← readOptions generalOptions arguments {}
  match rest with
  | [] => throw .misuse
  | name :: rest =>
    let command ← readCommand name rest
    let given ← reading.settle
    pure { config := ← given.require "config", logLevel := given.value? "log-level", command }

end Authorization.CommandLine
