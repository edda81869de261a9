import Authorization.CommandLine.Invocation
import Authorization.CommandLine.WorkingDirectory
import Authorization.Config.Codec
import Authorization.Console
import Authorization.LogFilter
import Authorization.Restriction.Assembly

/-!
# Running commands

A command works on a configuration and yields the lines to print, or an error. Errors of a command
are shown in the console's style; those before it, of the configuration, the log level and the
directory of the log, plainly.
-/

namespace Authorization.CommandLine

/-- Why a command fails. -/
inductive CommandError where
  | noPair (text : String)
  | undeclared (name : String) (declared : List String)
  | value (text : String) (type : ValueType)
  | refused (error : AuthorizationError)

namespace CommandError

/-- What is said about a command that cannot be carried out. -/
def message : CommandError → String
  | noPair text => "expected name=value, got '" ++ text ++ "'"
  | undeclared name declared =>
    "unsupported restriction '" ++ name ++ "', expected one of: " ++
      Text.joinWith ", " declared
  | value text type => "'" ++ text ++ "' is not a valid " ++ type.title ++ " value"
  | refused error => error.message

end CommandError

/-- Lines to print, or an error. -/
abbrev CommandResult := Except CommandError (List String)

/-- An outcome whose error ends the command. -/
def lift {α : Type} (outcome : Except AuthorizationError α) : Except CommandError α :=
  outcome.mapError .refused

/-- The `check` command: whether actions are granted at a path. -/
def runCheck (config : Configuration) (console : Console) (path actions : String) :
    CommandResult := do
  let deployment ← lift config.build
  let granted ← lift (deployment.answers.isGrantedPath path actions).run
  pure [console.renderDecision path actions granted]

/-- Shows the privileges at a path, or says whether some are all granted. -/
def runPrivileges (config : Configuration) (console : Console) (path : Option String)
    (has : List String) : CommandResult := do
  let deployment ← lift config.build
  let tree := path.map fun path => (Tree.root config.contentRoot).descendant path
  let label := path.getD "<repository>"
  if has.isEmpty then
    pure (console.renderPrivileges label (deployment.answers.privileges tree))
  else
    let granted ← lift (deployment.answers.hasPrivileges tree has).run
    pure [console.renderDecision label (Text.joinWith "," has) granted]

/-- Shows the decisions about the places below a tree along some names, up to the first place where
there is no node. -/
def walkLines (snapshot : Snapshot Id PolicyLeaf PolicyDecision)
    (provider : Arrangement PolicyLeaf) (console : Console) :
    List String → Tree → TreePermission PolicyLeaf PolicyDecision → List String
  | [], _, _ => []
  | name :: names, tree, permission =>
    let tree := tree.child name
    if tree.present then
      let permission : TreePermission PolicyLeaf PolicyDecision :=
        provider.treePermission snapshot tree permission
      permission.renderStep snapshot console tree.path ::
        walkLines snapshot provider console names tree permission
    else [console.renderInfo (tree.path ++ " does not exist")]

/-- Shows the decisions from the root down to a path. -/
def runWalk (config : Configuration) (console : Console) (path : String) : CommandResult := do
  let deployment ← lift config.build
  let snapshot := deployment.snapshot
  let tree := Tree.root config.contentRoot
  let permission : TreePermission PolicyLeaf PolicyDecision :=
    deployment.provider.treePermission snapshot tree .empty
  pure (permission.renderStep snapshot console tree.path ::
    walkLines snapshot deployment.provider console (Path.elements path) tree permission)

def readValue (type : ValueType) (text : String) : Except CommandError Value :=
  match Value.parse? type text with
  | some value => .ok value
  | none => .error (.value text type)

/-- Reads a restriction given as a name and a value around an equals sign. The values of a
restriction that may have several stand between commas. -/
def readRestriction (service : RestrictionService) (entryPath text : String) :
    Except CommandError Restriction :=
  match Text.splitFirst? '=' text.toList with
  | none => .error (.noPair text)
  | some (name, value) => do
    let name := String.ofList name
    let value := String.ofList value
    let supported := service.supported (some entryPath)
    match supported.find? fun definition => definition.name == name with
    | none => throw (.undeclared name (supported.map RestrictionDefinition.name))
    | some definition =>
      if definition.multiValued then
        let texts := ((Text.pieces ',' value).map Text.trim).filter (· ≠ "")
        let values ← texts.mapM (readValue definition.valueType)
        lift (service.createMulti (some entryPath) name values)
      else
        lift (service.create (some entryPath) name (← readValue definition.valueType value))

/-- The `match` command: whether an entry with restrictions applies to an item. -/
def runMatch (console : Console) (entryPath : String) (restrictions : List String)
    (path : String) (property : Option String) : CommandResult := do
  let service := RestrictionService.standard
  let restrictions ← restrictions.mapM (readRestriction service entryPath)
  let (outcome, store) := (service.write (some entryPath) restrictions).run.run []
  lift outcome
  lift (service.validate (some entryPath) store)
  let pattern := service.pattern (some entryPath) store
  pure <| match property with
    | some name =>
      [console.renderDecision (Path.concat path name) "matches"
        (pattern.matchesProperty path name)]
    | none => [console.renderDecision path "matches" (pattern.matchesNode path)]

/-- What a command prints. -/
def Command.run (command : Command) (config : Configuration) (console : Console) :
    CommandResult :=
  match command with
  | check path actions => runCheck config console path actions
  | privileges path has => runPrivileges config console path has
  | walk path => runWalk config console path
  | matching entryPath restrictions path property =>
    runMatch console entryPath restrictions path property

/-- What the program does. -/
structure Outcome where
  code : Nat
  lines : List String := []
  error : Option String := none
  deriving DecidableEq

/-- How the program is used. -/
def usage : List String :=
  ["Usage: authorization --config FILE [--log-level LEVEL] COMMAND",
    "Commands:",
    "  check --path PATH --actions ACTIONS",
    "  privileges [--path PATH] [--has PRIVILEGE]...",
    "  walk --path PATH",
    "  match --entry-path PATH [--restriction NAME=VALUE]... --path PATH [--property NAME]"]

def Outcome.failure (message : String) : Outcome :=
  { code := 1, error := some ("Error: " ++ message) }

/-- A failure that the program is not prepared for. -/
def Outcome.breakdown (message : String) : Outcome := { code := 101, error := some message }

/-- The configuration of an invocation: that in a file, with the log level replaced if one is
given. -/
def Invocation.configuration (invocation : Invocation) (text : Option String) :
    Except Outcome Configuration :=
  match text.map Configuration.parse with
  | some (.ok config) =>
    let level := invocation.logLevel.getD config.logging.level
    match LogFilter.fault? level with
    | some .torn => .error (.breakdown LogFilterFault.torn.message)
    | _ =>
      match LogFilter.check level with
      | .ok _ => .ok { config with logging := { config.logging with level } }
      | .error error => .error (.failure error.message)
  | _ => .error (.failure ("failed to load " ++ invocation.config))

/-- All that is needed to carry out a command. -/
structure Job where
  config : Configuration
  command : Command

/-- The job that arguments ask for, given what files hold, or what the program does instead. -/
def prepare (fileText : String → Option String) (arguments : List String) : Except Outcome Job :=
  match readInvocation arguments with
  | .error .help => .error { code := 0, lines := usage }
  | .error .misuse => .error { code := 2, error := some (Text.joinWith "\n" usage) }
  | .ok invocation =>
    (invocation.configuration (fileText invocation.config)).map fun config =>
      { config, command := invocation.command }

/-- Does a job, unless its log could not be begun. -/
def Job.finish (job : Job) (styled : Bool) : Except LogFault Unit → Outcome
  | .error (.directory reason) => .failure ("IO error: " ++ reason)
  | .error (.file reason) => .breakdown ("the log cannot be opened: " ++ reason)
  | .ok _ =>
    let console : Console := { styled }
    match job.command.run job.config console with
    | .ok lines => { code := 0, lines }
    | .error error => { code := 1, error := some (console.renderError error.message) }

/-- Runs the program on a day in a working directory, given whether the console is styled. -/
def run (directory : WorkingDirectory) (day : String) (styled : Bool) (arguments : List String) :
    Outcome × WorkingDirectory :=
  match prepare directory.text? arguments with
  | .error outcome => (outcome, directory)
  | .ok job =>
    match job.config.logging.directory with
    | none => (job.finish styled (.ok ()), directory)
    | some path =>
      let (directory, begun) := directory.beginLog day path
      (job.finish styled begun, directory)

end Authorization.CommandLine
