import Authorization.Error
import Authorization.Policy.Basic
import Authorization.Provider.Arrangement
import Authorization.World

/-!
# Configurations

A configuration lists the content, the policy modules in their order and how they are combined. It
is checked before providers are built from it: paths must start at the root, and module names must
be present and distinct.
-/

namespace Authorization

/-- What a policy module allows and denies at a path. -/
structure ModuleEntry where
  /-- The path, which applies to everything below it too. -/
  path : String
  allow : Permissions := ∅
  deny : Permissions := ∅
  deriving DecidableEq

/-- The part of a configuration about one provider. -/
structure ModuleConfig where
  name : String
  covers : Permissions
  repository : Permissions := ∅
  entries : List ModuleEntry := []
  deriving DecidableEq

namespace ModuleConfig

/-- A module with one more entry, which allows permissions at a path. -/
def allow (module : ModuleConfig) (path : String) (permissions : Permissions) : ModuleConfig :=
  { module with entries := module.entries ++ [{ path, allow := permissions }] }

/-- A module with one more entry, which denies permissions at a path. -/
def deny (module : ModuleConfig) (path : String) (permissions : Permissions) : ModuleConfig :=
  { module with entries := module.entries ++ [{ path, deny := permissions }] }

def policy (module : ModuleConfig) : Policy :=
  module.entries.foldl
    (fun policy entry => (policy.allow entry.path entry.allow).deny entry.path entry.deny)
    (Policy.grantRepository { covers := module.covers } module.repository)

end ModuleConfig

/-- How the program logs. -/
structure LoggingConfig where
  level : String := "info"
  json : Bool := false
  /-- The directory of the log files; lines go to the error stream without one. -/
  directory : Option String := none
  deriving DecidableEq

/-- A configuration of providers and content. -/
structure Configuration where
  composition : Composition := .and
  content : List String := []
  modules : List ModuleConfig := []
  logging : LoggingConfig := {}
  deriving DecidableEq

/-- A provider with the state that it starts in. -/
structure Deployment where
  world : World
  provider : Arrangement PolicyLeaf

namespace Deployment

def snapshot (deployment : Deployment) : Snapshot Id PolicyLeaf PolicyDecision :=
  deployment.world.snapshot

def answers (deployment : Deployment) : Provider Id :=
  deployment.provider.provider deployment.snapshot

end Deployment

namespace Configuration

/-- The first fault of the policy modules, given the names already taken. -/
def moduleFault? : List ModuleConfig → List String → Option ConfigurationFault
  | [], _ => none
  | module :: modules, taken =>
    if module.name = "" then some .unnamedModule
    else if module.name ∈ taken then some (.duplicateModule module.name)
    else match module.entries.find? fun entry => !Path.isAbsolute entry.path with
      | some entry => some (.relativeEntry entry.path module.name)
      | none => moduleFault? modules (module.name :: taken)

/-- The first fault of a configuration. Content paths come before policy modules. -/
def fault? (config : Configuration) : Option ConfigurationFault :=
  match config.content.find? fun path => !Path.isAbsolute path with
  | some path => some (.relativeContent path)
  | none => moduleFault? config.modules []

/-- Accepts a configuration, or says what is wrong with it. -/
def validate (config : Configuration) : Except AuthorizationError Unit :=
  match config.fault? with
  | some fault => .error (.invalidConfiguration fault)
  | none => .ok ()

/-- The content that a configuration lists. -/
def contentRoot (config : Configuration) : Node :=
  Node.ofContent (config.content.map fun path => { path })

/-- The policy of the module of a number. -/
def policyOf (config : Configuration) (i : Nat) : Policy :=
  ((config.modules[i]?).map ModuleConfig.policy).getD { covers := ∅ }

/-- How a configuration combines its modules. -/
def combination (config : Configuration) : Combination where
  id := 0
  composition := config.composition
  context := .plain
  classify := Context.plain.classify
  catalogue := .builtin

/-- The policy modules as providers, numbered in order. -/
def leaves (config : Configuration) : List PolicyLeaf :=
  config.modules.zipIdx.map fun (module, id) => { id, name := module.name, context := .plain }

/-- The provider over the policy modules: none, the only one, or their composite. -/
def provider (config : Configuration) : Arrangement PolicyLeaf :=
  .collapse config.combination (config.leaves.map .leaf)

/-- The provider of a configuration, which is checked first, seeing the configured content. -/
def build (config : Configuration) : Except AuthorizationError Deployment := do
  config.validate
  pure { world := .initial config.contentRoot config.policyOf, provider := config.provider }

end Configuration

end Authorization
