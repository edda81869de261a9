import Authorization.Config.Basic
import Authorization.Json.Reader

/-!
# Configurations as JSON

A configuration is written with all its fields. In reading, every field with a default may be left
out, unknown members are skipped, and only the log directory may be null.
-/

namespace Authorization

/-- Reads a set of permissions. -/
def Permissions.ofJson? (json : Json) : Option Permissions := json.text?.bind Mask.parse?

/-- Permissions as they are written to a file. -/
def Permissions.toJson (permissions : Permissions) : Json := .text permissions.serialize

namespace ModuleEntry

/-- Reads an entry, whose permissions may be left out. -/
def ofJson? (json : Json) : Option ModuleEntry :=
  match json.record? ["path", "allow", "deny"] with
  | some [some path, allow, deny] => do
    return { path := ← path.text?
             allow := ← Json.optional? Permissions.ofJson? ∅ allow
             deny := ← Json.optional? Permissions.ofJson? ∅ deny }
  | _ => none

def toJson (entry : ModuleEntry) : Json :=
  .record [("path", .text entry.path), ("allow", entry.allow.toJson), ("deny", entry.deny.toJson)]

end ModuleEntry

namespace ModuleConfig

/-- Reads a policy module. -/
def ofJson? (json : Json) : Option ModuleConfig :=
  match json.record? ["name", "covers", "repository", "entries"] with
  | some [some name, some covers, repository, entries] => do
    return { name := ← name.text?
             covers := ← Permissions.ofJson? covers
             repository := ← Json.optional? Permissions.ofJson? ∅ repository
             entries := ← Json.optional? (Json.list? ModuleEntry.ofJson?) [] entries }
  | _ => none

def toJson (module : ModuleConfig) : Json :=
  .record [("name", .text module.name), ("covers", module.covers.toJson),
    ("repository", module.repository.toJson),
    ("entries", .array (module.entries.map ModuleEntry.toJson))]

end ModuleConfig

namespace LoggingConfig

/-- Reads a directory, which may be null. -/
def directoryOfJson? : Json → Option (Option String)
  | .null => some none
  | json => json.text?.map some

/-- Reads how the program logs. -/
def ofJson? (json : Json) : Option LoggingConfig :=
  match json.record? ["level", "json", "directory"] with
  | some [level, lines, directory] => do
    return { level := ← Json.optional? Json.text? "info" level
             json := ← Json.optional? Json.boolean? false lines
             directory := ← Json.optional? directoryOfJson? none directory }
  | _ => none

/-- How the program logs, as JSON. -/
def toJson (logging : LoggingConfig) : Json :=
  .record [("level", .text logging.level), ("json", .boolean logging.json),
    ("directory", match logging.directory with
      | some directory => .text directory
      | none => .null)]

end LoggingConfig

def Composition.ofJson? (json : Json) : Option Composition := json.word?.bind ofWord?

namespace Configuration

/-- Reads a configuration, unchecked. -/
def ofJson? (json : Json) : Option Configuration :=
  match json.record? ["composition", "content", "providers", "logging"] with
  | some [composition, content, modules, logging] => do
    return { composition := ← Json.optional? Composition.ofJson? .and composition
             content := ← Json.optional? (Json.list? Json.text?) [] content
             modules := ← Json.optional? (Json.list? ModuleConfig.ofJson?) [] modules
             logging := ← Json.optional? LoggingConfig.ofJson? {} logging }
  | _ => none

def toJson (config : Configuration) : Json :=
  .record [("composition", .text config.composition.word),
    ("content", .array (config.content.map .text)),
    ("providers", .array (config.modules.map ModuleConfig.toJson)),
    ("logging", config.logging.toJson)]

/-- The configuration that a value stands for, if it is one that can be used. -/
def load (json : Json) : Except AuthorizationError Configuration :=
  match ofJson? json with
  | some config => do
    config.validate
    pure config
  | none => .error .unreadable

/-- The configuration in a text, if it is one that can be used. -/
def parse (text : String) : Except AuthorizationError Configuration :=
  match Json.parse? text with
  | some json => load json
  | none => .error .unreadable

end Configuration

end Authorization
