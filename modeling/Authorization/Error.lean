import Authorization.Content.Value
import Authorization.Text.Split

/-!
# Errors

Everything that can go wrong, as causes. `AuthorizationError.message` holds all wording.
-/

namespace Authorization

/-- Why a pattern of wildcards cannot be read. -/
inductive PatternFault where
  /-- Three or more stars in a row. -/
  | wildcards
  /-- Two stars that are not a whole path component. -/
  | recursiveWildcards
  /-- A bracket that opens no character class. -/
  | range
  deriving DecidableEq

/-- A pattern that cannot be read, with the place of the fault. -/
structure PatternError where
  /-- The place, counted in characters. -/
  position : Nat
  fault : PatternFault
  deriving DecidableEq

namespace PatternFault

/-- What is said about a glob that cannot be read. -/
def message : PatternFault → String
  | wildcards => "wildcards are either regular `*` or recursive `**`"
  | recursiveWildcards => "recursive wildcards must form a single path component"
  | range => "invalid range pattern"

end PatternFault

namespace PatternError

/-- The wording of an unreadable pattern. -/
def message (error : PatternError) : String :=
  s!"Pattern syntax error near position {error.position}: " ++ error.fault.message

end PatternError

/-- Why a restriction is invalid. -/
inductive RestrictionFault where
  | type (expected found : ValueType)
  | count (found : Nat)
  | definition
  | repositoryLevel
  /-- A property is single-valued and declared multi-valued, or the other way round. -/
  | multiplicity
  | missing
  /-- Another provider of the same combination declares the name differently. -/
  | conflict
  | pattern (error : PatternError)
  deriving DecidableEq

namespace RestrictionFault

/-- What is said about a restriction that is not accepted. -/
def message : RestrictionFault → String
  | type expected found => "expected " ++ expected.title ++ " value, got " ++ found.title
  | count found => s!"expected a single value, got {found}"
  | definition => "definition does not match the registered one"
  | repositoryLevel => "restrictions are not supported on repository-level entries"
  | multiplicity => "multiplicity does not match the definition"
  | missing => "mandatory restriction is missing"
  | conflict => "conflicting definitions in the enclosing composite"
  | pattern error => error.message

end RestrictionFault

/-- Why a configuration is invalid. -/
inductive ConfigurationFault where
  | relativeContent (path : String)
  | unnamedModule
  | duplicateModule (name : String)
  | relativeEntry (path module : String)
  | logLevel (level reason : String)
  deriving DecidableEq

namespace ConfigurationFault

/-- What is said about a configuration that cannot be used. -/
def message : ConfigurationFault → String
  | relativeContent path => "content path '" ++ path ++ "' is not absolute"
  | unnamedModule => "provider name must not be empty"
  | duplicateModule name => "duplicate provider '" ++ name ++ "'"
  | relativeEntry path module =>
    "entry path '" ++ path ++ "' of provider '" ++ module ++ "' is not absolute"
  | logLevel level reason => "invalid log level '" ++ level ++ "': " ++ reason

end ConfigurationFault

/-- Everything that a caller can be refused for. -/
inductive AuthorizationError where
  | unsupportedRestriction (path : Option String) (name : String)
  | invalidRestriction (path : Option String) (name : String) (fault : RestrictionFault)
  | refreshFailed (provider reason : String)
  | refresh (failures : List AuthorizationError)
  | unknownActions (actions : List String)
  | unknownPrivilege (name : String)
  | invalidConfiguration (fault : ConfigurationFault)
  | unreadable
  | other (text : String)

namespace AuthorizationError

/-- How an error names the place of an entry. -/
def showPath (path : Option String) : String := path.getD "null"

/-- What is shown for an error. -/
def message : AuthorizationError → String
  | unsupportedRestriction path name =>
    "Unsupported restriction (path = " ++ showPath path ++ "; name = " ++ name ++ ")"
  | invalidRestriction path name fault =>
    "Invalid restriction '" ++ name ++ "' (path = " ++ showPath path ++ "): " ++ fault.message
  | refreshFailed provider reason =>
    "Provider '" ++ provider ++ "' failed to refresh: " ++ reason
  | refresh failures => s!"{failures.length} permission providers failed to refresh"
  | unknownActions actions => "Unknown actions: " ++ Text.joinWith "," actions
  | unknownPrivilege name => "Unknown privilege: " ++ name
  | invalidConfiguration fault => "Invalid configuration: " ++ fault.message
  | unreadable => "Serialization error"
  | other text => text

end AuthorizationError

end Authorization
