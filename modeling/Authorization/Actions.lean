import Authorization.Content.Tree
import Authorization.Dictionary
import Authorization.Error
import Authorization.Permissions
import Authorization.Text.Blank

/-!
# Action strings

Actions are given as names between commas. What some of them ask for depends on what exists at the
location they are meant for, and on whether the item is access control content. The names are taken
out of the string's set of names in turn, first those that depend on the location, and a name that
remains in the end is unknown.
-/

namespace Authorization

/-- Something to be done to an item. -/
inductive Action where
  | read
  | addNode
  | remove
  | setProperty
  | addProperty
  | modifyProperty
  | removeProperty
  | removeNode
  | readAccessControl
  | modifyAccessControl
  | locking
  | nodeTypeManagement
  | versioning
  | userManagement
  deriving DecidableEq

namespace Action

/-- The name of an action in action strings. -/
def word : Action → String
  | read => "read"
  | addNode => "add_node"
  | remove => "remove"
  | setProperty => "set_property"
  | addProperty => "add_property"
  | modifyProperty => "modify_property"
  | removeProperty => "remove_property"
  | removeNode => "remove_node"
  | readAccessControl => "read_access_control"
  | modifyAccessControl => "modify_access_control"
  | locking => "locking"
  | nodeTypeManagement => "node_type_management"
  | versioning => "versioning"
  | userManagement => "user_management"

/-- The actions that ask for the same permission wherever they are meant. -/
def plain : List (Action × Permissions) :=
  [(addNode, .addNode), (removeNode, .removeNode), (addProperty, .addProperty),
    (modifyProperty, .modifyProperty), (removeProperty, .removeProperty),
    (readAccessControl, .readAccessControl), (modifyAccessControl, .modifyAccessControl),
    (locking, .lockManagement), (nodeTypeManagement, .nodeTypeManagement),
    (versioning, .versionManagement), (userManagement, .userManagement)]

/-- The actions that change content. -/
def writes : List Action :=
  [addNode, remove, setProperty, addProperty, modifyProperty, removeProperty, removeNode]

/-- What reading an item asks for. -/
def toRead (location : Location) (accessControl : Bool) : Permissions :=
  if accessControl then .readAccessControl
  else if !location.isPresent then .read
  else if location.property?.isSome then .readProperty
  else .readNode

/-- What setting a property asks for. -/
def toSetProperty (location : Location) : Permissions :=
  if location.property?.isSome then .modifyProperty else .addProperty

/-- What removing an item asks for. -/
def toRemove (location : Location) : Permissions :=
  if !location.isPresent then .remove
  else if location.property?.isSome then .removeProperty
  else .removeNode

/-- The pieces of an action string: the texts between commas without blanks around them, those that
are blank left out. -/
def pieces (actions : String) : List String :=
  ((Text.pieces ',' actions).map Text.trim).filter (· ≠ "")

end Action

/-- The names of an action string that are still to be understood, and what the others ask for. -/
structure ActionRequest where
  remaining : List String
  asked : Permissions := ∅

namespace ActionRequest

/-- Takes the name of an action out, if it remains, and asks for permissions in its place. -/
def take (request : ActionRequest) (action : Action) (permissions : Permissions) :
    ActionRequest :=
  if action.word ∈ request.remaining then
    { remaining := request.remaining.filter (· ≠ action.word)
      asked := request.asked ∪ permissions }
  else request

/-- Takes the names of actions out one after the other, each with permissions of its own. -/
def takeEach (request : ActionRequest) (table : List (Action × Permissions)) : ActionRequest :=
  table.foldl (fun request entry => request.take entry.1 entry.2) request

/-- Takes the names of several actions out at once, and asks for permissions if one remained. -/
def takeAll (request : ActionRequest) (actions : List Action) (permissions : Permissions) :
    ActionRequest :=
  let others := request.remaining.filter fun name => name ∉ actions.map Action.word
  if others.length = request.remaining.length then request
  else { remaining := others, asked := request.asked ∪ permissions }

/-- What has been asked for, or the names that remain as an error. -/
def outcome (request : ActionRequest) : Except AuthorizationError Permissions :=
  match request.remaining with
  | [] => .ok request.asked
  | unknown => .error (.unknownActions unknown)

end ActionRequest

/-- The permissions that an action string asks for at a location, or all pieces that name no
action. On access control content, reading asks to read access control and every change asks to
modify it. -/
def Permissions.ofActions (actions : String) (location : Location) (accessControl : Bool) :
    Except AuthorizationError Permissions :=
  let named : ActionRequest := { remaining := Dictionary.distinct (Action.pieces actions) }
  let read := named.take .read (Action.toRead location accessControl)
  let changed :=
    if accessControl then read.takeAll Action.writes .modifyAccessControl
    else (read.take .setProperty (Action.toSetProperty location)).take .remove
      (Action.toRemove location)
  (changed.takeEach Action.plain).outcome

end Authorization
