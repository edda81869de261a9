import Authorization.Content.Tree

/-!
# Contexts and tree types

A context says which items belong to access control itself. The type of a tree is found from the
root downwards: each node's type follows from its parent's type, its own name and the context.
-/

namespace Authorization

/-- Which items are access control content. -/
structure Context where
  definesTree : Tree → Bool
  /-- Whether a property of a node is access control content. -/
  definesProperty : Tree → Property → Bool
  /-- Whether the item at a location is access control content. -/
  definesLocation : Location → Bool

namespace Context

/-- Whether a recognised name stands on the path. -/
def onPath (recognised : String → Bool) (path : String) : Bool :=
  (Path.elements path).any recognised

/-- The context that recognises content by names: an item is access control content if a recognised
name stands on its path. Properties are looked up by the path of their node, but by their own path
as the item at a location. -/
def ofNames (recognised : String → Bool) : Context where
  definesTree tree := onPath recognised tree.path
  definesProperty parent _ := onPath recognised parent.path
  definesLocation location := onPath recognised location.path

theorem definesTree_ofNames (recognised : String → Bool) (tree : Tree) :
    (ofNames recognised).definesTree tree = onPath recognised tree.path := rfl

theorem definesLocation_ofNames (recognised : String → Bool) (location : Location) :
    (ofNames recognised).definesLocation location = onPath recognised location.path := rfl

/-- The names of the nodes that hold policies. -/
def policyNames : List String := ["rep:policy", "rep:repoPolicy"]

/-- The context to which nothing is access control content. -/
def plain : Context := ofNames fun _ => false

/-- The context to which everything at or below a policy node is access control content. -/
def accessControl : Context := ofNames policyNames.contains

end Context

/-- What kind of content a tree belongs to. -/
inductive TreeType where
  | default
  | accessControl
  | version
  | internal
  | hidden
  deriving DecidableEq

namespace TreeType

def all : List TreeType := [default, accessControl, version, internal, hidden]

def word : TreeType → String
  | default => "default"
  | accessControl => "access_control"
  | version => "version"
  | internal => "internal"
  | hidden => "hidden"

/-- The capitalised word for a type. -/
def title : TreeType → String
  | default => "Default"
  | accessControl => "AccessControl"
  | version => "Version"
  | internal => "Internal"
  | hidden => "Hidden"

/-- The type that a word stands for. -/
def ofWord? (text : String) : Option TreeType := all.find? fun type => type.word == text

end TreeType

/-- What tells the type of a tree from that of its parent. -/
abbrev Classifier := Tree → TreeType → TreeType

namespace Context

/-- The names of the version stores. -/
def versionStoreNames : List String :=
  ["jcr:versionStorage", "jcr:activities", "jcr:configurations"]

/-- The name of the node that holds compiled permissions. -/
def permissionStoreName : String := "rep:permissionStore"

def isBelowSystem (path : String) : Bool :=
  (Text.dropStart? "/jcr:system/".toList path.toList).isSome

end Context

/-- The type of a tree below a parent of the given type, where `defines` says which trees are access
control content. Hidden, version and internal content pass their type on to everything below;
access control content passes it on unless a special name is met. -/
def Classifier.standard (defines : Tree → Bool) : Classifier := fun tree parent =>
  match parent with
  | .hidden => .hidden
  | .version => .version
  | .internal => .internal
  | .default | .accessControl =>
    if Path.isHiddenName tree.name then .hidden
    else if Context.versionStoreNames.contains tree.name && Context.isBelowSystem tree.path then
      .version
    else if tree.name = Context.permissionStoreName then .internal
    else if parent = .accessControl ∨ defines tree then .accessControl
    else .default

namespace Context

/-- The types that a context tells. -/
def classify (context : Context) : Classifier := .standard context.definesTree

end Context

end Authorization
