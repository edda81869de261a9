import Authorization.Content.Value
import Authorization.Dictionary
import Authorization.Path

/-!
# Content nodes

A node holds properties and child nodes under their names. Content is described by paths: every
node along a path is created if it is missing, and a created node carries its primary type.
-/

namespace Authorization

/-- A node: its properties under their names, and its children under theirs. -/
inductive Node where
  | mk (properties : List (String × Property)) (children : List (String × Node))

/-- What is found at a place of a content tree: a node, or nothing. -/
abbrev NodeState := Option Node

/-- A path to create, with the properties to set on its node. -/
structure ContentItem where
  path : String
  properties : List Property := []

namespace Node

/-- The property that names a node's type. -/
def primaryType : String := "jcr:primaryType"

/-- The properties of a node, in the order of their names. -/
def properties : Node → Dictionary Property
  | mk properties _ => properties

/-- The children of a node, in the order of their names. -/
def children : Node → Dictionary Node
  | mk _ children => children

/-- A node without properties and children. -/
def bare : Node := mk [] []

/-- A node with nothing but the default primary type. -/
def fresh : Node :=
  mk [(primaryType, Property.single primaryType (.name "nt:unstructured"))] []

def setProperty (node : Node) (property : Property) : Node :=
  mk (node.properties.insert property.name property) node.children

/-- A node with a child, in place of the one with its name. -/
def setChild (node : Node) (name : String) (child : Node) : Node :=
  mk node.properties (node.children.insert name child)

/-- The node with the descendant reached by the names changed; nodes missing on the way, the
descendant included, are created first. -/
def modifyAt (change : Node → Node) : List String → Node → Node
  | [], node => change node
  | name :: rest, node =>
    node.setChild name (modifyAt change rest ((node.children.find? name).getD fresh))

/-- The node with a path added below it and the properties set at its end. -/
def add (node : Node) (item : ContentItem) : Node :=
  node.modifyAt (fun target => item.properties.foldl setProperty target)
    (Path.elements item.path)

/-- The node that a list of content describes, item after item. -/
def ofContent (items : List ContentItem) : Node := items.foldl add bare

end Node

namespace NodeState

/-- The state of a child. Children of missing nodes are missing. -/
def child (state : NodeState) (name : String) : NodeState :=
  state.bind fun node => node.children.find? name

def property? (state : NodeState) (name : String) : Option Property :=
  state.bind fun node => node.properties.find? name

/-- The properties of a node, in the order of their names. -/
def properties (state : NodeState) : List Property :=
  match state with
  | some node => node.properties.values
  | none => []

def childNames (state : NodeState) : List String :=
  match state with
  | some node => node.children.keys
  | none => []

end NodeState

end Authorization
