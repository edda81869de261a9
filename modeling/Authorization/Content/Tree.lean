import Authorization.Content.Node

/-!
# Trees and locations

A tree is a place in the content, known by its path, whether or not a node exists there. A
location is what an arbitrary path denotes: a node, a property of a node, or nothing.
-/

namespace Authorization

/-- A place in the content, with the node found there. -/
structure Tree where
  path : String
  /-- The node at the place, if it exists. -/
  state : NodeState

namespace Tree

/-- The tree at the root, in some state. -/
def root (state : NodeState) : Tree := ⟨Path.root, state⟩

/-- The name of the place, empty for the root. -/
def name (tree : Tree) : String := Path.name tree.path

def isRoot (tree : Tree) : Bool := Path.isRoot tree.path

/-- Whether a node exists at the place. -/
def present (tree : Tree) : Bool := tree.state.isSome

def property? (tree : Tree) (name : String) : Option Property := tree.state.property? name

/-- The place of a child, which may not exist. -/
def child (tree : Tree) (name : String) : Tree :=
  ⟨Path.concat tree.path name, tree.state.child name⟩

/-- The place reached by the elements of a relative path. -/
def descendant (tree : Tree) (relative : String) : Tree :=
  (Path.elements relative).foldl child tree

end Tree

/-- What a path denotes. -/
inductive Location where
  | node (tree : Tree)
  | property (parent : Tree) (property : Property)
  | nothing (path : String)

namespace Location

/-- What a path denotes below a root: a node if there is one, else a property of the node at the
parent path, else nothing. -/
def resolve (root : Tree) (path : String) : Location :=
  let tree := root.descendant path
  if tree.present then node tree
  else
    let found := (Path.parent? path).bind fun above =>
      let parent := root.descendant above
      (parent.property? (Path.name path)).map (Location.property parent)
    found.getD (nothing path)

def path : Location → String
  | node tree => tree.path
  | property parent item => Path.concat parent.path item.name
  | nothing path => path

/-- Whether an item exists. -/
def isPresent : Location → Bool
  | nothing _ => false
  | _ => true

/-- The tree that a location belongs to. -/
def tree? : Location → Option Tree
  | node tree => some tree
  | property parent _ => some parent
  | nothing _ => none

def property? : Location → Option Property
  | property _ item => some item
  | _ => none

/-- The path of the node whose policy decides about the item. -/
def nodePath : Location → String
  | node tree => tree.path
  | property parent _ => parent.path
  | nothing path => path

end Location

end Authorization
