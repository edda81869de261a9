import Authorization.Provider.Composite

/-!
# Deriving decisions from parent to child

A composite decides about the root by asking every member, and about any other place in lockstep:
every member derives its decision from the one it gave for the parent. A member without recourse is
not asked again, and a node where every member is empty or without recourse is empty as a whole.

A composite finds the place by its path in its own content snapshot, whatever tree it is given.
-/

namespace Authorization

variable {m : Type → Type} [Monad m] {L D : Type}

/-- The decision combined from the parts, or the empty decision if no part grants anything. -/
def Site.combine (site : Site) (parts : List (Arrangement L × TreePermission L D)) :
    TreePermission L D :=
  if parts.all fun part => part.2.grantsNothing then .empty else .combined site parts

namespace Arrangement

mutual

/-- The decision about the root. No decision about a parent is consulted. -/
def decideRoot (snapshot : Snapshot m L D) : Arrangement L → Tree → m (TreePermission L D)
  | empty, _ => pure .empty
  | leaf single, tree => do
    pure (.node (← (snapshot.leaf single).decideTyped tree .default .empty))
  | composite _ [], _ => pure .empty
  | composite combination (member :: members), _ => do
    let tree := Tree.root (snapshot.root combination.id)
    let parts ← decideRoots snapshot (member :: members) tree
    pure (.combined
      { tree, type := .default, classify := combination.classify
        composition := combination.composition } parts)

/-- The decisions of members about the root, in order. -/
def decideRoots (snapshot : Snapshot m L D) :
    List (Arrangement L) → Tree → m (List (Arrangement L × TreePermission L D))
  | [], _ => pure []
  | member :: members, tree => do
    let decision ← decideRoot snapshot member tree
    let others ← decideRoots snapshot members tree
    pure ((member, decision) :: others)

end

end Arrangement

namespace TreePermission

variable [NodeDecision D]

mutual

/-- The decision of a provider about a tree of a type, derived from a decision about the parent. A
composite finds the place in its own content; it starts afresh at the root, derives from the parts
of a combined decision, and passes other decisions on as they are. -/
def derive (snapshot : Snapshot m L D) :
    TreePermission L D → Arrangement L → Tree → TreeType → m (TreePermission L D)
  | .node permission, arrangement, tree, type =>
    match arrangement with
    | .empty => pure empty
    | .leaf single => do
      pure (.node (← (snapshot.leaf single).decideTyped tree type (.node permission)))
    | .composite combination members =>
      let tree := (Tree.root (snapshot.root combination.id)).descendant tree.path
      if tree.isRoot then Arrangement.decideRoot snapshot (.composite combination members) tree
      else pure (.node (permission.child tree.name tree.state))
  | .combined site parts, arrangement, tree, type =>
    match arrangement with
    | .empty => pure empty
    | .leaf single => do
      pure (.node (← (snapshot.leaf single).decideTyped tree type (.combined site parts)))
    | .composite combination members =>
      let tree := (Tree.root (snapshot.root combination.id)).descendant tree.path
      if tree.isRoot then Arrangement.decideRoot snapshot (.composite combination members) tree
      else do
        let type := site.classify tree site.type
        let derived ← deriveParts snapshot parts tree type
        pure ({ site with tree, type, memo := {} }.combine derived)

/-- The decisions of all parts about a child: a part without recourse stays so, and every other
part is derived by its provider. -/
def deriveParts (snapshot : Snapshot m L D) :
    List (Arrangement L × TreePermission L D) → Tree → TreeType →
      m (List (Arrangement L × TreePermission L D))
  | [], _, _ => pure []
  | (arrangement, permission) :: parts, tree, type => do
    let decision ←
      if permission.isNoRecourse then pure permission
      else derive snapshot permission arrangement tree type
    let others ← deriveParts snapshot parts tree type
    pure ((arrangement, decision) :: others)

end

/-- The decision about the child of a name, given what is found there. -/
def child (snapshot : Snapshot m L D) :
    TreePermission L D → String → NodeState → m (TreePermission L D)
  | .node permission, name, state => pure (.node (permission.child name state))
  | .combined site parts, name, state => do
    let tree : Tree := ⟨Path.concat site.tree.path name, state⟩
    let type := site.classify tree site.type
    let derived ← deriveParts snapshot parts tree type
    pure ({ site with tree, type, memo := {} }.combine derived)

end TreePermission

namespace Arrangement

variable [NodeDecision D]

/-- Decides about a tree, given the decision about its parent. -/
def treePermission (snapshot : Snapshot m L D) (arrangement : Arrangement L) (tree : Tree)
    (parent : TreePermission L D) : m (TreePermission L D) :=
  match arrangement with
  | leaf single => do pure (.node (← (snapshot.leaf single).decide tree parent))
  | _ => parent.derive snapshot arrangement tree .default

/-- The decision about a tree of a type, derived from a decision about its parent. -/
def treePermissionTyped (snapshot : Snapshot m L D) (arrangement : Arrangement L) (tree : Tree)
    (type : TreeType) (parent : TreePermission L D) : m (TreePermission L D) :=
  parent.derive snapshot arrangement tree type

/-- The decisions about the root and then about each place along the names, every one derived from
the one before, with the places. -/
def walkFrom (snapshot : Snapshot m L D) (arrangement : Arrangement L) :
    List String → Tree → TreePermission L D → m (List (Tree × TreePermission L D))
  | [], _, _ => pure []
  | name :: names, tree, permission => do
    let tree := tree.child name
    let permission ← arrangement.treePermission snapshot tree permission
    let others ← walkFrom snapshot arrangement names tree permission
    pure ((tree, permission) :: others)

/-- The decisions met on the way from the root down a path, the root's first. -/
def walk (snapshot : Snapshot m L D) (arrangement : Arrangement L) (root : Tree) (path : String) :
    m (List (Tree × TreePermission L D)) := do
  let permission ← arrangement.treePermission snapshot root .empty
  let others ← arrangement.walkFrom snapshot (Path.elements path) root permission
  pure ((root, permission) :: others)

end Arrangement

end Authorization
