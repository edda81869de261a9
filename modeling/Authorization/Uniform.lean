import Authorization.Provider.Basic

/-!
# Uniform providers

A uniform provider gives the same answers at every place and keeps a journal of what it is asked.
It serves to observe which questions a composite puts to its members.
-/

namespace Authorization

/-- What a uniform provider decides about every tree. -/
inductive UniformMode where
  | all
  | empty
  | noRecourse
  | masks
  deriving DecidableEq

namespace UniformMode

/-- The mode with a name. -/
def ofWord? (text : String) : Option UniformMode :=
  if text = "all" then some all
  else if text = "empty" then some empty
  else if text = "no_recourse" then some noRecourse
  else if text = "leaf" then some masks
  else none

end UniformMode

/-- A provider with the same answers everywhere. -/
structure UniformLeaf where
  /-- The number of the provider, under which its journal is kept. -/
  id : Nat
  name : String
  covers : Permissions
  granted : Permissions
  /-- The permissions granted on properties of certain names instead, as far as they are covered. -/
  propertyGrants : List (String × Permissions)
  mode : UniformMode
  refreshError : Option String
  privilegeError : Option String
  /-- The privilege names reported in place of those granted. -/
  reports : Option (List String)

/-- The decision of a uniform provider, which is the provider itself. -/
structure UniformDecision where
  leaf : UniformLeaf

/-- What a provider was asked: the number of the provider, and the question as text. -/
structure JournalEntry where
  provider : Nat
  text : String

/-- Answers that may leave entries in a journal. -/
abbrev Journalled := StateM (List JournalEntry)

/-- Adds an entry to the journal. -/
def Journalled.note (provider : Nat) (text : String) : Journalled Unit :=
  modify (· ++ [⟨provider, text⟩])

namespace UniformLeaf

/-- What is granted to nodes: of what is granted, the part that is covered. -/
def nodeGrants (leaf : UniformLeaf) : Permissions := leaf.granted ∩ leaf.covers

/-- What is granted to a property, or to a node. Some properties are granted permissions of their
own. -/
def grants (leaf : UniformLeaf) (property : Option Property) : Permissions :=
  let special := property.bind fun property =>
    (leaf.propertyGrants.find? fun entry => entry.1 == property.name).map Prod.snd
  match special with
  | some granted => granted ∩ leaf.covers
  | none => leaf.nodeGrants

def isGranted (leaf : UniformLeaf) (property : Option Property) (asked : Permissions) : Bool :=
  !asked.isEmpty && asked ⊆ leaf.grants property

/-- The answers at every node. -/
def answers (leaf : UniformLeaf) : NodeAnswers where
  canRead := decide (Permissions.readNode ⊆ leaf.nodeGrants)
  canReadProperty property := decide (Permissions.readProperty ⊆ leaf.grants (some property))
  canReadAll := decide (Permissions.read ⊆ leaf.nodeGrants)
  canReadProperties := decide (Permissions.readProperty ⊆ leaf.nodeGrants)
  isGranted := leaf.isGranted none
  isGrantedProperty asked property := leaf.isGranted (some property) asked

instance : NodeDecision UniformDecision where
  answers decision := decision.leaf.answers
  child decision _ _ := .decided decision

/-- The decision about every tree. -/
def decision (leaf : UniformLeaf) : NodePermission UniformDecision :=
  match leaf.mode with
  | .all => .all
  | .empty => .empty
  | .noRecourse => .noRecourse
  | .masks => .decided ⟨leaf⟩

def repositoryDecision {L : Type} (leaf : UniformLeaf) : RepositoryPermission L :=
  match leaf.mode with
  | .all => .all
  | .empty | .noRecourse => .empty
  | .masks => .granting leaf.nodeGrants

def isGrantedRepository (leaf : UniformLeaf) (asked : Permissions) : Bool :=
  match leaf.mode with
  | .all => true
  | .empty | .noRecourse => false
  | .masks => leaf.isGranted none asked

/-- How a report shows the tree that was asked about. -/
def showTree (tree : Option Tree) : String := (tree.map Tree.path).getD "null"

/-- The answers of a uniform provider, with its decisions taken into another kind. -/
def provider {L D : Type} (leaf : UniformLeaf) (kind : UniformDecision → D) :
    LeafProvider Journalled L D where
  name := leaf.name
  coversPrivileges _ asked :=
    let supported := PrivilegeBits.ofPermissions leaf.covers
    match asked with
    | some asked => asked ∩ supported
    | none => supported
  covers _ _ asked := asked ∩ leaf.covers
  coversAt _ asked := asked ∩ leaf.covers
  coversDecision _ _ asked := asked ∩ leaf.covers
  privileges tree := do
    Journalled.note leaf.id ("privileges " ++ showTree tree)
    pure (leaf.reports.getD (PrivilegeBits.ofPermissions leaf.nodeGrants).toNames)
  hasPrivileges tree names := do
    ExceptT.lift <| Journalled.note leaf.id
      ("has_privileges " ++ showTree tree ++ " " ++ Text.joinWith "," names)
    match leaf.privilegeError with
    | some reason => throw (.other reason)
    | none =>
      let requested ← PrivilegeCatalogue.builtin.bits names
      pure (decide (requested ⊆ PrivilegeBits.ofPermissions leaf.nodeGrants))
  isGrantedRepository asked := do
    Journalled.note leaf.id "repository"
    pure (leaf.isGrantedRepository asked)
  isGranted tree property asked := do
    Journalled.note leaf.id ("is_granted " ++ tree.path ++ " " ++
      ((property.map Property.name).getD "-") ++ " " ++ asked.display)
    pure (leaf.isGranted property asked)
  isGrantedPath _ _ := pure false
  isGrantedAt location asked := do
    Journalled.note leaf.id ("is_granted_at " ++ location.path ++ " " ++ asked.display)
    pure (leaf.isGranted location.property? asked)
  repository := do
    Journalled.note leaf.id "repository"
    pure leaf.repositoryDecision
  decide tree _ := do
    Journalled.note leaf.id ("tree " ++ tree.path ++ " " ++ TreeType.default.word)
    pure (leaf.decision.map kind)
  decideTyped tree type _ := do
    Journalled.note leaf.id ("tree " ++ tree.path ++ " " ++ type.word)
    pure (leaf.decision.map kind)

end UniformLeaf

end Authorization
