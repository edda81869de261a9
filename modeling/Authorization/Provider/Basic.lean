import Authorization.Actions
import Authorization.Decision.Tree

/-!
# Providers

A provider says which part of a request it has an opinion on and gives its verdicts. Single
providers decide about trees besides. Verdicts are given in a monad, so that being asked may leave
a trace; coverage is plain.
-/

namespace Authorization

/-- A decision at repository level. -/
inductive RepositoryPermission (L : Type) where
  | all
  | empty
  | granting (granted : Permissions)
  /-- The decision of several providers, each asked anew for every check. -/
  | combined (composition : Composition) (members : List (Arrangement L))

/-- What a provider covers and answers at one moment. -/
structure Provider (m : Type → Type) where
  /-- The part of the given privileges that the provider evaluates on a tree, or on the repository
  without a tree; all that it evaluates there if none are given. -/
  coversPrivileges : Option Tree → Option PrivilegeBits → PrivilegeBits
  covers : Option Tree → Option Property → Permissions → Permissions
  coversAt : Location → Permissions → Permissions
  privileges : Option Tree → m (List String)
  hasPrivileges : Option Tree → List String → ExceptT AuthorizationError m Bool
  isGrantedRepository : Permissions → m Bool
  isGranted : Tree → Option Property → Permissions → m Bool
  isGrantedPath : String → String → ExceptT AuthorizationError m Bool
  isGrantedAt : Location → Permissions → m Bool

/-- What a single provider covers and answers at one moment, decisions about trees included. -/
structure LeafProvider (m : Type → Type) (L D : Type) extends Provider m where
  name : String
  coversDecision : TreePermission L D → Option Property → Permissions → Permissions
  repository : m (RepositoryPermission L)
  decide : Tree → TreePermission L D → m (NodePermission D)
  decideTyped : Tree → TreeType → TreePermission L D → m (NodePermission D)

/-- What all providers see at one moment. -/
structure Snapshot (m : Type → Type) (L D : Type) where
  /-- The root of the content that the composite of a number sees. -/
  root : Nat → NodeState
  leaf : L → LeafProvider m L D

namespace Provider

variable {m : Type → Type} [Monad m]

/-- The provider that grants nothing and has no opinions. Even the privileges of no name are not
granted. -/
def empty : Provider m where
  coversPrivileges _ _ := ∅
  covers _ _ _ := ∅
  coversAt _ _ := ∅
  privileges _ := pure []
  hasPrivileges _ _ := pure false
  isGrantedRepository _ := pure false
  isGranted _ _ _ := pure false
  isGrantedPath _ _ := pure false
  isGrantedAt _ _ := pure false

end Provider

end Authorization
