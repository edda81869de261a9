import Authorization.Policy.Decision
import Authorization.Provider.Basic

/-!
# Providers of static policies

A policy provider answers from the policy in force. A new policy is staged first and comes into
force at the next refresh, together with the content that is current then.
-/

namespace Authorization

/-- A policy provider: which it is, and how it looks at content. -/
structure PolicyLeaf where
  /-- The number of the provider, under which its state is kept. -/
  id : Nat
  name : String
  /-- Which items are access control content, for action strings. -/
  context : Context

/-- A policy in force, and what the provider knows of the content. -/
structure PolicyState where
  policy : Policy
  /-- The policy that comes into force at the next refresh. -/
  staged : Option Policy
  root : NodeState

namespace PolicyState

def stage (state : PolicyState) (policy : Policy) : PolicyState :=
  { state with staged := some policy }

/-- The state after a refresh with the given content. -/
def refresh (state : PolicyState) (root : NodeState) : PolicyState :=
  { policy := state.staged.getD state.policy, staged := none, root }

/-- What is granted on a tree, or on the repository without one. Nothing is granted on hidden
trees. -/
def granted (state : PolicyState) : Option Tree → Permissions
  | some tree => if Path.isHidden tree.path then ∅ else state.policy.grantedAt tree.path
  | none => state.policy.grantedAtRepository

/-- Whether all of a request is granted at a location. -/
def grantsAt (state : PolicyState) (location : Location) (asked : Permissions) : Bool :=
  !asked.isEmpty && !Path.isHidden location.nodePath &&
    asked ⊆ state.policy.grantedAt location.nodePath

end PolicyState

namespace PolicyLeaf

variable {m : Type → Type} [Monad m] {L D : Type}

/-- The answers of a policy provider in a state, with its decisions taken into another kind. -/
def provider (leaf : PolicyLeaf) (state : PolicyState) (kind : PolicyDecision → D) :
    LeafProvider m L D where
  name := leaf.name
  coversPrivileges _ asked :=
    let supported := PrivilegeBits.ofPermissions state.policy.covers
    match asked with
    | some asked => asked ∩ supported
    | none => supported
  covers _ _ asked := asked ∩ state.policy.covers
  coversAt _ asked := asked ∩ state.policy.covers
  coversDecision _ _ asked := asked ∩ state.policy.covers
  privileges tree := pure (PrivilegeBits.ofPermissions (state.granted tree)).toNames
  hasPrivileges tree names := do
    let requested ← PrivilegeCatalogue.builtin.bits names
    pure (decide (requested ⊆ PrivilegeBits.ofPermissions (state.granted tree)))
  isGrantedRepository asked :=
    pure (!asked.isEmpty && asked ⊆ state.policy.grantedAtRepository)
  isGranted tree _ asked := pure (!asked.isEmpty && asked ⊆ state.granted (some tree))
  isGrantedPath path actions := do
    let location := Location.resolve (.root state.root) path
    let asked ← Permissions.ofActions actions location (leaf.context.definesLocation location)
    pure (state.grantsAt location asked)
  isGrantedAt location asked := pure (state.grantsAt location asked)
  repository := pure (.granting state.policy.grantedAtRepository)
  decide tree _ := pure ((state.policy.decide tree.path (Path.isHidden tree.path)).map kind)
  decideTyped tree type _ := pure ((state.policy.decide tree.path (type = .hidden)).map kind)

end PolicyLeaf

end Authorization
