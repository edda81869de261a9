import Authorization.Decision.Answers
import Authorization.Policy.Provider
import Authorization.Provider.Refresh

/-!
# Shared state

The published content, what each composite saw of it at its last refresh, and the state of each
policy provider. Publishing content and staging policies is visible to nobody before a refresh.
-/

namespace Authorization

/-- The state that providers share and keep. -/
structure World where
  published : NodeState
  /-- The root of the content that each composite saw last. -/
  roots : Nat → NodeState
  policies : Nat → PolicyState

namespace World

/-- The values with one of them replaced. -/
def replace {α : Type} (values : Nat → α) (place : Nat) (value : α) : Nat → α :=
  fun i => if i = place then value else values i

/-- The state in which all providers see the given content and the given policies are in force. -/
def initial (content : NodeState) (policy : Nat → Policy) : World where
  published := content
  roots _ := content
  policies i := { policy := policy i, staged := none, root := content }

/-- Brings a policy into force for a new policy provider, which sees the published content. -/
def install (world : World) (id : Nat) (policy : Policy) : World :=
  { world with
    policies := replace world.policies id { policy, staged := none, root := world.published } }

def publish (world : World) (content : NodeState) : World := { world with published := content }

def stage (world : World) (id : Nat) (policy : Policy) : World :=
  { world with policies := replace world.policies id ((world.policies id).stage policy) }

/-- Lets a composite see the published content. -/
def republish (world : World) (id : Nat) : World :=
  { world with roots := replace world.roots id world.published }

/-- Refreshes a leaf: its staged policy comes into force, and it sees the published content. -/
def refreshPolicy (world : World) (id : Nat) : World :=
  { world with
    policies := replace world.policies id ((world.policies id).refresh world.published) }

/-- What arrangements of policy providers see. -/
def snapshot {m : Type → Type} [Monad m] (world : World) : Snapshot m PolicyLeaf PolicyDecision where
  root := world.roots
  leaf single := single.provider (world.policies single.id) id

/-- How arrangements of policy providers are refreshed. Policy providers never fail. -/
def refreshActions : RefreshActions (StateM World) PolicyLeaf where
  name := PolicyLeaf.name
  republish id := modify (·.republish id)
  refreshLeaf single := do
    modify (·.refreshPolicy single.id)
    pure (.ok ())

def refresh (world : World) (arrangement : Arrangement PolicyLeaf) :
    Except AuthorizationError Unit × World :=
  (arrangement.refresh refreshActions).run world

end World

end Authorization
