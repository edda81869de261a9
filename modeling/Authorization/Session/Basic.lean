import Authorization.Config.Codec
import Authorization.Uniform

/-!
# Providers of a session

A session works with policy providers and uniform providers side by side. Their decisions are taken
into one kind, and every question is answered by the state that the provider is in.
-/

namespace Authorization

/-- A single provider of a session. -/
inductive SessionLeaf where
  | policy (leaf : PolicyLeaf)
  | uniform (leaf : UniformLeaf)

/-- What a leaf of a session decides about a node. -/
inductive SessionDecision where
  | policy (decision : PolicyDecision)
  | uniform (decision : UniformDecision)

namespace SessionDecision

def answers : SessionDecision → NodeAnswers
  | policy decision => NodeDecision.answers decision
  | uniform decision => NodeDecision.answers decision

def child : SessionDecision → String → NodeState → NodePermission SessionDecision
  | policy decision, name, state => (NodeDecision.child decision name state).map policy
  | uniform decision, name, state => (NodeDecision.child decision name state).map uniform

instance : NodeDecision SessionDecision where
  answers := answers
  child := child

end SessionDecision

abbrev SessionProvider := Arrangement SessionLeaf

abbrev SessionPermission := TreePermission SessionLeaf SessionDecision

/-- What all providers of a session see at one moment. -/
abbrev SessionSnapshot := Snapshot Journalled SessionLeaf SessionDecision

namespace SessionLeaf

def name : SessionLeaf → String
  | policy leaf => leaf.name
  | uniform leaf => leaf.name

/-- The number of a provider. -/
def id : SessionLeaf → Nat
  | policy leaf => leaf.id
  | uniform leaf => leaf.id

end SessionLeaf

namespace World

/-- What the providers of a session see. -/
def observed (world : World) : SessionSnapshot where
  root := world.roots
  leaf
    | .policy leaf => leaf.provider (world.policies leaf.id) SessionDecision.policy
    | .uniform leaf => leaf.provider SessionDecision.uniform

end World

end Authorization
