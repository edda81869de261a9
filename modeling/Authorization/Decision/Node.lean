import Authorization.Content.Node
import Authorization.Permissions

/-!
# Decisions about one node

A provider's decision about a node is either terminal, so that everything below receives the same
answers, or a decision of its own kind from which decisions about children are derived.
-/

namespace Authorization

/-- What can be asked about a node and its properties. -/
@[ext]
structure NodeAnswers where
  canRead : Bool
  canReadProperty : Property → Bool
  canReadAll : Bool
  canReadProperties : Bool
  isGranted : Permissions → Bool
  isGrantedProperty : Permissions → Property → Bool

namespace NodeAnswers

/-- The same answer to every question. -/
def always (answer : Bool) : NodeAnswers where
  canRead := answer
  canReadProperty _ := answer
  canReadAll := answer
  canReadProperties := answer
  isGranted _ := answer
  isGrantedProperty _ _ := answer

/-- The answers that follow from the permissions granted on a node, uniformly over properties. -/
def ofGranted (granted : Permissions) (readAll : Bool) : NodeAnswers where
  canRead := decide (Permissions.readNode ⊆ granted)
  canReadProperty _ := decide (Permissions.readProperty ⊆ granted)
  canReadAll := readAll
  canReadProperties := decide (Permissions.readProperty ⊆ granted)
  isGranted asked := !asked.isEmpty && asked ⊆ granted
  isGrantedProperty asked _ := !asked.isEmpty && asked ⊆ granted

end NodeAnswers

inductive NodePermission (D : Type) where
  /-- Everything is granted here and below. -/
  | all
  /-- Nothing is granted here and below. -/
  | empty
  /-- The provider will never grant anything here and below. -/
  | noRecourse
  | decided (decision : D)

/-- A kind of decisions about nodes. -/
class NodeDecision (D : Type) where
  answers : D → NodeAnswers
  child : D → String → NodeState → NodePermission D

namespace NodePermission

variable {D : Type}

/-- Whether everything below receives the same decision. -/
def isTerminal : NodePermission D → Bool
  | decided _ => false
  | _ => true

/-- Whether a decision grants nothing at a node and everything below. -/
def grantsNothing : NodePermission D → Bool
  | empty | noRecourse => true
  | _ => false

/-- The same decision in another kind of decisions. -/
def map {E : Type} (f : D → E) : NodePermission D → NodePermission E
  | all => all
  | empty => empty
  | noRecourse => noRecourse
  | decided decision => decided (f decision)

variable [NodeDecision D]

def answers : NodePermission D → NodeAnswers
  | all => .always true
  | empty | noRecourse => .always false
  | decided decision => NodeDecision.answers decision

/-- The decision about a child, which is the same one where everything below is decided. -/
def child : NodePermission D → String → NodeState → NodePermission D
  | decided decision, name, state => NodeDecision.child decision name state
  | terminal, _, _ => terminal

end NodePermission

end Authorization
