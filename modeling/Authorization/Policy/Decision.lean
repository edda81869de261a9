import Authorization.Decision.Node
import Authorization.Policy.Basic

/-!
# Decisions of static policies

A decision keeps the policy in force when it was made, the path it is about and what is granted
there. Decisions about children follow by applying the entry at the child's path. Where nothing is
granted and no entry below allows anything, the policy has no recourse.
-/

namespace Authorization

/-- A static policy's decision about a node. -/
structure PolicyDecision where
  /-- The policy in force when the decision was made. -/
  policy : Policy
  path : String
  granted : Permissions

namespace PolicyDecision

/-- The decision from what is granted on a node, or no recourse if nothing is granted at or below
it. -/
def ofGranted (policy : Policy) (path : String) (granted : Permissions) :
    NodePermission PolicyDecision :=
  if granted.isEmpty && !policy.grantsBelow path then .noRecourse
  else .decided { policy, path, granted }

/-- The decision about a child. Hidden children are empty. -/
def child (decision : PolicyDecision) (name : String) (_ : NodeState) :
    NodePermission PolicyDecision :=
  if Path.isHiddenName name then .empty
  else
    let path := Path.concat decision.path name
    ofGranted decision.policy path (decision.policy.apply path decision.granted)

/-- The answers that follow from what is granted. Everything below is readable if reading is
granted here and denied nowhere below. -/
def answers (decision : PolicyDecision) : NodeAnswers :=
  .ofGranted decision.granted
    (Permissions.read ⊆ decision.granted &&
      !decision.policy.deniesBelow decision.path .read)

instance : NodeDecision PolicyDecision where
  answers := answers
  child := child

end PolicyDecision

namespace Policy

/-- The decision about a path. Hidden trees are empty. -/
def decide (policy : Policy) (path : String) (hidden : Bool) : NodePermission PolicyDecision :=
  if hidden then .empty else PolicyDecision.ofGranted policy path (policy.grantedAt path)

end Policy

end Authorization
