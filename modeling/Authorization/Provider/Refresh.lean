import Authorization.Error
import Authorization.Provider.Arrangement

/-!
# Refreshing providers

A refresh makes providers see what is current. A composite first takes the current content, then
refreshes every member in order, whatever the members before it returned, and reports the failures:
a single one as it is, several together.
-/

namespace Authorization

/-- How the parts of an arrangement are refreshed. -/
structure RefreshActions (m : Type → Type) (L : Type) where
  name : L → String
  republish : Nat → m Unit
  refreshLeaf : L → m (Except AuthorizationError Unit)

namespace AuthorizationError

/-- The outcome of refreshing several members, of which some failed. -/
def ofFailures : List AuthorizationError → Except AuthorizationError Unit
  | [] => .ok ()
  | [failure] => .error failure
  | failures => .error (.refresh failures)

end AuthorizationError

namespace Arrangement

variable {m : Type → Type} [Monad m] {L : Type}

mutual

/-- Refreshes a provider and all providers in it, and gathers what failed. -/
def refresh (actions : RefreshActions m L) : Arrangement L → m (Except AuthorizationError Unit)
  | empty => pure (.ok ())
  | leaf single => actions.refreshLeaf single
  | composite combination members => do
    actions.republish combination.id
    pure (AuthorizationError.ofFailures (← refreshMembers actions members))

/-- Refreshes members in order and gives their failures, each with the name of the member. -/
def refreshMembers (actions : RefreshActions m L) :
    List (Arrangement L) → m (List AuthorizationError)
  | [] => pure []
  | member :: members => do
    let outcome ← refresh actions member
    let others ← refreshMembers actions members
    pure <| match outcome with
      | .ok _ => others
      | .error error => .refreshFailed (member.name actions.name) error.message :: others

end

end Arrangement

end Authorization
