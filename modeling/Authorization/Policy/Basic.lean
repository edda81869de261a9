import Authorization.Dictionary
import Authorization.Path
import Authorization.Permissions

/-!
# Static policies

A policy has opinions on the permissions that it covers. Entries bound to paths allow and deny; they
are applied from the root down to a node, at every level first what is allowed and then what is
denied, so that a deny wins over an allow on the same path and a deeper entry over a shallower one.
-/

namespace Authorization

/-- What is allowed and denied at a path. -/
structure PolicyEntry where
  allow : Permissions := ∅
  deny : Permissions := ∅
  deriving DecidableEq

/-- A policy module's rules. -/
structure Policy where
  covers : Permissions
  repository : Permissions := ∅
  /-- The entries, by the texts of their paths. -/
  entries : Dictionary PolicyEntry := []
  deriving DecidableEq

namespace Policy

/-- A policy that also allows permissions at a path. -/
def allow (policy : Policy) (path : String) (permissions : Permissions) : Policy :=
  let entry := (policy.entries.find? path).getD {}
  { policy with
    entries := policy.entries.insert path { entry with allow := entry.allow ∪ permissions } }

/-- A policy that also denies permissions at a path. -/
def deny (policy : Policy) (path : String) (permissions : Permissions) : Policy :=
  let entry := (policy.entries.find? path).getD {}
  { policy with
    entries := policy.entries.insert path { entry with deny := entry.deny ∪ permissions } }

/-- A policy that also grants permissions at the repository. -/
def grantRepository (policy : Policy) (permissions : Permissions) : Policy :=
  { policy with repository := policy.repository ∪ permissions }

/-- What is granted at a path, given what is granted to its parent. -/
def apply (policy : Policy) (path : String) (inherited : Permissions) : Permissions :=
  let granted := match policy.entries.find? path with
    | some entry => (inherited ∪ entry.allow).withoutDeclared entry.deny
    | none => inherited
  granted ∩ policy.covers

/-- What is granted at a path, found from the root down. -/
def grantedAt (policy : Policy) (path : String) : Permissions :=
  (Path.steps path).foldl (fun granted step => policy.apply step granted)
    (policy.apply Path.root ∅)

def grantedAtRepository (policy : Policy) : Permissions := policy.repository ∩ policy.covers

/-- Whether an entry strictly below a path allows anything covered. -/
def grantsBelow (policy : Policy) (path : String) : Bool :=
  policy.entries.any fun (place, entry) =>
    Path.isAncestor path place && !(entry.allow ∩ policy.covers).isEmpty

/-- Whether some entry below a path denies one of some permissions. -/
def deniesBelow (policy : Policy) (path : String) (permissions : Permissions) : Bool :=
  policy.entries.any fun (place, entry) =>
    Path.isAncestor path place && !(entry.deny ∩ permissions).isEmpty

end Policy

end Authorization
