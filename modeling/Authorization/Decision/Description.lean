import Authorization.Policy.Provider
import Authorization.Text.Quoted
import Authorization.Uniform

/-!
# Descriptions for developers

Decisions with everything that they hold, written as nested records.
-/

namespace Authorization

namespace Description

/-- A record with its fields, as it is described. -/
def record (name : String) (fields : List (String × String)) : String :=
  name ++ " \x7b " ++
    Text.joinWith ", " (fields.map fun (field, value) => field ++ ": " ++ value) ++ " \x7d"

/-- A record with a single unnamed field. -/
def wrapped (name value : String) : String := name ++ "(" ++ value ++ ")"

def list (values : List String) : String := "[" ++ Text.joinWith ", " values ++ "]"

def permissions (permissions : Permissions) : String := wrapped "Permissions" permissions.describe

end Description

def PolicyEntry.describe (entry : PolicyEntry) : String :=
  Description.record "PolicyEntry"
    [("allow", Description.permissions entry.allow), ("deny", Description.permissions entry.deny)]

/-- A policy with everything it holds. -/
def Policy.describe (policy : Policy) : String :=
  let entries := policy.entries.map fun (path, entry) => Text.quoted path ++ ": " ++ entry.describe
  Description.record "StaticPolicy"
    [("covers", Description.permissions policy.covers),
      ("repository", Description.permissions policy.repository),
      ("entries", "\x7b" ++ Text.joinWith ", " entries ++ "\x7d")]

def PolicyDecision.describe (decision : PolicyDecision) : String :=
  Description.record "StaticTreePermission"
    [("policy", decision.policy.describe), ("path", Text.quoted decision.path),
      ("granted", Description.permissions decision.granted)]

def UniformDecision.describe (decision : UniformDecision) : String :=
  Description.wrapped "FixedPermission" (Description.permissions decision.leaf.nodeGrants)

/-- A decision about a node with everything it holds. -/
def NodePermission.describe {D : Type} (describeDecision : D → String) :
    NodePermission D → String
  | .all => "TreePermission::All"
  | .empty => "TreePermission::Empty"
  | .noRecourse => "TreePermission::NoRecourse"
  | .decided decision => Description.wrapped "TreePermission::Leaf" (describeDecision decision)

namespace TreePermission

variable {L D : Type}

mutual

/-- A decision with everything it holds. -/
def describe (describeDecision : D → String) : TreePermission L D → String
  | .node permission => permission.describe describeDecision
  | .combined site parts =>
    Description.wrapped "TreePermission::Composite" <|
      Description.record "CompositeTreePermission"
        [("path", Text.quoted site.tree.path), ("tree_type", site.type.title),
          ("composition", site.composition.title),
          ("permissions", Description.list (describeParts describeDecision parts))]

/-- The parts of a combined decision with everything they hold. -/
def describeParts (describeDecision : D → String) :
    List (Arrangement L × TreePermission L D) → List String
  | [] => []
  | (_, permission) :: parts =>
    describe describeDecision permission :: describeParts describeDecision parts

end

end TreePermission

/-- A decision at repository level with everything it holds. -/
def RepositoryPermission.describe {L : Type} (leafName : L → String) :
    RepositoryPermission L → String
  | .all => "All"
  | .empty => "Empty"
  | .granting granted =>
    Description.wrapped "Leaf" <|
      Description.record "StaticRepositoryPermission" [("granted", Description.permissions granted)]
  | .combined composition members =>
    Description.wrapped "Composite" <|
      Description.record "CompositeRepositoryPermission"
        [("providers", Description.list (members.map fun member =>
            Text.quoted (member.name leafName))),
          ("composition", composition.title)]

end Authorization
