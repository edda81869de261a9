import Authorization.Mask.Text

/-!
# Permissions

A permission is one capability on a node, a property or the repository. A request for several is
granted only when every one is.
-/

namespace Authorization

/-- Sets of permissions. -/
abbrev Permissions := Mask .permission

namespace Permissions

/-- Reading nodes. -/
def readNode : Permissions := .single 0
/-- Reading properties. -/
def readProperty : Permissions := .single 1
/-- Adding properties. -/
def addProperty : Permissions := .single 2
/-- Changing properties. -/
def modifyProperty : Permissions := .single 3
/-- Removing properties. -/
def removeProperty : Permissions := .single 4
/-- Adding nodes. -/
def addNode : Permissions := .single 5
/-- Removing nodes. -/
def removeNode : Permissions := .single 6
/-- Reading access control. -/
def readAccessControl : Permissions := .single 7
/-- Changing access control. -/
def modifyAccessControl : Permissions := .single 8
/-- Changing node types of nodes. -/
def nodeTypeManagement : Permissions := .single 9
/-- Managing versions. -/
def versionManagement : Permissions := .single 10
/-- Locking and unlocking. -/
def lockManagement : Permissions := .single 11
/-- Managing users. -/
def userManagement : Permissions := .single 19

/-- Reading nodes and properties. -/
def read : Permissions := readNode ∪ readProperty
/-- Adding, changing and removing properties. -/
def setProperty : Permissions := addProperty ∪ modifyProperty ∪ removeProperty
/-- Removing nodes and properties. -/
def remove : Permissions := removeNode ∪ removeProperty
/-- Every change to nodes and properties. -/
def write : Permissions := addNode ∪ removeNode ∪ setProperty

/-- The text of a set of permissions. -/
def display (permissions : Permissions) : String :=
  if permissions.isEmpty then "NO_PERMISSION" else permissions.serialize

end Permissions

end Authorization
