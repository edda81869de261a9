/-!
# Vocabularies

Permissions and privileges are two vocabularies of twenty-one capabilities each, numbered
differently. A vocabulary names its single capabilities first, in the order of their bits, and then
the aggregates that stand for several of them.
-/

namespace Authorization

/-- A named set of capabilities that masks are made of. -/
inductive Vocabulary where
  | permission
  | privilege
  deriving DecidableEq

namespace Vocabulary

/-- The names of the single capabilities, in the order of their bits. -/
def singleNames : Vocabulary → List String
  | permission =>
    ["READ_NODE", "READ_PROPERTY", "ADD_PROPERTY", "MODIFY_PROPERTY", "REMOVE_PROPERTY", "ADD_NODE",
      "REMOVE_NODE", "READ_ACCESS_CONTROL", "MODIFY_ACCESS_CONTROL", "NODE_TYPE_MANAGEMENT",
      "VERSION_MANAGEMENT", "LOCK_MANAGEMENT", "LIFECYCLE_MANAGEMENT", "RETENTION_MANAGEMENT",
      "MODIFY_CHILD_NODE_COLLECTION", "NODE_TYPE_DEFINITION_MANAGEMENT", "NAMESPACE_MANAGEMENT",
      "WORKSPACE_MANAGEMENT", "PRIVILEGE_MANAGEMENT", "USER_MANAGEMENT",
      "INDEX_DEFINITION_MANAGEMENT"]
  | privilege =>
    ["READ_NODES", "READ_PROPERTIES", "ADD_PROPERTIES", "ALTER_PROPERTIES", "REMOVE_PROPERTIES",
      "ADD_CHILD_NODES", "REMOVE_CHILD_NODES", "REMOVE_NODE", "READ_ACCESS_CONTROL",
      "MODIFY_ACCESS_CONTROL", "NODE_TYPE_MANAGEMENT", "VERSION_MANAGEMENT", "LOCK_MANAGEMENT",
      "LIFECYCLE_MANAGEMENT", "RETENTION_MANAGEMENT", "WORKSPACE_MANAGEMENT",
      "NODE_TYPE_DEFINITION_MANAGEMENT", "NAMESPACE_MANAGEMENT", "PRIVILEGE_MANAGEMENT",
      "USER_MANAGEMENT", "INDEX_DEFINITION_MANAGEMENT"]

/-- The names of the aggregates with the bits that they stand for. -/
def aggregates : Vocabulary → List (String × BitVec 64)
  | permission =>
    [("READ", 0x3), ("SET_PROPERTY", 0x1c), ("REMOVE", 0x50), ("WRITE", 0x7c), ("ALL", 0x1fffff)]
  | privilege =>
    [("READ", 0x3), ("MODIFY_PROPERTIES", 0x1c), ("WRITE", 0xfc), ("REP_WRITE", 0x4fc)]

/-- All names with their bits: the single capabilities, then the aggregates. -/
def flags (v : Vocabulary) : List (String × BitVec 64) :=
  v.singleNames.zipIdx.map (fun (name, i) => (name, BitVec.twoPow 64 i)) ++ v.aggregates

/-- The bits of all named capabilities. -/
def declared (v : Vocabulary) : BitVec 64 :=
  v.flags.foldl (fun bits flag => bits ||| flag.2) 0

/-- The twenty-one lowest bits are the declared ones. -/
theorem declared_eq (v : Vocabulary) : v.declared = 0x1fffff := by
  cases v <;> decide

end Vocabulary

end Authorization
