import Authorization.Dictionary
import Authorization.Error
import Authorization.Permissions

/-!
# Privileges

Privileges are the names under which users are granted permissions. Every single privilege stands
for one permission, and aggregates stand for several privileges. A catalogue translates between
names and bits; the built-in one writes a set of privileges with the largest aggregates it contains.
-/

namespace Authorization

/-- Sets of privileges. -/
abbrev PrivilegeBits := Mask .privilege

namespace PrivilegeBits

/-- The bit of each single privilege with the bit of the permission that it stands for. -/
def meanings : List (Nat × Nat) :=
  [(0, 0), (1, 1), (2, 2), (3, 3), (4, 4), (5, 5), (6, 14), (7, 6), (8, 7), (9, 8), (10, 9),
    (11, 10), (12, 11), (13, 12), (14, 13), (15, 17), (16, 15), (17, 16), (18, 18), (19, 19),
    (20, 20)]

/-- The permissions that privileges stand for. -/
def permissions (privileges : PrivilegeBits) : Permissions :=
  (meanings.filter fun meaning => meaning.1 ∈ privileges).foldl
    (fun held meaning => held ∪ .single meaning.2) ∅

/-- The privileges whose permission is among the given ones. -/
def ofPermissions (permissions : Permissions) : PrivilegeBits :=
  (meanings.filter fun meaning => meaning.2 ∈ permissions).foldl
    (fun held meaning => held ∪ .single meaning.1) ∅

/-- The names of privileges with their bits, aggregates first and larger ones before smaller. -/
def names : List (String × PrivilegeBits) :=
  [("jcr:all", .declared), ("rep:write", ⟨0x4fc⟩), ("jcr:write", ⟨0xfc⟩),
    ("jcr:modifyProperties", ⟨0x1c⟩), ("jcr:read", ⟨0x3⟩),
    ("rep:readNodes", .single 0), ("rep:readProperties", .single 1),
    ("rep:addProperties", .single 2), ("rep:alterProperties", .single 3),
    ("rep:removeProperties", .single 4), ("jcr:addChildNodes", .single 5),
    ("jcr:removeChildNodes", .single 6), ("jcr:removeNode", .single 7),
    ("jcr:readAccessControl", .single 8), ("jcr:modifyAccessControl", .single 9),
    ("jcr:nodeTypeManagement", .single 10), ("jcr:versionManagement", .single 11),
    ("jcr:lockManagement", .single 12), ("jcr:lifecycleManagement", .single 13),
    ("jcr:retentionManagement", .single 14), ("jcr:workspaceManagement", .single 15),
    ("jcr:nodeTypeDefinitionManagement", .single 16), ("jcr:namespaceManagement", .single 17),
    ("rep:privilegeManagement", .single 18), ("rep:userManagement", .single 19),
    ("rep:indexDefinitionManagement", .single 20)]

/-- The privileges that a name stands for, if it is known. -/
def ofName? (name : String) : Option PrivilegeBits :=
  (names.find? fun entry => entry.1 == name).map Prod.snd

/-- The privileges that a list of names stands for, or the first name that is not known. -/
def ofNames : List String → PrivilegeBits → Except AuthorizationError PrivilegeBits
  | [], held => .ok held
  | name :: rest, held =>
    match ofName? name with
    | some bits => ofNames rest (held ∪ bits)
    | none => .error (.unknownPrivilege name)

/-- The names that the remaining privileges are written with: each name of the table whose
privileges all remain is written and taken off. -/
def cover : List (String × PrivilegeBits) → PrivilegeBits → List String
  | [], _ => []
  | (name, bits) :: rest, remaining =>
    if !remaining.isEmpty && bits ⊆ remaining then name :: cover rest (remaining \ bits)
    else cover rest remaining

/-- The names of a set of privileges, ascending. Undeclared bits have no name. -/
def toNames (privileges : PrivilegeBits) : List String :=
  Dictionary.distinct (cover names privileges)

end PrivilegeBits

/-- A way to translate between privilege names and bits. -/
structure PrivilegeCatalogue where
  /-- The privileges that names stand for; an unknown name is an error. -/
  bits : List String → Except AuthorizationError PrivilegeBits
  names : PrivilegeBits → List String

namespace PrivilegeCatalogue

/-- The catalogue of the privileges there are. -/
def builtin : PrivilegeCatalogue where
  bits names := PrivilegeBits.ofNames names ∅
  names := PrivilegeBits.toNames

/-- The built-in catalogue without some names, which count as unknown. -/
def without (removed : List String) : PrivilegeCatalogue where
  bits names :=
    match names.find? removed.contains with
    | some name => .error (.unknownPrivilege name)
    | none => builtin.bits names
  names := builtin.names

end PrivilegeCatalogue

end Authorization
