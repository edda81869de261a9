import Authorization.Text.Split

/-!
# Absolute paths

Paths are texts: a slash before every element. Several texts may spell the same list of elements;
`ofElements` writes the canonical one, and `elements_ofElements` says that reading it gives the
elements back. All functions accept any text.
-/

namespace Authorization.Path

/-- The path of the root. -/
def root : String := "/"

/-- Whether a path is the root's as it is written. -/
def isRoot (path : String) : Bool := path == root

/-- Whether a path starts at the root. -/
def isAbsolute (path : String) : Bool := path.toList.head? == some '/'

/-- The names along a path, in order: its nonempty pieces between slashes. -/
def elements (path : String) : List String :=
  ((Text.split '/' path.toList).filter (!·.isEmpty)).map String.ofList

/-- The text after the last slash, which is the last element of a path unless a slash ends it. -/
def name (path : String) : String :=
  match Text.splitLast? '/' path.toList with
  | some (_, last) => String.ofList last
  | none => path

/-- The path up to its last slash; the root for paths with one slash in front only, and nothing
for the root itself and for texts without a slash. -/
def parent? (path : String) : Option String :=
  if isRoot path then none
  else match Text.splitLast? '/' path.toList with
    | some ([], _) => some root
    | some (before, _) => some (String.ofList before)
    | none => none

/-- A relative path put under a path. Slashes in front of the relative path are dropped, and one
slash is put between the two unless the first ends with one. -/
def concat (base relative : String) : String :=
  match relative.toList.dropWhile (· == '/') with
  | [] => base
  | rest =>
    if base.toList.getLast? == some '/' then String.ofList (base.toList ++ rest)
    else String.ofList (base.toList ++ '/' :: rest)

/-- Whether the first path is a strict ancestor of the second. -/
def isAncestor (ancestor path : String) : Bool :=
  if ancestor == path then false
  else if isRoot ancestor then isAbsolute path
  else match Text.dropStart? ancestor.toList path.toList with
    | some rest => rest.head? == some '/'
    | none => false

/-- The path along names, with a slash before each of them. -/
def ofElements (names : List String) : String :=
  if names.isEmpty then root
  else String.ofList (names.flatMap fun name => '/' :: name.toList)

/-- The usual spelling of a path: no slash is doubled, and only the root's path ends in one. -/
def canonical (path : String) : String := ofElements (elements path)

/-- A name that can stand between two slashes. -/
def IsName (name : String) : Prop := name ≠ "" ∧ '/' ∉ name.toList

instance (name : String) : Decidable (IsName name) := inferInstanceAs (Decidable (_ ∧ _))

/-- Whether a path is spelled as the path along some names. -/
def IsCanonical (path : String) : Prop :=
  ∃ names : List String, (∀ name ∈ names, IsName name) ∧ path = ofElements names

/-- The paths met on the way from the root down the elements, the root excluded. -/
def steps (path : String) : List String :=
  go root (elements path)
where
  go (current : String) : List String → List String
    | [] => []
    | name :: rest => concat current name :: go (concat current name) rest

/-- Whether a name is hidden, which its first character says. -/
def isHiddenName (name : String) : Bool := name.toList.head? == some ':'

/-- Whether some element of a path is hidden. -/
def isHidden (path : String) : Bool := (elements path).any isHiddenName

/-- Splitting the path along names at its slashes gives the names back. -/
theorem split_flatMap (names : List String) (named : ∀ name ∈ names, IsName name) :
    Text.split '/' (names.flatMap fun name => '/' :: name.toList) =
      [] :: names.map String.toList := by
  suffices general : ∀ piece : List Char, '/' ∉ piece →
      Text.split '/' (piece ++ names.flatMap fun name => '/' :: name.toList) =
        piece :: names.map String.toList from general [] (by simp)
  induction names with
  | nil => intro piece absent; simpa using Text.split_of_notMem absent
  | cons name names ih =>
    intro piece absent
    have rest := ih (fun other member => named other (List.mem_cons_of_mem _ member))
      name.toList (named name List.mem_cons_self).2
    simp only [List.flatMap_cons, List.cons_append, List.map_cons]
    rw [Text.split_append_cons absent, rest]

/-- The canonical text of a list of names is read back as that list. -/
theorem elements_ofElements {names : List String} (named : ∀ name ∈ names, IsName name) :
    elements (ofElements names) = names := by
  have kept : ((names.map String.toList).filter (!·.isEmpty)).map String.ofList = names := by
    have all : (names.map String.toList).filter (!·.isEmpty) = names.map String.toList := by
      apply List.filter_eq_self.mpr
      intro cs member
      obtain ⟨name, present, rfl⟩ := List.mem_map.mp member
      have filled : name.toList ≠ [] := fun bare =>
        (named name present).1 (String.toList_inj.mp bare)
      simpa using filled
    rw [all, List.map_map]
    simp [Function.comp_def]
  cases names with
  | nil => decide
  | cons first rest =>
    have cut := split_flatMap (first :: rest) named
    have written : (ofElements (first :: rest)).toList =
        (first :: rest).flatMap fun name => '/' :: name.toList := by
      simp [ofElements]
    rw [elements, written, cut, List.filter_cons]
    simpa using kept

end Authorization.Path
