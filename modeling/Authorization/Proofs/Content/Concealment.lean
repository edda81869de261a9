import Mathlib.Tactic.Tauto
import Authorization.Content.TreeType
import Authorization.Proofs.Path.Canonical

/-!
# Concealed places

Types are found from the root downwards, and the first special node on the way settles the type of
everything below it. A place is therefore of the hidden type exactly if a hidden name stands on its
path with no store of versions or permissions above it (`Placed.step`); below a store, hidden names
are not concealed.
-/

namespace Authorization

namespace Path

/-- Whether the node at a path keeps versions or compiled permissions. -/
def isStore (path : String) : Bool :=
  (Context.versionStoreNames.contains (Path.name path) && Context.isBelowSystem path) ||
    Path.name path == Context.permissionStoreName

/-- No node on the way down the names keeps versions or compiled permissions. -/
def Storeless (names : List String) : Prop :=
  ∀ front, front <+: names → isStore (ofElements front) = false

/-- A hidden name stands on the way down the names, with no store above it. -/
def Concealed (names : List String) : Prop :=
  ∃ above name below, names = above ++ name :: below ∧ isHiddenName name = true ∧ Storeless above

variable {names : List String} {name : String}

theorem storeless_nil : Storeless [] := by
  intro front leading
  rw [List.prefix_nil.mp leading]
  decide

theorem not_concealed_nil : ¬ Concealed [] := by
  rintro ⟨above, name, below, split, -⟩
  simp at split

/-- No store is passed on a longer way if none is on the shorter one and it does not end in one. -/
theorem storeless_append_singleton :
    Storeless (names ++ [name]) ↔
      Storeless names ∧ isStore (ofElements (names ++ [name])) = false := by
  constructor
  · intro free
    exact ⟨fun front leading => free front (leading.trans (List.prefix_append ..)),
      free _ (List.prefix_refl _)⟩
  · rintro ⟨free, last⟩ front leading
    rcases List.prefix_concat_iff.mp leading with rfl | inside
    · exact last
    · exact free front inside

/-- Somewhere on the way down longer names, something holds of a name and those above it exactly if
it does on the way before, or of the last name. -/
theorem exists_split_append_singleton {holds : List String → String → Prop} :
    (∃ above inner below, names ++ [name] = above ++ inner :: below ∧ holds above inner) ↔
      (∃ above inner below, names = above ++ inner :: below ∧ holds above inner) ∨
        holds names name := by
  constructor
  · rintro ⟨above, inner, below, split, here⟩
    rcases List.eq_nil_or_concat below with rfl | ⟨front, last, rfl⟩
    · obtain ⟨rfl, rfl⟩ := List.append_singleton_inj.mp split
      exact .inr here
    · rw [List.concat_eq_append, ← List.cons_append, ← List.append_assoc] at split
      obtain ⟨rfl, rfl⟩ := List.append_singleton_inj.mp split
      exact .inl ⟨above, inner, front, rfl, here⟩
  · rintro (⟨above, inner, below, rfl, here⟩ | here)
    · exact ⟨above, inner, below ++ [name], by simp, here⟩
    · exact ⟨names, name, [], rfl, here⟩

/-- A longer way is concealed if the shorter one is, or if it ends in a hidden name outside of
stores. -/
theorem concealed_append_singleton :
    Concealed (names ++ [name]) ↔
      Concealed names ∨ isHiddenName name = true ∧ Storeless names :=
  exists_split_append_singleton

/-- Everything below a concealed place is concealed. -/
theorem Concealed.append (concealed : Concealed names) (below : List String) :
    Concealed (names ++ below) := by
  obtain ⟨above, hidden, rest, rfl, named, free⟩ := concealed
  exact ⟨above, hidden, rest ++ below, by simp, named, free⟩

/-- A concealed place has a hidden name on its path. -/
theorem Concealed.isHidden {path : String} (concealed : Concealed (elements path)) :
    isHidden path = true := by
  obtain ⟨above, hidden, below, split, named, -⟩ := concealed
  exact List.any_eq_true.mpr ⟨hidden, by simp [split], named⟩

end Path

namespace TreeType

/-- A type found for the place that the names lead to: the hidden type if the place is concealed,
and the type of regular or access control content if nothing special stands on the way. -/
structure Placed (names : List String) (type : TreeType) : Prop where
  hidden : type = .hidden ↔ Path.Concealed names
  passing : type = .default ∨ type = .accessControl ↔
    Path.Storeless names ∧ ¬ Path.Concealed names

theorem placed_root : Placed [] .default where
  hidden := by simp [Path.not_concealed_nil]
  passing := by simp [Path.storeless_nil, Path.not_concealed_nil]

section Passing

variable (defines : Tree → Bool) {parent : TreeType}
  (passing : parent = .default ∨ parent = .accessControl) (tree : Tree)

include passing

/-- What decides about types outside of stores, in the order in which it is looked at. -/
theorem standard_of_passing :
    Classifier.standard defines tree parent =
      if Path.isHiddenName tree.name then .hidden
      else if Context.versionStoreNames.contains tree.name && Context.isBelowSystem tree.path then
        .version
      else if tree.name = Context.permissionStoreName then .internal
      else if parent = .accessControl ∨ defines tree then .accessControl
      else .default := by
  rcases passing with rfl | rfl <;> rfl

/-- Below content that passes nothing special on, only a hidden name makes a tree hidden. -/
theorem standard_eq_hidden_iff :
    Classifier.standard defines tree parent = .hidden ↔ Path.isHiddenName tree.name = true := by
  rw [standard_of_passing defines passing]
  by_cases hidden : Path.isHiddenName tree.name = true
  · simp only [hidden, if_true]
  · rw [if_neg hidden]
    simp only [hidden]
    split
    · simp
    · split
      · simp
      · split <;> simp

/-- Below content that passes nothing special on, a tree passes nothing special on unless its name
is hidden or it is a store. -/
theorem standard_passing_iff :
    (Classifier.standard defines tree parent = .default ∨
        Classifier.standard defines tree parent = .accessControl) ↔
      Path.isHiddenName tree.name = false ∧ Path.isStore tree.path = false := by
  have store : Path.isStore tree.path =
      (Context.versionStoreNames.contains tree.name && Context.isBelowSystem tree.path ||
        tree.name == Context.permissionStoreName) := rfl
  rw [standard_of_passing defines passing, store]
  split
  · simp [*]
  · split
    · rename_i version
      simp only [version, Bool.true_or]
      simp
    · rename_i other
      rw [Bool.not_eq_true] at other
      rw [other, Bool.false_or]
      split
      · simp [*]
      · split <;> simp [*]

end Passing

/-- The standard types stay those of the places while descending name by name. -/
theorem Placed.step {names : List String} {name : String} {type : TreeType}
    (placed : Placed names type) (last : Path.IsName name) {tree : Tree}
    (here : tree.path = Path.ofElements (names ++ [name])) (defines : Tree → Bool) :
    Placed (names ++ [name]) (Classifier.standard defines tree type) := by
  have named : tree.name = name := by
    rw [Tree.name, here, Path.name_ofElements last]
  by_cases passing : type = .default ∨ type = .accessControl
  · obtain ⟨free, shown⟩ := placed.passing.mp passing
    constructor
    · rw [standard_eq_hidden_iff defines passing, Path.concealed_append_singleton, named]
      tauto
    · rw [standard_passing_iff defines passing, Path.storeless_append_singleton,
        Path.concealed_append_singleton, named, here, ← Bool.not_eq_true]
      tauto
  · have settled : Classifier.standard defines tree type = type := by
      cases type with
      | hidden | version | internal => rfl
      | default | accessControl => simp at passing
    have special : ¬ (Path.Storeless names ∧ ¬ Path.Concealed names) :=
      fun free => passing (placed.passing.mpr free)
    rw [settled]
    constructor
    · rw [placed.hidden, Path.concealed_append_singleton]
      tauto
    · rw [placed.passing, Path.storeless_append_singleton, Path.concealed_append_singleton]
      tauto

end TreeType

end Authorization
