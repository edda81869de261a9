import Mathlib.Data.List.Basic
import Authorization.Content.Tree

/-!
# Canonical paths

On canonical paths the operations on texts are operations on lists of names: appending a name
(`concat_ofElements`), reading the last one (`name_ofElements`) and the others
(`parent?_ofElements`), lying strictly below
(`isAncestor_ofElements`) and meeting the places on the way from the root (`steps_ofElements`).
Lying strictly below is transitive on all texts (`isAncestor_trans`). Of other spellings, those that
no slash ends are read in the same way (`elements_eq_concat`).
-/

namespace Authorization

namespace Text

theorem splitLast?_of_notMem {separator : Char} {text : List Char} (absent : separator ∉ text) :
    splitLast? separator text = none := by
  induction text with
  | nil => rfl
  | cons c rest ih =>
      rw [List.mem_cons, not_or] at absent
      simp only [splitLast?, ih absent.2, Ne.symm absent.1, if_false]

/-- A text is cut at the separator after which none follows. -/
theorem splitLast?_append_cons {separator : Char} {after : List Char} (absent : separator ∉ after)
    (before : List Char) :
    splitLast? separator (before ++ separator :: after) = some (before, after) := by
  induction before with
  | nil => simp [splitLast?, splitLast?_of_notMem absent]
  | cons c before ih => simp [splitLast?, ih]

/-- Around a separator a text is split for each side alone. -/
theorem split_append_separator (separator : Char) (before after : List Char) :
    split separator (before ++ separator :: after) =
      split separator before ++ split separator after := by
  induction before with
  | nil => simp [split]
  | cons c before ih =>
      by_cases same : c = separator
      · simp [split, same, ih]
      · obtain ⟨piece, pieces, cut⟩ :=
          List.exists_cons_of_ne_nil (split_ne_nil separator before)
        simp [split, same, ih, cut]

theorem exists_splitLast? {separator : Char} {text : List Char} (member : separator ∈ text) :
    ∃ before after, splitLast? separator text = some (before, after) := by
  induction text with
  | nil => exact absurd member List.not_mem_nil
  | cons c rest ih =>
      by_cases later : separator ∈ rest
      · obtain ⟨before, after, found⟩ := ih later
        exact ⟨c :: before, after, by simp [splitLast?, found]⟩
      · obtain rfl := (List.mem_cons.mp member).resolve_right later
        exact ⟨[], rest, by simp [splitLast?, splitLast?_of_notMem later]⟩

end Text

namespace Path

variable {names below : List String} {name : String}

/-- The elements of a path are names. -/
theorem isName_of_mem_elements {path : String} (member : name ∈ elements path) : IsName name := by
  obtain ⟨piece, kept, rfl⟩ := List.mem_map.mp member
  obtain ⟨listed, filled⟩ := List.mem_filter.mp kept
  constructor
  · intro bare
    have same := congrArg String.toList bare
    rw [String.toList_ofList] at same
    simp [same] at filled
  · rw [String.toList_ofList]
    exact Text.notMem_of_mem_split listed

/-- Whether a path is hidden does not depend on its spelling. -/
theorem isHidden_congr {path other : String} (same : elements path = elements other) :
    isHidden path = isHidden other := by
  rw [isHidden, isHidden, same]

theorem isName_append_singleton (named : ∀ name ∈ names, IsName name) (last : IsName name) :
    ∀ other ∈ names ++ [name], IsName other := by
  rw [List.forall_mem_append, List.forall_mem_singleton]
  exact ⟨named, last⟩

theorem toList_ofElements (filled : names ≠ []) :
    (ofElements names).toList = names.flatMap fun name => '/' :: name.toList := by
  rw [ofElements, if_neg (by simpa using filled), String.toList_ofList]

theorem ofElements_nil : ofElements [] = root := rfl

theorem elements_root : elements root = [] := by decide

/-- Only the root ends with a slash. -/
theorem getLast?_ofElements (named : ∀ name ∈ names, IsName name) :
    (ofElements names).toList.getLast? = some '/' ↔ names = [] := by
  constructor
  · intro ends
    by_contra filled
    obtain ⟨front, last, rfl⟩ := List.eq_nil_or_concat names |>.resolve_left filled
    have lastName := named last (by simp)
    have some : last.toList ≠ [] := fun bare => lastName.1 (String.toList_inj.mp bare)
    rw [toList_ofElements filled, List.concat_eq_append, List.flatMap_append,
      List.flatMap_singleton, List.getLast?_append_of_ne_nil _ (by simp),
      List.getLast?_cons_of_ne_nil some] at ends
    exact lastName.2 (List.mem_of_getLast? ends)
  · rintro rfl
    decide

/-- Putting a name under a canonical path appends it to the elements. -/
theorem concat_ofElements (named : ∀ name ∈ names, IsName name) (last : IsName name) :
    concat (ofElements names) name = ofElements (names ++ [name]) := by
  have kept : name.toList.dropWhile (· == '/') = name.toList := by
    cases letters : name.toList with
    | nil => rfl
    | cons c rest =>
        have other : c ≠ '/' := by
          rintro rfl
          exact last.2 (by simp [letters])
        simp [other]
  have some : name.toList ≠ [] := fun bare => last.1 (String.toList_inj.mp bare)
  apply String.toList_inj.mp
  rw [toList_ofElements (by simp), List.flatMap_append, List.flatMap_singleton]
  unfold concat
  rw [kept]
  cases letters : name.toList with
  | nil => exact absurd letters some
  | cons c rest =>
      simp only
      split
      · rename_i ends
        have bare := (getLast?_ofElements named).mp (by simpa using ends)
        subst bare
        simp [ofElements_nil, root]
      · rename_i ends
        have filled : names ≠ [] := by
          intro bare
          exact ends (by rw [(getLast?_ofElements named).mpr bare]; rfl)
        rw [String.toList_ofList, toList_ofElements filled]

theorem isRoot_ofElements (named : ∀ name ∈ names, IsName name) :
    isRoot (ofElements names) = names.isEmpty := by
  rw [Bool.eq_iff_iff, isRoot, beq_iff_eq, List.isEmpty_iff]
  constructor
  · intro same
    have read := congrArg elements same
    rwa [elements_ofElements named, elements_root] at read
  · rintro rfl
    rfl

/-- The path along names ends in a slash and the last name. -/
theorem toList_ofElements_append_singleton (names : List String) (name : String) :
    (ofElements (names ++ [name])).toList =
      (names.flatMap fun name => '/' :: name.toList) ++ '/' :: name.toList := by
  rw [toList_ofElements (by simp), List.flatMap_append, List.flatMap_singleton]

theorem name_ofElements (last : IsName name) :
    Path.name (ofElements (names ++ [name])) = name := by
  unfold Path.name
  rw [toList_ofElements_append_singleton, Text.splitLast?_append_cons last.2]
  exact String.ofList_toList

/-- The parent of a canonical path has its elements but for the last. -/
theorem parent?_ofElements (named : ∀ name ∈ names, IsName name) (last : IsName name) :
    parent? (ofElements (names ++ [name])) = some (ofElements names) := by
  have inner : isRoot (ofElements (names ++ [name])) = false := by
    rw [isRoot_ofElements (isName_append_singleton named last)]
    simp
  rw [parent?, if_neg (by simp [inner]), toList_ofElements_append_singleton,
    Text.splitLast?_append_cons last.2]
  cases names with
  | nil => rfl
  | cons first rest =>
      change some (String.ofList ((first :: rest).flatMap fun name => '/' :: name.toList)) = _
      rw [← toList_ofElements (List.cons_ne_nil first rest), String.ofList_toList]

/-- A canonical path lies strictly below those of its elements with some taken off the end. -/
theorem isAncestor_ofElements (named : ∀ name ∈ names ++ below, IsName name) (filled : below ≠ []) :
    isAncestor (ofElements names) (ofElements (names ++ below)) = true := by
  have whole : names ++ below ≠ [] := by simp [filled]
  have above : ∀ name ∈ names, IsName name :=
    fun name member => named name (List.mem_append_left _ member)
  have different : ofElements names ≠ ofElements (names ++ below) := by
    intro same
    have read := congrArg elements same
    rw [elements_ofElements above, elements_ofElements named] at read
    exact filled (List.append_right_eq_self.mp read.symm)
  obtain ⟨first, rest, rfl⟩ := List.exists_cons_of_ne_nil filled
  unfold isAncestor
  rw [if_neg (by simpa using different), isRoot_ofElements above]
  cases names with
  | nil => simp [isAbsolute, toList_ofElements]
  | cons top names =>
      have cut : Text.dropStart? (ofElements (top :: names)).toList
          (ofElements (top :: names ++ first :: rest)).toList =
            some ((first :: rest).flatMap fun name => '/' :: name.toList) := by
        rw [Text.dropStart?_eq_some_iff, toList_ofElements whole,
          toList_ofElements (List.cons_ne_nil _ _), List.flatMap_append]
      rw [cut]
      simp

/-- The text that a path strictly below goes on from with a slash. -/
def stem (path : String) : List Char := if isRoot path then [] else path.toList

/-- A path lies below another if it goes on behind it with a slash. -/
theorem isAncestor_iff {ancestor path : String} :
    isAncestor ancestor path = true ↔
      ancestor ≠ path ∧ ∃ rest, path.toList = stem ancestor ++ '/' :: rest := by
  unfold isAncestor stem
  by_cases same : ancestor = path
  · simp [same]
  · rw [if_neg (by simpa using same)]
    simp only [ne_eq, same, not_false_eq_true, true_and]
    split
    · simp only [isAbsolute, beq_iff_eq, List.nil_append]
      constructor
      · exact fun starts => ⟨_, List.eq_cons_of_mem_head? starts⟩
      · rintro ⟨rest, written⟩
        rw [written]
        rfl
    · cases cut : Text.dropStart? ancestor.toList path.toList with
      | none =>
          simp only [Bool.false_eq_true, false_iff, not_exists]
          intro rest written
          rw [Text.dropStart?_eq_some_iff.mpr written] at cut
          exact absurd cut (by simp)
      | some rest =>
          have written := Text.dropStart?_eq_some_iff.mp cut
          simp only [written, beq_iff_eq, List.append_cancel_left_eq]
          constructor
          · exact fun starts => ⟨_, List.eq_cons_of_mem_head? starts⟩
          · rintro ⟨others, split⟩
            rw [split]
            rfl

/-- A path that goes on from its own stem is the root. -/
theorem eq_nil_of_toList_eq_stem {path : String} {rest : List Char}
    (written : path.toList = stem path ++ '/' :: rest) : isRoot path = true ∧ rest = [] := by
  unfold stem at written
  split at written
  · rename_i top
    rw [isRoot, beq_iff_eq] at top
    rw [top] at written ⊢
    exact ⟨rfl, (List.cons.inj written).2.symm⟩
  · exact absurd written.symm (by simp)

/-- Lying strictly below is transitive. -/
theorem isAncestor_trans {first second third : String} (above : isAncestor first second = true)
    (below : isAncestor second third = true) : isAncestor first third = true := by
  rw [isAncestor_iff] at above below ⊢
  obtain ⟨different, rest, written⟩ := above
  obtain ⟨-, others, longer⟩ := below
  by_cases top : isRoot second = true
  · have bare : stem first = [] := by
      have root : second.toList = ['/'] := by rw [beq_iff_eq.mp top]; rfl
      rw [root] at written
      rcases List.append_eq_singleton_iff.mp written.symm with ⟨bare, -⟩ | ⟨-, bare⟩
      · exact bare
      · exact absurd bare (List.cons_ne_nil _ _)
    have start : stem second = [] := if_pos top
    rw [start, ← bare] at longer
    refine ⟨?_, others, longer⟩
    rintro rfl
    have root := (eq_nil_of_toList_eq_stem longer).1
    exact different ((beq_iff_eq.mp root).trans (beq_iff_eq.mp top).symm)
  · have start : stem second = stem first ++ '/' :: rest := (if_neg top).trans written
    rw [start, List.append_assoc, List.cons_append] at longer
    refine ⟨?_, _, longer⟩
    rintro rfl
    have bare := (eq_nil_of_toList_eq_stem longer).2
    simp at bare

/-- Adding names one by one leads along all of them. -/
theorem foldl_concat (named : ∀ name ∈ names ++ below, IsName name) :
    below.foldl concat (ofElements names) = ofElements (names ++ below) := by
  induction below generalizing names with
  | nil => simp
  | cons first rest ih =>
      have here : ∀ name ∈ names, IsName name :=
        fun name member => named name (List.mem_append_left _ member)
      rw [List.foldl_cons, concat_ofElements here (named first (by simp)),
        ih (by simpa using named), List.append_assoc, List.singleton_append]

theorem foldl_concat_root (named : ∀ name ∈ names, IsName name) :
    names.foldl concat root = ofElements names :=
  @foldl_concat [] names named

/-- The steps along names end with the step for the last one. -/
theorem go_append_singleton (current : String) :
    steps.go current (names ++ [name]) =
      steps.go current names ++ [concat (names.foldl concat current) name] := by
  induction names generalizing current with
  | nil => rfl
  | cons first rest ih => simp [steps.go, ih]

/-- The places on the way to a canonical path are those on the way to its parent, and the path. -/
theorem steps_ofElements (named : ∀ name ∈ names, IsName name) (last : IsName name) :
    steps (ofElements (names ++ [name])) =
      steps (ofElements names) ++ [ofElements (names ++ [name])] := by
  unfold steps
  rw [elements_ofElements (isName_append_singleton named last), elements_ofElements named,
    go_append_singleton, foldl_concat_root named, concat_ofElements named last]

end Path

namespace Path

variable {path : String}

/-- Whether a slash ends a path. -/
def isClosed (path : String) : Bool := path.toList.getLast? == some '/'

/-- The elements of a path around a slash. -/
theorem elements_append_slash (before after : List Char) :
    elements (String.ofList (before ++ '/' :: after)) =
      elements (String.ofList before) ++ elements (String.ofList after) := by
  simp [elements, Text.split_append_separator]

theorem elements_of_isName {name : String} (named : IsName name) : elements name = [name] := by
  have filled : name.toList ≠ [] := fun bare => named.1 (String.toList_inj.mp bare)
  simp [elements, Text.split_of_notMem named.2, filled]

theorem exists_splitLast? (absolute : isAbsolute path = true) :
    ∃ before after, Text.splitLast? '/' path.toList = some (before, after) :=
  Text.exists_splitLast? (List.mem_of_mem_head? (beq_iff_eq.mp absolute))

/-- The place in front of the last slash of a path other than the root. -/
theorem parent?_of_splitLast? {before after : List Char}
    (found : Text.splitLast? '/' path.toList = some (before, after)) (other : isRoot path = false) :
    ∃ above, parent? path = some above ∧ elements above = elements (String.ofList before) := by
  unfold parent?
  rw [if_neg (by simp [other]), found]
  cases before with
  | nil => exact ⟨root, rfl, by decide⟩
  | cons c before => exact ⟨_, rfl, rfl⟩

/-- The elements of a path are those before the last slash and those after it. -/
theorem elements_of_splitLast? {before after : List Char}
    (found : Text.splitLast? '/' path.toList = some (before, after)) :
    elements path = elements (String.ofList before) ++ elements (String.ofList after) := by
  rw [← elements_append_slash, ← (Text.eq_of_splitLast? found).1, String.ofList_toList]

/-- The last element of a path that no slash ends is its name, the others are those of its
parent. -/
theorem elements_eq_concat (absolute : isAbsolute path = true) (opened : isClosed path = false) :
    ∃ above, parent? path = some above ∧ IsName (name path) ∧
      elements path = elements above ++ [name path] := by
  obtain ⟨before, after, found⟩ := exists_splitLast? absolute
  obtain ⟨whole, absent⟩ := Text.eq_of_splitLast? found
  have filled : after ≠ [] := by
    rintro rfl
    simp [isClosed, whole] at opened
  have other : isRoot path = false := by
    rw [isRoot, beq_eq_false_iff_ne]
    rintro rfl
    exact absurd opened (by decide)
  have last : name path = String.ofList after := by rw [name, found]
  have named : IsName (name path) := by
    rw [last]
    refine ⟨fun bare => filled ?_, by rwa [String.toList_ofList]⟩
    simpa using congrArg String.toList bare
  obtain ⟨above, parent, same⟩ := parent?_of_splitLast? found other
  refine ⟨above, parent, named, ?_⟩
  rw [elements_of_splitLast? found, same, ← last, elements_of_isName named]

/-- A path that a slash ends has no name, and its parent has all of its elements. -/
theorem elements_parent?_of_isClosed (closed : isClosed path = true) :
    name path = "" ∧ ∀ above, parent? path = some above → elements above = elements path := by
  have member : '/' ∈ path.toList := List.mem_of_getLast? (beq_iff_eq.mp closed)
  obtain ⟨before, after, found⟩ := Text.exists_splitLast? member
  obtain ⟨whole, absent⟩ := Text.eq_of_splitLast? found
  have bare : after = [] := by
    by_contra filled
    rw [isClosed, beq_iff_eq, whole, List.getLast?_append_of_ne_nil _ (by simp),
      List.getLast?_cons_of_ne_nil filled] at closed
    exact absent (List.mem_of_getLast? closed)
  subst bare
  constructor
  · rw [name, found]
  · intro above parent
    have other : isRoot path = false := by
      by_contra top
      rw [parent?, if_pos (by simpa using top)] at parent
      exact absurd parent (by simp)
    obtain ⟨place, found?, same⟩ := parent?_of_splitLast? found other
    rw [parent] at found?
    rw [Option.some.inj found?, same, elements_of_splitLast? found]
    simp [elements, Text.split]

theorem isAbsolute_ofElements (names : List String) : isAbsolute (ofElements names) = true := by
  cases names with
  | nil => decide
  | cons first rest => simp [isAbsolute, toList_ofElements]

theorem isAbsolute_canonical (path : String) : isAbsolute (canonical path) = true :=
  isAbsolute_ofElements (elements path)

theorem isClosed_canonical (path : String) :
    isClosed (canonical path) = (elements path).isEmpty := by
  rw [Bool.eq_iff_iff, isClosed, beq_iff_eq, List.isEmpty_iff]
  exact getLast?_ofElements fun _ member => isName_of_mem_elements member

/-- The usual spelling of a path has the same elements. -/
theorem elements_canonical (path : String) : elements (canonical path) = elements path :=
  elements_ofElements fun _ member => isName_of_mem_elements member

end Path

namespace Tree

theorem path_foldl_child (names : List String) (tree : Tree) :
    (names.foldl child tree).path = names.foldl Path.concat tree.path := by
  induction names generalizing tree with
  | nil => rfl
  | cons name names ih => rw [List.foldl_cons, ih, List.foldl_cons]; rfl

/-- A place found from the root has the canonical spelling of its path. -/
theorem path_descendant_root (state : NodeState) (path : String) :
    ((root state).descendant path).path = Path.canonical path := by
  unfold descendant
  rw [path_foldl_child]
  exact Path.foldl_concat_root fun _ member => Path.isName_of_mem_elements member

theorem isRoot_descendant_root (state : NodeState) (path : String) :
    ((root state).descendant path).isRoot = (Path.elements path).isEmpty := by
  rw [isRoot, path_descendant_root, Path.canonical, Path.isRoot_ofElements]
  exact fun _ member => Path.isName_of_mem_elements member

/-- A tree taken from the root has the elements of the path it was asked for by. -/
theorem elements_descendant_root (state : NodeState) (path : String) :
    Path.elements ((root state).descendant path).path = Path.elements path := by
  rw [path_descendant_root]
  exact Path.elements_ofElements fun _ member => Path.isName_of_mem_elements member

end Tree

end Authorization
