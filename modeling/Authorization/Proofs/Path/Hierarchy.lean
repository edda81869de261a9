import Mathlib.Data.List.Induction
import Mathlib.Logic.Relation
import Mathlib.Order.Defs.Unbundled
import Authorization.Proofs.Path.Canonical

/-!
# The hierarchy of paths

The operations on the texts of paths describe one tree, in which every place is known by the names
that lead to it. Putting a path under another appends the elements, however the two are spelled
(`elements_concat`), and a path that lies strictly below another one has more elements
(`elements_prefix_of_isAncestor`). Canonical paths are determined by their elements, so that lying
strictly below is having more elements and being some steps away, from a parent to the next
(`texts_describe_tree`).
-/

namespace Authorization.Path

section Texts

theorem elements_empty : elements "" = [] := by decide

/-- A slash in front of a text is no part of its elements. -/
theorem elements_cons_slash (text : List Char) :
    elements (String.ofList ('/' :: text)) = elements (String.ofList text) := by
  have around := elements_append_slash [] text
  rwa [List.nil_append, String.ofList_nil, elements_empty, List.nil_append] at around

/-- Slashes in front do not change the elements of a path. -/
theorem elements_dropWhile_slash (text : List Char) :
    elements (String.ofList (text.dropWhile (· == '/'))) = elements (String.ofList text) := by
  induction text with
  | nil => rfl
  | cons c text ih =>
      by_cases slash : c = '/'
      · rw [slash, List.dropWhile_cons_of_pos (by decide), ih, elements_cons_slash]
      · rw [List.dropWhile_cons_of_neg (by simpa using slash)]

theorem elements_append_singleton_slash (text : List Char) :
    elements (String.ofList (text ++ ['/'])) = elements (String.ofList text) := by
  rw [elements_append_slash, String.ofList_nil, elements_empty, List.append_nil]

/-- Putting a path under another appends its elements, whatever slashes end or begin the two. -/
theorem elements_concat (base relative : String) :
    elements (concat base relative) = elements base ++ elements relative := by
  have kept := elements_dropWhile_slash relative.toList
  rw [String.ofList_toList] at kept
  unfold concat
  rw [← kept]
  cases relative.toList.dropWhile (· == '/') with
  | nil => rw [String.ofList_nil, elements_empty, List.append_nil]
  | cons c rest =>
      simp only
      split
      · rename_i closed
        obtain ⟨front, spelled⟩ := List.getLast?_eq_some_iff.mp (beq_iff_eq.mp closed)
        have below := elements_append_slash front (c :: rest)
        rw [List.append_cons, ← spelled] at below
        rw [below, ← elements_append_singleton_slash front, ← spelled, String.ofList_toList]
      · rw [elements_append_slash, String.ofList_toList]

theorem elements_stem (path : String) : elements (String.ofList (stem path)) = elements path := by
  unfold stem
  split
  · rename_i top
    rw [beq_iff_eq.mp top, String.ofList_nil, elements_empty, elements_root]
  · rw [String.ofList_toList]

/-- The elements of a path begin with those of every path above it. -/
theorem elements_prefix_of_isAncestor {ancestor path : String}
    (above : isAncestor ancestor path = true) : elements ancestor <+: elements path := by
  obtain ⟨-, rest, written⟩ := isAncestor_iff.mp above
  refine ⟨elements (String.ofList rest), ?_⟩
  rw [← elements_stem ancestor, ← elements_append_slash, ← written, String.ofList_toList]

end Texts

/-- One step up, from a path to its parent. -/
def StepsUp (path above : String) : Prop := parent? path = some above

variable {ancestor path above : String}

/-- A path in the usual spelling is the path along its elements. -/
theorem IsCanonical.ofElements_elements (canonical : IsCanonical path) :
    ofElements (elements path) = path := by
  obtain ⟨names, named, rfl⟩ := canonical
  rw [elements_ofElements named]

/-- Canonical paths are determined by their elements. -/
theorem IsCanonical.eq_of_elements (canonical : IsCanonical path) (upper : IsCanonical ancestor)
    (same : elements ancestor = elements path) : ancestor = path := by
  rw [← upper.ofElements_elements, same, canonical.ofElements_elements]

/-- A canonical path other than the root has a canonical parent, and is put together from that and
its name. -/
theorem IsCanonical.exists_parent (canonical : IsCanonical path) (other : path ≠ root) :
    ∃ above, IsCanonical above ∧ IsName (name path) ∧ parent? path = some above ∧
      concat above (name path) = path := by
  obtain ⟨names, named, rfl⟩ := canonical
  obtain rfl | ⟨front, last, rfl⟩ := List.eq_nil_or_concat names
  · exact absurd ofElements_nil other
  · rw [List.concat_eq_append] at named ⊢
    obtain ⟨upper, single⟩ := List.forall_mem_append.mp named
    have last := List.forall_mem_singleton.mp single
    rw [name_ofElements last]
    exact ⟨_, ⟨front, upper, rfl⟩, last, parent?_ofElements upper last,
      concat_ofElements upper last⟩

/-- The parent of a path in the usual spelling is spelled so too and is an ancestor. -/
theorem IsCanonical.of_stepsUp (canonical : IsCanonical path) (step : StepsUp path above) :
    IsCanonical above ∧ isAncestor above path = true := by
  have other : path ≠ root := by
    rintro rfl
    exact absurd step (by simp [StepsUp, parent?, isRoot])
  obtain ⟨parent, upper, last, found, whole⟩ := canonical.exists_parent other
  obtain rfl : parent = above := Option.some.inj (found.symm.trans step)
  refine ⟨upper, ?_⟩
  obtain ⟨names, named, rfl⟩ := upper
  rw [concat_ofElements named last] at whole
  rw [← whole]
  exact isAncestor_ofElements (isName_append_singleton named last) (List.cons_ne_nil _ _)

/-- From the place that names lead to, steps lead up to every place on the way. -/
theorem stepsUp_ofElements {names below : List String} (filled : below ≠ [])
    (named : ∀ name ∈ names ++ below, IsName name) :
    Relation.TransGen StepsUp (ofElements (names ++ below)) (ofElements names) := by
  induction below using List.reverseRecOn with
  | nil => exact absurd rfl filled
  | append_singleton below last ih =>
      rw [← List.append_assoc] at named ⊢
      obtain ⟨upper, single⟩ := List.forall_mem_append.mp named
      have step : StepsUp (ofElements (names ++ below ++ [last])) (ofElements (names ++ below)) :=
        parent?_ofElements upper (List.forall_mem_singleton.mp single)
      rcases eq_or_ne below [] with rfl | more
      · rw [List.append_nil] at step ⊢
        exact .single step
      · exact .head step (ih more upper)

section Ancestors

variable (canonical : IsCanonical path) (upper : IsCanonical ancestor)

include canonical

/-- What is reached by going to parents is an ancestor. -/
theorem IsCanonical.isAncestor_of_stepsUp (reached : Relation.TransGen StepsUp path ancestor) :
    isAncestor ancestor path = true := by
  have above : IsCanonical ancestor ∧ isAncestor ancestor path = true := by
    induction reached with
    | single step => exact canonical.of_stepsUp step
    | tail reached step ih =>
        obtain ⟨between, below⟩ := ih
        obtain ⟨upper, above⟩ := between.of_stepsUp step
        exact ⟨upper, isAncestor_trans above below⟩
  exact above.2

include upper

theorem IsCanonical.elements_of_isAncestor (above : isAncestor ancestor path = true) :
    elements ancestor <+: elements path ∧ elements ancestor ≠ elements path := by
  refine ⟨elements_prefix_of_isAncestor above, fun same => ?_⟩
  exact (isAncestor_iff.mp above).1 (canonical.eq_of_elements upper same)

/-- A path along fewer names is reached by going to parents. -/
theorem IsCanonical.stepsUp_of_elements (leading : elements ancestor <+: elements path)
    (different : elements ancestor ≠ elements path) : Relation.TransGen StepsUp path ancestor := by
  obtain ⟨below, split⟩ := leading
  have named : ∀ name ∈ elements ancestor ++ below, IsName name := by
    rw [split]
    exact fun _ member => isName_of_mem_elements member
  have filled : below ≠ [] := by
    rintro rfl
    exact different (by rw [← split, List.append_nil])
  have reached := stepsUp_ofElements filled named
  rwa [split, upper.ofElements_elements, canonical.ofElements_elements] at reached

/-- Lying strictly below is having more elements. -/
theorem IsCanonical.isAncestor_iff_elements :
    isAncestor ancestor path = true ↔
      elements ancestor <+: elements path ∧ elements ancestor ≠ elements path :=
  ⟨canonical.elements_of_isAncestor upper, fun ⟨leading, different⟩ =>
    canonical.isAncestor_of_stepsUp (canonical.stepsUp_of_elements upper leading different)⟩

/-- Lying strictly below is being some steps away, from a parent to the next. -/
theorem IsCanonical.isAncestor_iff_stepsUp :
    isAncestor ancestor path = true ↔ Relation.TransGen StepsUp path ancestor := by
  refine ⟨fun above => ?_, canonical.isAncestor_of_stepsUp⟩
  obtain ⟨leading, different⟩ := canonical.elements_of_isAncestor upper above
  exact canonical.stepsUp_of_elements upper leading different

end Ancestors

/-- Lying below is a strict order on paths in the usual spelling. -/
theorem isStrictOrder_isAncestor :
    IsStrictOrder { path // IsCanonical path } fun ancestor path => isAncestor ancestor path where
  irrefl path := by simp [isAncestor]
  trans _ _ _ := isAncestor_trans

/-- **One tree of paths.** Putting any text under another appends its elements. On canonical paths,
a name put under a path is taken off again by going to the parent and is the name of the whole;
every path but the root is put together from its parent and its name; and to lie strictly below is
to have more elements, which is to be at least one step away from a parent to the next. So lying
strictly below is a strict order. -/
theorem texts_describe_tree :
    (∀ base relative, elements (concat base relative) = elements base ++ elements relative) ∧
    (∀ path, IsCanonical path → ∀ last, IsName last →
      parent? (concat path last) = some path ∧ name (concat path last) = last) ∧
    (∀ path, IsCanonical path → path ≠ root →
      ∃ above, parent? path = some above ∧ concat above (name path) = path) ∧
    (∀ ancestor path, IsCanonical ancestor → IsCanonical path →
      (isAncestor ancestor path = true ↔
        elements ancestor <+: elements path ∧ elements ancestor ≠ elements path) ∧
      (isAncestor ancestor path = true ↔ Relation.TransGen StepsUp path ancestor)) ∧
    IsStrictOrder { path // IsCanonical path } fun ancestor path => isAncestor ancestor path := by
  refine ⟨elements_concat, ?_, ?_, ?_, isStrictOrder_isAncestor⟩
  · rintro path ⟨names, named, rfl⟩ last isName
    rw [concat_ofElements named isName]
    exact ⟨parent?_ofElements named isName, name_ofElements isName⟩
  · intro path canonical other
    obtain ⟨above, -, -, parent, whole⟩ := canonical.exists_parent other
    exact ⟨above, parent, whole⟩
  · intro ancestor path upper canonical
    exact ⟨canonical.isAncestor_iff_elements upper, canonical.isAncestor_iff_stepsUp upper⟩

/-- Drafts lie below the documents, two steps up, and not below a place whose name only begins in
the same way. -/
theorem draft_below_docs_not_below_doc :
    IsCanonical "/docs/old/draft" ∧ IsCanonical "/docs" ∧ IsCanonical "/doc" ∧ IsName "draft" ∧
      elements (concat "/docs//old/" "//draft/") = ["docs", "old", "draft"] ∧
      parent? (concat "/docs/old/draft" "draft") = some "/docs/old/draft" ∧
      (∃ above, parent? "/docs/old/draft" = some above ∧
        concat above (name "/docs/old/draft") = "/docs/old/draft") ∧
      Relation.TransGen StepsUp "/docs/old/draft" "/docs" ∧
      ¬Relation.TransGen StepsUp "/docs/old/draft" "/doc" ∧
      isAncestor "/doc" "/docs/old/draft" = false := by
  have canonical : IsCanonical "/docs/old/draft" :=
    ⟨["docs", "old", "draft"], by decide, by decide⟩
  have docs : IsCanonical "/docs" := ⟨["docs"], by decide, by decide⟩
  have doc : IsCanonical "/doc" := ⟨["doc"], by decide, by decide⟩
  have named : IsName "draft" := by decide
  obtain ⟨appended, undone, made, above, -⟩ := texts_describe_tree
  have apart : isAncestor "/doc" "/docs/old/draft" = false := by decide
  refine ⟨canonical, docs, doc, named, ?_, (undone _ canonical _ named).1,
    made _ canonical (by decide), (above _ _ docs canonical).2.mp (by decide), ?_, apart⟩
  · rw [appended]
    decide
  · rw [← (above _ _ doc canonical).2, apart]
    exact Bool.false_ne_true

end Authorization.Path
