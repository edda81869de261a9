import Authorization.Proofs.Content.Finding
import Authorization.Proofs.Path.Hierarchy

/-!
# Special names

A name is special if it is hidden, if it names a store of versions below the system node, or if it
names the permission store. Types are found from the root downwards, one name at a time; the type
that comes out at the end is that of the first special name on the way, and where there is none it
says whether the place is access control content (`Found.typed`). This holds whatever nodes are
seen on the way, and so of the types that a classifier finds by descending from a root
(`Classifier.found_typeAt`).
-/

namespace Authorization

namespace Context

/-- A recognised name stands on a path with another one put under it if it stands on one of the
two. -/
theorem onPath_concat (recognised : String → Bool) (base relative : String) :
    onPath recognised (Path.concat base relative) =
      (onPath recognised base || onPath recognised relative) := by
  rw [onPath, Path.elements_concat, List.any_append]
  rfl

/-- On the path of the root there is no name to recognise. -/
theorem onPath_root (recognised : String → Bool) : onPath recognised Path.root = false := by
  rw [onPath, Path.elements_root, List.any_nil]

/-- A path is below the system node exactly if that is an ancestor of it. -/
theorem isBelowSystem_iff_isAncestor {path : String} :
    isBelowSystem path = true ↔ Path.isAncestor "/jcr:system" path = true := by
  have stem : Path.stem "/jcr:system" = "/jcr:system".toList := by decide
  rw [isBelowSystem, Option.isSome_iff_exists, Path.isAncestor_iff, stem]
  simp only [Text.dropStart?_eq_some_iff]
  constructor
  · rintro ⟨rest, written⟩
    refine ⟨?_, rest, written⟩
    rintro rfl
    simpa using congrArg List.length written
  · rintro ⟨-, rest, written⟩
    exact ⟨rest, written⟩

/-- The places below the system node are those whose names begin with it. -/
theorem isBelowSystem_ofElements {names : List String} {name : String}
    (named : ∀ other ∈ names ++ [name], Path.IsName other) :
    isBelowSystem (Path.ofElements (names ++ [name])) = true ↔
      names.head? = some "jcr:system" := by
  have system : Path.IsCanonical "/jcr:system" := ⟨["jcr:system"], by decide, by decide⟩
  have elements : Path.elements "/jcr:system" = ["jcr:system"] := by decide
  have canonical : Path.IsCanonical (Path.ofElements (names ++ [name])) := ⟨_, named, rfl⟩
  rw [isBelowSystem_iff_isAncestor, canonical.isAncestor_iff_elements system, elements,
    Path.elements_ofElements named]
  cases names with
  | nil => simp
  | cons first rest => simpa using eq_comm

end Context

namespace TreeType

/-- The type that a name has by itself, below the names above it. -/
def ofName? (above : List String) (name : String) : Option TreeType :=
  if Path.isHiddenName name then some .hidden
  else if name ∈ Context.versionStoreNames ∧ above.head? = some "jcr:system" then some .version
  else if name = Context.permissionStoreName then some .internal
  else none

/-- No name on the way down the names is special. -/
def Ordinary (names : List String) : Prop :=
  ¬∃ above name below, names = above ++ name :: below ∧ ofName? above name ≠ none

/-- The first special name on the way down the names has the type. -/
def FirstSpecial (names : List String) (type : TreeType) : Prop :=
  ∃ above name below, names = above ++ name :: below ∧
    Ordinary above ∧ ofName? above name = some type

variable {recognised : String → Bool} {names : List String} {name : String} {type : TreeType}
  {tree : Tree}

theorem ordinary_nil : Ordinary [] := by
  rintro ⟨above, name, below, split, -⟩
  simp at split

/-- A longer way is ordinary if the shorter one is and the last name is not special. -/
theorem ordinary_append_singleton :
    Ordinary (names ++ [name]) ↔ Ordinary names ∧ ofName? names name = none := by
  rw [Ordinary, Path.exists_split_append_singleton, not_or, not_not]
  rfl

/-- The first special element of a longer way is that of the shorter one, or else the last. -/
theorem firstSpecial_append_singleton :
    FirstSpecial (names ++ [name]) type ↔
      FirstSpecial names type ∨ Ordinary names ∧ ofName? names name = some type :=
  Path.exists_split_append_singleton

theorem FirstSpecial.not_ordinary (first : FirstSpecial names type) : ¬Ordinary names := by
  obtain ⟨above, special, below, split, -, found⟩ := first
  intro ordinary
  exact ordinary ⟨above, special, below, split, by simp [found]⟩

/-- A way is ordinary or has a first special element. -/
theorem ordinary_or_firstSpecial (names : List String) :
    Ordinary names ∨ ∃ type, FirstSpecial names type := by
  induction names using List.reverseRecOn with
  | nil => exact .inl ordinary_nil
  | append_singleton names name ih =>
      rcases ih with ordinary | ⟨type, first⟩
      · cases found : ofName? names name with
        | none => exact .inl (ordinary_append_singleton.mpr ⟨ordinary, found⟩)
        | some type =>
            exact .inr ⟨type, firstSpecial_append_singleton.mpr (.inr ⟨ordinary, found⟩)⟩
      · exact .inr ⟨type, firstSpecial_append_singleton.mpr (.inl first)⟩

/-- The types of special names are passed on to everything below. -/
theorem FirstSpecial.standard (first : FirstSpecial names type) (defines : Tree → Bool)
    (tree : Tree) : Classifier.standard defines tree type = type := by
  obtain ⟨above, special, -, -, -, found⟩ := first
  unfold ofName? at found
  split at found
  · cases found; rfl
  · split at found
    · cases found; rfl
    · split at found
      · cases found; rfl
      · cases found

/-- A type found for the place that names lead to: that of the first special name, and else whether
a recognised name makes the place access control content. -/
structure Typed (recognised : String → Bool) (names : List String) (type : TreeType) : Prop where
  special : ∀ kind, FirstSpecial names kind → type = kind
  ordinary : Ordinary names →
    type = if Context.onPath recognised (Path.ofElements names) then .accessControl else .default

theorem typed_root (recognised : String → Bool) : Typed recognised [] .default where
  special kind first := absurd ordinary_nil first.not_ordinary
  ordinary _ := by rw [Path.ofElements_nil, Context.onPath_root]; rfl

section Step

variable (named : ∀ other ∈ names ++ [name], Path.IsName other)
  (here : tree.path = Path.ofElements (names ++ [name]))

include named here

/-- Below ordinary names, a name is of its own type, or else it says whether the place is access
control content. -/
theorem Typed.classify_eq (typed : Typed recognised names type) (ordinary : Ordinary names) :
    (Context.ofNames recognised).classify tree type =
      (ofName? names name).getD
        (if Context.onPath recognised tree.path then .accessControl else .default) := by
  obtain ⟨upper, single⟩ := List.forall_mem_append.mp named
  have last := List.forall_mem_singleton.mp single
  have spelled : tree.name = name := by rw [Tree.name, here, Path.name_ofElements last]
  have above := typed.ordinary ordinary
  have passing : type = .default ∨ type = .accessControl := by
    rw [above]
    split <;> simp
  have defined : type = .accessControl ∨ Context.onPath recognised tree.path = true ↔
      Context.onPath recognised tree.path = true := by
    have within : Context.onPath recognised (Path.ofElements names) = true →
        Context.onPath recognised tree.path = true := by
      intro inside
      rw [here, ← Path.concat_ofElements upper last, Context.onPath_concat, inside, Bool.true_or]
    refine or_iff_right_of_imp fun inherited => within ?_
    rw [above] at inherited
    by_contra outside
    rw [if_neg outside] at inherited
    cases inherited
  have stored : (Context.versionStoreNames.contains name && Context.isBelowSystem tree.path) =
      decide (name ∈ Context.versionStoreNames ∧ names.head? = some "jcr:system") := by
    rw [Bool.eq_iff_iff, Bool.and_eq_true, here, Context.isBelowSystem_ofElements named,
      List.contains_iff_mem, decide_eq_true_eq]
  rw [Context.classify, standard_of_passing _ passing, spelled, stored,
    Context.definesTree_ofNames]
  simp only [defined, decide_eq_true_eq, ofName?]
  split_ifs <;> rfl

/-- The types stay those that the names decide on, one name after the other. -/
theorem Typed.step (typed : Typed recognised names type) :
    Typed recognised (names ++ [name]) ((Context.ofNames recognised).classify tree type) := by
  rcases ordinary_or_firstSpecial names with ordinary | ⟨first, special⟩
  · have found := typed.classify_eq named here ordinary
    constructor
    · intro kind further
      rcases firstSpecial_append_singleton.mp further with earlier | ⟨-, last⟩
      · exact absurd ordinary earlier.not_ordinary
      · rw [found, last, Option.getD_some]
    · intro further
      rw [found, (ordinary_append_singleton.mp further).2, Option.getD_none, here]
  · have kept : (Context.ofNames recognised).classify tree type = type := by
      rw [typed.special first special]
      exact special.standard _ tree
    rw [kept]
    constructor
    · intro kind further
      rcases firstSpecial_append_singleton.mp further with earlier | ⟨ordinary, -⟩
      · exact typed.special kind earlier
      · exact absurd ordinary special.not_ordinary
    · intro further
      exact absurd (ordinary_append_singleton.mp further).1 special.not_ordinary

end Step

theorem Found.isName {classifies : Classifier → Prop} {seen : Tree → Prop}
    (found : Found classifies seen names type) : ∀ name ∈ names, Path.IsName name := by
  induction found with
  | root => simp
  | step above last way looked here ih => exact Path.isName_append_singleton ih last

/-- Whatever is seen on the way, the type found at a place is the one that its names decide on. -/
theorem Found.typed {seen : Tree → Prop}
    (found : Found (· = (Context.ofNames recognised).classify) seen names type) :
    Typed recognised names type := by
  induction found with
  | root => exact typed_root recognised
  | step above last way looked here ih =>
      rw [way]
      exact ih.step (Path.isName_append_singleton above.isName last) here

end TreeType

namespace Classifier

/-- The child of a name, and its type, found from that of the tree it is a child of. -/
def descend (classify : Classifier) (above : Tree × TreeType) (name : String) : Tree × TreeType :=
  (above.1.child name, classify (above.1.child name) above.2)

/-- The type of the place that a path leads to: the root has the default type, and the type of every
other tree on the way is found from the one before. -/
def typeAt (classify : Classifier) (root : Tree) (path : String) : TreeType :=
  ((Path.elements path).foldl classify.descend (root, .default)).2

variable (classify : Classifier) (state : NodeState)

/-- Going down along names finds the type at their end. -/
theorem found_descend {names : List String} (named : ∀ name ∈ names, Path.IsName name) :
    (names.foldl classify.descend (Tree.root state, .default)).1.path = Path.ofElements names ∧
      TreeType.Found (· = classify) (fun _ => True) names
        (names.foldl classify.descend (Tree.root state, .default)).2 := by
  induction names using List.reverseRecOn with
  | nil => exact ⟨rfl, .root⟩
  | append_singleton names name ih =>
      obtain ⟨upper, single⟩ := List.forall_mem_append.mp named
      have last := List.forall_mem_singleton.mp single
      obtain ⟨above, found⟩ := ih upper
      rw [List.foldl_append, List.foldl_cons, List.foldl_nil]
      have here : (Tree.child (names.foldl classify.descend (Tree.root state, .default)).1
          name).path = Path.ofElements (names ++ [name]) := by
        rw [Tree.child, above, Path.concat_ofElements upper last]
      exact ⟨here, found.step last rfl trivial here⟩

theorem found_typeAt (path : String) :
    TreeType.Found (· = classify) (fun _ => True) (Path.elements path)
      (classify.typeAt (.root state) path) :=
  (classify.found_descend state fun _ member => Path.isName_of_mem_elements member).2

end Classifier

end Authorization
