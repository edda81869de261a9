import Authorization.Proofs.Content.Concealment

/-!
# Types found on the way

Every composite finds types for itself, in its own way and as it sees the content, and each only
from the type of the parent. `Found` says which types may come out at a place. A place is `Shown` if
on the way to it nothing can be found hidden, and `Veiled` if something there is found hidden for
certain; where the names settle which, every place is one or the other. With the standard types the
veiled places are the concealed ones.
-/

namespace Authorization

/-- A way to find types by which only hidden names and what lies below hidden places are hidden. -/
def Classifier.HidesNames (classify : Classifier) : Prop :=
  ∀ tree parent, classify tree parent = .hidden →
    parent = .hidden ∨ Path.isHiddenName tree.name = true

/-- By the standard types only hidden names are hidden, and what lies below. -/
theorem Classifier.standard_hidesNames (defines : Tree → Bool) :
    (Classifier.standard defines).HidesNames := by
  intro tree parent found
  by_cases passing : parent = .default ∨ parent = .accessControl
  · exact .inr ((TreeType.standard_eq_hidden_iff defines passing tree).mp found)
  · cases parent with
    | hidden => exact .inl rfl
    | version | internal => exact absurd found (by simp [Classifier.standard])
    | default | accessControl => simp at passing

namespace TreeType

/-- The types that may be found for the place that names lead to, if every node on the way is
classified in one of several ways, as one of the trees that are seen there. -/
inductive Found (classifies : Classifier → Prop) (seen : Tree → Prop) :
    List String → TreeType → Prop
  | root : Found classifies seen [] .default
  | step {names : List String} {name : String} {type : TreeType}
      (above : Found classifies seen names type) (last : Path.IsName name) {classify : Classifier}
      (way : classifies classify) {tree : Tree} (looked : seen tree)
      (here : tree.path = Path.ofElements (names ++ [name])) :
      Found classifies seen (names ++ [name]) (classify tree type)

/-- No place on the way down the names may be found hidden. -/
def Shown (classifies : Classifier → Prop) (seen : Tree → Prop) (names : List String) : Prop :=
  ∀ front, front <+: names → ¬ Found classifies seen front .hidden

/-- Some place on the way down the names can be found nothing but hidden. -/
def Veiled (classifies : Classifier → Prop) (seen : Tree → Prop) (names : List String) : Prop :=
  ∃ front, front <+: names ∧ ∀ type, Found classifies seen front type → type = .hidden

/-- Whether a place is found hidden is settled by the names that lead there. -/
def Settled (classifies : Classifier → Prop) (seen : Tree → Prop) : Prop :=
  ∀ names, (∀ type, Found classifies seen names type → type = .hidden) ∨
    ¬ Found classifies seen names .hidden

variable {classifies : Classifier → Prop} {seen : Tree → Prop} {names : List String}
  {name : String} {type : TreeType}

/-- Where types are settled, every place is shown or veiled. -/
theorem Settled.shown_or_veiled (settled : Settled classifies seen) (names : List String) :
    Shown classifies seen names ∨ Veiled classifies seen names := by
  by_cases shown : Shown classifies seen names
  · exact .inl shown
  · simp only [Shown, not_forall, not_not] at shown
    obtain ⟨front, leading, hidden⟩ := shown
    exact .inr ⟨front, leading, (settled front).resolve_right (not_not.mpr hidden)⟩

/-- What leads to a shown place is shown. -/
theorem Shown.of_append (shown : Shown classifies seen (names ++ [name])) :
    Shown classifies seen names :=
  fun front leading => shown front (leading.trans (List.prefix_append ..))

theorem Shown.here (shown : Shown classifies seen names) : ¬ Found classifies seen names .hidden :=
  shown names (List.prefix_refl _)

theorem not_veiled_nil : ¬ Veiled classifies seen [] := by
  rintro ⟨front, leading, hidden⟩
  rw [List.prefix_nil.mp leading] at hidden
  exact absurd (hidden .default .root) (by decide)

/-- A veiled place is found hidden itself or lies below a veiled one. -/
theorem Veiled.of_append (veiled : Veiled classifies seen (names ++ [name])) :
    (∀ type, Found classifies seen (names ++ [name]) type → type = .hidden) ∨
      Veiled classifies seen names := by
  obtain ⟨front, leading, hidden⟩ := veiled
  rcases List.prefix_concat_iff.mp leading with rfl | inside
  · exact .inl hidden
  · exact .inr ⟨front, inside, hidden⟩

/-- Where only hidden names are hidden, only a hidden name on the way makes a place hidden. -/
theorem Found.exists_isHiddenName (hides : ∀ classify, classifies classify → classify.HidesNames)
    (found : Found classifies seen names .hidden) :
    ∃ name ∈ names, Path.isHiddenName name = true := by
  generalize kind : TreeType.hidden = type at found
  induction found with
  | root => exact absurd kind (by decide)
  | @step names name parent above last classify way tree looked here ih =>
      rcases hides classify way tree parent kind.symm with hidden | named
      · obtain ⟨other, listed, named⟩ := ih hidden.symm
        exact ⟨other, List.mem_append_left _ listed, named⟩
      · rw [Tree.name, here, Path.name_ofElements last] at named
        exact ⟨name, List.mem_append_right _ (List.mem_singleton_self name), named⟩

/-- Without a hidden name on the way, a place is shown. -/
theorem shown_of_not_isHidden (hides : ∀ classify, classifies classify → classify.HidesNames)
    {path : String} (visible : Path.isHidden path = false) {below : List String}
    (split : Path.elements path = names ++ below) : Shown classifies seen names := by
  intro front leading found
  obtain ⟨name, listed, named⟩ := found.exists_isHiddenName hides
  have onPath : name ∈ Path.elements path := by
    rw [split]
    exact List.mem_append_left _ (leading.subset listed)
  exact Bool.false_ne_true (visible.symm.trans (List.any_eq_true.mpr ⟨name, onPath, named⟩))

variable {more : Classifier → Prop}

/-- What is found by fewer ways of telling types is found by more. -/
theorem Found.mono (ways : ∀ classify, classifies classify → more classify)
    (found : Found classifies seen names type) : Found more seen names type := by
  induction found with
  | root => exact .root
  | step above last way looked here ih => exact ih.step last (ways _ way) looked here

/-- With fewer ways to find types, hidden places are settled all the same. -/
theorem Settled.of_subset (settled : Settled more seen)
    (ways : ∀ classify, classifies classify → more classify) : Settled classifies seen := by
  intro names
  rcases settled names with hidden | shown
  · exact .inl fun type found => hidden type (found.mono ways)
  · exact .inr fun found => shown (found.mono ways)

section Unique

variable {classify : Classifier}
  (apart : ∀ tree other, seen tree → seen other → tree.path = other.path → tree = other)

include apart

/-- One way of telling types tells one type. -/
theorem Found.unique {other : TreeType} (found : Found (· = classify) seen names type)
    (again : Found (· = classify) seen names other) : type = other := by
  induction found generalizing other with
  | root =>
      generalize kind : [] = names at again
      cases again with
      | root => rfl
      | step => simp at kind
  | @step names name parent above last way ways tree looked here ih =>
      generalize kind : names ++ [name] = longer at again
      cases again with
      | root => simp at kind
      | @step _ _ _ further _ _ alike _ sight there =>
          obtain ⟨rfl, rfl⟩ := List.append_singleton_inj.mp kind
          rw [ways, alike, ih further, apart _ _ looked sight (here.trans there.symm)]

/-- One way to look at one content settles which places are hidden. -/
theorem settled_of_unique : Settled (· = classify) seen := by
  intro names
  by_cases found : Found (· = classify) seen names .hidden
  · exact .inl fun type again => again.unique apart found
  · exact .inr found

end Unique

section Standard

/-- The standard ways to find types. -/
def IsStandard (classify : Classifier) : Prop := ∃ defines, classify = .standard defines

/-- The types that are found are the ones placed there. -/
theorem Found.placed (found : Found IsStandard seen names type) : type.Placed names := by
  induction found with
  | root => exact placed_root
  | step above last way looked here ih =>
      obtain ⟨defines, rfl⟩ := way
      exact ih.step last here defines

/-- The standard types settle which places are hidden. -/
theorem settled_standard (seen : Tree → Prop) : Settled IsStandard seen := by
  intro names
  by_cases concealed : Path.Concealed names
  · exact .inl fun type found => found.placed.hidden.mpr concealed
  · exact .inr fun found => concealed (found.placed.hidden.mp rfl)

/-- With standard types, what is not concealed is shown. -/
theorem shown_of_not_concealed (shown : ¬ Path.Concealed names) : Shown IsStandard seen names := by
  rintro front ⟨below, rfl⟩ found
  exact shown ((found.placed.hidden.mp rfl).append below)

/-- With standard types, what is concealed is veiled. -/
theorem veiled_of_concealed (concealed : Path.Concealed names) : Veiled IsStandard seen names :=
  ⟨names, List.prefix_refl _, fun _ found => found.placed.hidden.mpr concealed⟩

end Standard

end TreeType

end Authorization
