import Authorization.Proofs.Config.Entries

/-!
# The deepest mention decides

A policy folds its entries over the places from the root down to a node. About a single permission
this comes down to one place: the deepest one on the way whose entries mention it. The permission is
granted exactly if it is covered and is allowed and not denied there
(`Policy.mem_grantedAt_iff`). Of the entries of a module only what they allow and deny at each path
matters, not their order nor how it is spread over them (`granted_by_deepest_mention`).
-/

namespace Authorization

/-- Names lead to the deepest place of some kind on the way along others. -/
structure Path.IsDeepest (kind : String → Prop) (way names : List String) : Prop where
  onWay : names <+: way
  here : kind (Path.ofElements names)
  deepest : ∀ other, other <+: way → kind (Path.ofElements other) → other.length ≤ names.length

section Deepest

variable {kind : String → Prop} {front names : List String} {last : String}

/-- At the root the deepest place is the root. -/
theorem Path.isDeepest_nil : Path.IsDeepest kind [] names ↔ names = [] ∧ kind Path.root := by
  constructor
  · intro deepest
    obtain rfl := List.prefix_nil.mp deepest.onWay
    exact ⟨rfl, deepest.here⟩
  · rintro ⟨rfl, here⟩
    exact ⟨List.prefix_rfl, here, fun other onWay _ => onWay.length_le⟩

/-- One name further on, the deepest place is the one at the end if it is of the kind, and otherwise
the one before. -/
theorem Path.isDeepest_append_singleton :
    Path.IsDeepest kind (front ++ [last]) names ↔
      (names = front ++ [last] ∧ kind (Path.ofElements (front ++ [last]))) ∨
        (¬ kind (Path.ofElements (front ++ [last])) ∧ Path.IsDeepest kind front names) := by
  constructor
  · intro deepest
    rcases List.prefix_concat_iff.mp deepest.onWay with whole | shorter
    · exact .inl ⟨whole, whole ▸ deepest.here⟩
    · refine .inr ⟨fun here => ?_, shorter, deepest.here, fun other onWay => ?_⟩
      · have longest := deepest.deepest _ List.prefix_rfl here
        have bound := shorter.length_le
        rw [List.length_append, List.length_singleton] at longest
        omega
      · exact deepest.deepest other (onWay.trans (List.prefix_append front [last]))
  · rintro (⟨rfl, here⟩ | ⟨never, deepest⟩)
    · exact ⟨List.prefix_rfl, here, fun other onWay _ => onWay.length_le⟩
    · refine ⟨deepest.onWay.trans (List.prefix_append front [last]), deepest.here, ?_⟩
      intro other onWay here
      rcases List.prefix_concat_iff.mp onWay with rfl | shorter
      · exact absurd here never
      · exact deepest.deepest other shorter here

end Deepest

namespace Policy

variable {policy : Policy} {i : Nat}

/-- A permission is mentioned at a path if it is allowed or denied there. -/
def Mentions (policy : Policy) (i : Nat) (path : String) : Prop :=
  i ∈ (policy.entryAt path).allow ∨ i ∈ (policy.entryAt path).deny

/-- An entry drops what is not declared, and without entries nothing is granted in the first
place. -/
theorem apply_subset_declared {path : String} {inherited : Permissions}
    (declared : inherited ⊆ Mask.declared) : policy.apply path inherited ⊆ Mask.declared := by
  rw [Mask.subset_iff] at declared ⊢
  intro i member
  rw [apply, Mask.mem_inter] at member
  cases found : policy.entries.find? path with
  | none => exact declared i (by simpa [found] using member.1)
  | some entry =>
      rw [found] at member
      exact (Mask.mem_withoutDeclared.mp member.1).2

/-- Nothing is granted that no flag declares. -/
theorem grantedAt_subset_declared (policy : Policy) (path : String) :
    policy.grantedAt path ⊆ Mask.declared :=
  List.foldlRecOn (motive := fun granted : Permissions => granted ⊆ Mask.declared)
    (Path.steps path) _
    (apply_subset_declared (Mask.subset_iff.mpr fun i member => absurd member (Mask.notMem_empty i)))
    fun _ declared _ _ => apply_subset_declared declared

/-- A permission is granted at a path if it is covered and the deepest place on the way that
mentions it allows and does not deny it. -/
theorem mem_grantedAt_iff {path : String} :
    i ∈ policy.grantedAt path ↔
      i ∈ (Mask.declared : Permissions) ∧ i ∈ policy.covers ∧
        ∃ names, Path.IsDeepest (policy.Mentions i) (Path.elements path) names ∧
          i ∈ (policy.entryAt (Path.ofElements names)).allow ∧
          i ∉ (policy.entryAt (Path.ofElements names)).deny := by
  by_cases declared : i ∈ (Mask.declared : Permissions)
  swap
  · refine iff_of_false (fun member => declared ?_) fun held => declared held.1
    exact Mask.subset_iff.mp (grantedAt_subset_declared policy path) i member
  by_cases covered : i ∈ policy.covers
  swap
  · refine iff_of_false (fun member => covered ?_) fun held => covered held.2.1
    exact Mask.subset_iff.mp (grantedAt_subset_covers policy path) i member
  simp only [declared, covered, true_and]
  have named : ∀ name ∈ Path.elements path, Path.IsName name :=
    fun _ member => Path.isName_of_mem_elements member
  rw [← grantedAt_congr (Path.elements_ofElements named)]
  generalize Path.elements path = way at named
  -- Each place either settles the permission or leaves it as the places above it did.
  induction way using List.reverseRecOn with
  | nil =>
      have here : policy.grantedAt (Path.ofElements []) = policy.apply Path.root ∅ := rfl
      rw [here, mem_apply_iff declared]
      simp only [Path.isDeepest_nil, Mask.notMem_empty, false_or, covered, and_true]
      constructor
      · rintro ⟨allowed, free⟩
        exact ⟨[], ⟨rfl, .inl allowed⟩, allowed, free⟩
      · rintro ⟨names, ⟨rfl, -⟩, allowed, free⟩
        exact ⟨allowed, free⟩
  | append_singleton front last ih =>
      have above : ∀ name ∈ front, Path.IsName name :=
        fun name member => named name (List.mem_append_left _ member)
      have before := ih above
      rw [grantedAt_ofElements above (named last (by simp)), mem_apply_iff declared]
      simp only [before, Path.isDeepest_append_singleton, covered, and_true]
      by_cases mentioned : policy.Mentions i (Path.ofElements (front ++ [last]))
      · simp only [mentioned, not_true_eq_false, false_and, or_false, and_true]
        constructor
        · rintro ⟨-, free⟩
          exact ⟨_, rfl, mentioned.resolve_right free, free⟩
        · rintro ⟨names, rfl, allowed, free⟩
          exact ⟨.inr allowed, free⟩
      · obtain ⟨unallowed, free⟩ := not_or.mp mentioned
        simp only [mentioned, and_false, false_or, not_false_eq_true, true_and, unallowed, free,
          or_false, and_true]

theorem entryAt_enter (policy : Policy) (entry : ModuleEntry) (path : String) :
    (policy.enter entry).entryAt path =
      if entry.path = path then entry.amend (policy.entryAt path) else policy.entryAt path := by
  rw [entryAt, find?_enter]
  split <;> rfl

/-- What is allowed at a path once entries were added, and likewise what is denied, is what was
before and what the entries at this path add. -/
theorem mem_foldl_enter {part : PolicyEntry → Permissions} {own : ModuleEntry → Permissions}
    (amended : ∀ entry found, part (entry.amend found) = part found ∪ own entry)
    {entries : List ModuleEntry} {path : String} :
    i ∈ part ((entries.foldl enter policy).entryAt path) ↔
      i ∈ part (policy.entryAt path) ∨ ∃ entry ∈ entries, entry.path = path ∧ i ∈ own entry := by
  induction entries generalizing policy with
  | nil => simp
  | cons entry entries ih =>
      rw [List.foldl_cons, ih, entryAt_enter, List.exists_mem_cons_iff]
      by_cases here : entry.path = path
      · rw [if_pos here, amended, Mask.mem_union, or_assoc, and_iff_right here]
      · rw [if_neg here]
        simp only [here, false_and, false_or]

end Policy

namespace ModuleConfig

variable (module : ModuleConfig) (i : Nat) (path : String)

/-- Some entry at a path allows a permission. -/
def Allows : Prop := ∃ entry ∈ module.entries, entry.path = path ∧ i ∈ entry.allow

/-- Some entry at a path denies a permission. -/
def Denies : Prop := ∃ entry ∈ module.entries, entry.path = path ∧ i ∈ entry.deny

/-- Some entry at a path allows or denies a permission. -/
def Mentions : Prop := module.Allows i path ∨ module.Denies i path

/-- A module's policy allows at a path what some entry of the module allows there. -/
theorem mem_allow_iff : i ∈ (module.policy.entryAt path).allow ↔ module.Allows i path :=
  (Policy.mem_foldl_enter fun _ _ => rfl).trans (or_iff_right (Mask.notMem_empty i))

/-- A module's policy denies at a path what some entry of the module denies there. -/
theorem mem_deny_iff : i ∈ (module.policy.entryAt path).deny ↔ module.Denies i path :=
  (Policy.mem_foldl_enter fun _ _ => rfl).trans (or_iff_right (Mask.notMem_empty i))

theorem mentions_policy : module.policy.Mentions = module.Mentions := by
  funext i path
  rw [Policy.Mentions, mem_allow_iff, mem_deny_iff, Mentions]

theorem covers_policy : module.policy.covers = module.covers := Policy.covers_foldl_enter

variable {i path}

/-- What a module's policy grants at a path, said in terms of the module. -/
theorem mem_grantedAt_policy :
    i ∈ module.policy.grantedAt path ↔
      i ∈ (Mask.declared : Permissions) ∧ i ∈ module.covers ∧
        ∃ names, Path.IsDeepest (module.Mentions i) (Path.elements path) names ∧
          module.Allows i (Path.ofElements names) ∧ ¬ module.Denies i (Path.ofElements names) := by
  rw [Policy.mem_grantedAt_iff, covers_policy, mentions_policy]
  simp only [mem_allow_iff, mem_deny_iff]

/-- Modules whose entries allow and deny the same at every path grant the same. -/
theorem grantedAt_congr (other : ModuleConfig) (covers : other.covers = module.covers)
    (same : ∀ i place, (other.Allows i place ↔ module.Allows i place) ∧
      (other.Denies i place ↔ module.Denies i place)) (path : String) :
    other.policy.grantedAt path = module.policy.grantedAt path := by
  have allows : other.Allows = module.Allows := by
    funext i place
    exact propext (same i place).1
  have denies : other.Denies = module.Denies := by
    funext i place
    exact propext (same i place).2
  have mentions : other.Mentions = module.Mentions := by
    funext i place
    rw [Mentions, Mentions, allows, denies]
  apply Mask.ext
  intro i
  rw [mem_grantedAt_policy, mem_grantedAt_policy, covers, allows, denies, mentions]

/-- **The deepest mention decides.** At every path a module grants those declared permissions that
it covers, that some entry at a place on the way mentions, and that at the deepest such place some
entry allows and none denies. So what is granted depends neither on the order of the entries nor on
how what they allow and deny at a path is spread over them. -/
theorem granted_by_deepest_mention (module : ModuleConfig) (path : String) :
    (∀ i, i ∈ module.policy.grantedAt path ↔
      i ∈ (Mask.declared : Permissions) ∧ i ∈ module.covers ∧
        ∃ names, Path.IsDeepest (module.Mentions i) (Path.elements path) names ∧
          module.Allows i (Path.ofElements names) ∧ ¬ module.Denies i (Path.ofElements names)) ∧
    (∀ entries, entries.Perm module.entries →
      ({ module with entries } : ModuleConfig).policy.grantedAt path =
        module.policy.grantedAt path) ∧
    ∀ other : ModuleConfig, other.covers = module.covers →
      (∀ i place, (other.Allows i place ↔ module.Allows i place) ∧
        (other.Denies i place ↔ module.Denies i place)) →
      other.policy.grantedAt path = module.policy.grantedAt path := by
  refine ⟨fun i => module.mem_grantedAt_policy, fun entries reordered => ?_,
    fun other covers same => module.grantedAt_congr other covers same path⟩
  refine module.grantedAt_congr { module with entries } rfl (fun i place => ?_) path
  constructor
  · exact exists_congr fun entry => and_congr_left fun _ => reordered.mem_iff
  · exact exists_congr fun entry => and_congr_left fun _ => reordered.mem_iff

example :
    let module : ModuleConfig :=
      { name := "acl", covers := .read
        entries := [⟨"/a/b", .readNode, ∅⟩, ⟨"/a", ∅, .readNode⟩, ⟨"/a", .read, ∅⟩] }
    module.policy.grantedAt "/a" = .readProperty ∧ module.policy.grantedAt "/a/b/c" = .read := by
  decide

end ModuleConfig

end Authorization
