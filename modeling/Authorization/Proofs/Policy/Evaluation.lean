import Mathlib.Data.List.Induction
import Authorization.Policy.Decision
import Authorization.Proofs.Path.Canonical

/-!
# What policies grant along a path

On canonical paths a policy is evaluated name by name (`grantedAt_ofElements`), and what it grants
lies within what it covers. Where nothing is granted and no entry below allows anything, nothing is
granted anywhere below (`grantedAt_below_eq_empty`), so a decision without recourse loses nothing
and stays without it (`noRecourse_below`). What is granted and denied by no entry below is granted
everywhere below (`subset_grantedAt_below`).
-/

namespace Authorization.Policy

variable {policy : Policy} {names : List String} {name : String}

/-- What a policy allows and denies at a path, which is nothing without an entry there. -/
def entryAt (policy : Policy) (path : String) : PolicyEntry := (policy.entries.find? path).getD {}

theorem apply_subset_covers (policy : Policy) (path : String) (inherited : Permissions) :
    policy.apply path inherited ⊆ policy.covers :=
  Mask.subset_iff.mpr fun _ member => (Mask.mem_inter.mp member).2

/-- What is granted at a path comes from what is granted at the parent and the entry at the path. -/
theorem grantedAt_ofElements (named : ∀ name ∈ names, Path.IsName name) (last : Path.IsName name) :
    policy.grantedAt (Path.ofElements (names ++ [name])) =
      policy.apply (Path.ofElements (names ++ [name]))
        (policy.grantedAt (Path.ofElements names)) := by
  unfold grantedAt
  rw [Path.steps_ofElements named last, List.foldl_append, List.foldl_cons, List.foldl_nil]

/-- What is granted at a path does not depend on its spelling. -/
theorem grantedAt_congr {path other : String} (same : Path.elements path = Path.elements other) :
    policy.grantedAt path = policy.grantedAt other := by
  rw [grantedAt, grantedAt, Path.steps, Path.steps, same]

/-- Nothing is granted that is not covered. -/
theorem grantedAt_subset_covers (policy : Policy) (path : String) :
    policy.grantedAt path ⊆ policy.covers := by
  unfold grantedAt
  rcases List.eq_nil_or_concat (Path.steps path) with bare | ⟨steps, last, split⟩
  · rw [bare]
    exact apply_subset_covers policy _ _
  · rw [split, List.concat_eq_append, List.foldl_append]
    exact apply_subset_covers policy _ _

/-- Nothing comes of nothing at a path whose entry allows nothing that is covered. -/
theorem apply_empty {path : String}
    (allowed : ∀ entry, policy.entries.find? path = some entry →
      (entry.allow ∩ policy.covers).isEmpty = true) :
    policy.apply path ∅ = ∅ := by
  apply Mask.ext
  intro i
  unfold apply
  cases found : policy.entries.find? path with
  | none => simp
  | some entry =>
      have bare := Mask.isEmpty_iff.mp (allowed entry found) i
      rw [Mask.mem_inter] at bare
      simp only [Mask.mem_inter, Mask.mem_withoutDeclared, Mask.mem_union, Mask.notMem_empty,
        false_or, iff_false]
      exact fun member => bare ⟨member.1.1.1, member.2⟩

/-- A declared permission is granted if it is covered and either inherited or allowed by the entry
at the path, unless this entry denies it. -/
theorem mem_apply_iff {path : String} {inherited : Permissions} {i : Nat}
    (declared : i ∈ (Mask.declared : Permissions)) :
    i ∈ policy.apply path inherited ↔
      ((i ∈ inherited ∨ i ∈ (policy.entryAt path).allow) ∧ i ∉ (policy.entryAt path).deny) ∧
        i ∈ policy.covers := by
  rw [apply, entryAt, Mask.mem_inter]
  cases policy.entries.find? path with
  | none => simp
  | some entry => simp [declared]

/-- What is granted to the parent and covered stays granted unless the entry at the path denies
it. -/
theorem mem_apply {path : String} {inherited : Permissions} {i : Nat} (member : i ∈ inherited)
    (covered : i ∈ policy.covers) (declared : i ∈ (Mask.declared : Permissions))
    (free : ∀ entry, policy.entries.find? path = some entry → i ∉ entry.deny) :
    i ∈ policy.apply path inherited := by
  refine (mem_apply_iff declared).mpr ⟨⟨.inl member, ?_⟩, covered⟩
  rw [entryAt]
  cases found : policy.entries.find? path with
  | none => exact Mask.notMem_empty i
  | some entry => exact free entry found

/-- If nothing is granted at a place and no entry below it allows anything covered, nothing is
granted at any place below it. -/
theorem grantedAt_below_eq_empty {below : List String}
    (named : ∀ name ∈ names ++ below, Path.IsName name)
    (bare : policy.grantedAt (Path.ofElements names) = ∅)
    (hopeless : policy.grantsBelow (Path.ofElements names) = false) :
    policy.grantedAt (Path.ofElements (names ++ below)) = ∅ := by
  induction below using List.reverseRecOn with
  | nil => simpa using bare
  | append_singleton front last ih =>
      rw [← List.append_assoc] at named ⊢
      have above : ∀ name ∈ names ++ front, Path.IsName name :=
        fun name member => named name (List.mem_append_left _ member)
      have ancestor : Path.isAncestor (Path.ofElements names)
          (Path.ofElements (names ++ front ++ [last])) = true := by
        rw [List.append_assoc] at named ⊢
        exact Path.isAncestor_ofElements named (by simp)
      rw [grantedAt_ofElements above (named last (by simp)), ih above]
      apply apply_empty
      intro entry found
      have listed := List.any_eq_false.mp hopeless _ (Dictionary.mem_of_find? found)
      simp only [ancestor, Bool.true_and, Bool.not_eq_true', Bool.not_eq_false] at listed
      exact listed

/-- What no entry below a place allows, no entry below a place further down allows. -/
theorem grantsBelow_append {below : List String}
    (named : ∀ name ∈ names ++ below, Path.IsName name)
    (hopeless : policy.grantsBelow (Path.ofElements names) = false) :
    policy.grantsBelow (Path.ofElements (names ++ below)) = false := by
  by_cases here : below = []
  · rw [here, List.append_nil]
    exact hopeless
  · have above := Path.isAncestor_ofElements named here
    rw [grantsBelow, List.any_eq_false] at hopeless ⊢
    intro entry listed granting
    obtain ⟨deeper, allows⟩ := (Bool.and_eq_true ..).mp granting
    have ancestor := Path.isAncestor_trans above deeper
    exact hopeless entry listed ((Bool.and_eq_true ..).mpr ⟨ancestor, allows⟩)

/-- What is granted at a place and denied by no entry below it is granted at every place below. -/
theorem subset_grantedAt_below {below : List String} {permissions : Permissions}
    (named : ∀ name ∈ names ++ below, Path.IsName name)
    (declared : permissions ⊆ Mask.declared)
    (granted : permissions ⊆ policy.grantedAt (Path.ofElements names))
    (free : policy.deniesBelow (Path.ofElements names) permissions = false) :
    permissions ⊆ policy.grantedAt (Path.ofElements (names ++ below)) := by
  induction below using List.reverseRecOn with
  | nil => simpa using granted
  | append_singleton front last ih =>
      rw [← List.append_assoc] at named ⊢
      have above : ∀ name ∈ names ++ front, Path.IsName name :=
        fun name member => named name (List.mem_append_left _ member)
      have ancestor : Path.isAncestor (Path.ofElements names)
          (Path.ofElements (names ++ front ++ [last])) = true := by
        rw [List.append_assoc] at named ⊢
        exact Path.isAncestor_ofElements named (by simp)
      rw [grantedAt_ofElements above (named last (by simp))]
      rw [Mask.subset_iff]
      intro i member
      have inherited := Mask.subset_iff.mp (ih above) i member
      have covered := Mask.subset_iff.mp (grantedAt_subset_covers policy _) i inherited
      apply mem_apply inherited covered (Mask.subset_iff.mp declared i member)
      intro entry found denied
      have listed := List.any_eq_false.mp free _ (Dictionary.mem_of_find? found)
      simp only [ancestor, Bool.true_and, Bool.not_eq_true', Bool.not_eq_false] at listed
      exact Mask.isEmpty_iff.mp listed i (Mask.mem_inter.mpr ⟨denied, member⟩)

section Recourse

variable {path : String}

theorem decide_visible :
    policy.decide path false =
      PolicyDecision.ofGranted policy path (policy.grantedAt path) := by
  rw [Policy.decide, if_neg Bool.false_ne_true]

/-- A policy has no recourse where it grants nothing from there on downwards. -/
theorem decide_eq_noRecourse_iff :
    policy.decide path false = .noRecourse ↔
      policy.grantedAt path = ∅ ∧ policy.grantsBelow path = false := by
  rw [decide_visible, PolicyDecision.ofGranted]
  split
  · rename_i hopeless
    obtain ⟨bare, none⟩ := (Bool.and_eq_true ..).mp hopeless
    exact iff_of_true rfl ⟨beq_iff_eq.mp bare, by simpa using none⟩
  · rename_i granting
    simpa [Mask.isEmpty] using granting

/-- A policy denies everything at a place that is not hidden only if it has no recourse there. -/
theorem decide_eq_noRecourse (nothing : (policy.decide path false).grantsNothing = true) :
    policy.decide path false = .noRecourse := by
  rw [decide_visible, PolicyDecision.ofGranted] at nothing ⊢
  split
  · rfl
  · rename_i granting
    rw [if_neg granting] at nothing
    exact absurd nothing (by simp [NodePermission.grantsNothing])

/-- Without recourse at a place, a policy has none below it. -/
theorem noRecourse_below {below : List String} (named : ∀ name ∈ names ++ below, Path.IsName name)
    (hopeless : policy.decide (Path.ofElements names) false = .noRecourse) :
    policy.decide (Path.ofElements (names ++ below)) false = .noRecourse := by
  rw [decide_eq_noRecourse_iff] at hopeless ⊢
  obtain ⟨bare, none⟩ := hopeless
  exact ⟨grantedAt_below_eq_empty named bare none, grantsBelow_append named none⟩

end Recourse

end Authorization.Policy
