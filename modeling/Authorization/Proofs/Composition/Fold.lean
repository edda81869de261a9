import Mathlib.Data.List.Basic
import Mathlib.Tactic.Tauto
import Authorization.Composition
import Authorization.Permissions

/-!
# What a fold of verdicts decides

The folds ask their voters one after the other, and a collective decision asks each only for what
is still missing. Neither order nor early exits show in the outcome: `grants_exact` gives it by the
shares of the voters and, for collective decisions, by their verdicts on single bits.
-/

namespace Authorization

variable {v : Vocabulary}

/-- Granting a mask implies granting every part of it that holds a bit. -/
def Voter.DownwardClosed (voter : Voter Id v) : Prop :=
  ∀ asked part, part ≠ ∅ → part ⊆ asked →
    (voter.grants asked).run = true → (voter.grants part).run = true

/-- Granting a part of a mask implies granting every single bit of that part. -/
def Voter.BitwiseWithin (voter : Voter Id v) (whole : Mask v) : Prop :=
  ∀ asked, asked ⊆ whole → ∀ i ∈ asked,
    (voter.grants asked).run = true → (voter.grants (.single i)).run = true

theorem Voter.DownwardClosed.bitwiseWithin {voter : Voter Id v} (closed : voter.DownwardClosed)
    (whole : Mask v) : voter.BitwiseWithin whole :=
  fun asked _ _ member granted =>
    closed asked _ (Mask.single_ne_empty member) (Mask.single_subset member) granted

/-- The voter that covers some bits and grants what holds no bits but given ones. -/
def Voter.granting (covers granted : Mask v) : Voter Id v where
  covers request := covers ∩ request
  grants asked := pure (decide (asked ⊆ granted))

theorem Voter.granting_downwardClosed (covers granted : Mask v) :
    (Voter.granting covers granted).DownwardClosed := by
  intro asked part _ within held
  simp only [granting, Id.run_pure, decide_eq_true_eq, Mask.subset_iff] at held ⊢
  exact fun i member => held i (Mask.subset_iff.mp within i member)

theorem Voter.mem_share {m : Type → Type} {voter : Voter m v} {request : Mask v} {i : Nat} :
    i ∈ voter.share request ↔ i ∈ voter.covers request ∧ i ∈ request :=
  Mask.mem_inter

namespace Composition

/-- What the voters cover of a request together. -/
def shares {m : Type → Type} (request : Mask v) (voters : List (Voter m v)) : Mask v :=
  voters.foldr (fun voter others => voter.share request ∪ others) ∅

theorem mem_shares {m : Type → Type} {request : Mask v} {voters : List (Voter m v)} {i : Nat} :
    i ∈ shares request voters ↔ ∃ voter ∈ voters, i ∈ voter.share request := by
  induction voters with
  | nil => simp [shares]
  | cons voter voters ih =>
      simp only [shares, List.foldr_cons, Mask.mem_union, List.exists_mem_cons_iff] at ih ⊢
      rw [ih]

/-- A unanimous decision from what is covered already. -/
theorem unanimous_iff {request : Mask v} (voters : List (Voter Id v)) (covered : Mask v) :
    (unanimous request voters covered).run = true ↔
      covered ∪ shares request voters = request ∧
        ∀ voter ∈ voters, voter.share request ≠ ∅ →
          (voter.grants (voter.share request)).run = true := by
  induction voters generalizing covered with
  | nil =>
      have bare : covered ∪ shares request ([] : List (Voter Id v)) = covered := by
        apply Mask.ext
        simp [shares]
      simp [unanimous, bare]
  | cons voter voters ih =>
      have joined : covered ∪ shares request (voter :: voters) =
          covered ∪ voter.share request ∪ shares request voters := by
        apply Mask.ext
        simp [shares, or_assoc]
      rw [joined]
      simp only [unanimous, List.forall_mem_cons]
      split
      · rename_i bare
        have none : voter.share request = ∅ := by simpa [Mask.isEmpty] using bare
        have same : covered ∪ voter.share request = covered := by
          apply Mask.ext
          simp [none]
        rw [ih covered, same]
        simp [none]
      · rename_i filled
        have some : voter.share request ≠ ∅ := by simpa [Mask.isEmpty] using filled
        rw [Id.run_bind]
        by_cases granted : (voter.grants (voter.share request)).run = true
        · rw [if_pos granted, ih (covered ∪ voter.share request)]
          simp [granted]
        · rw [if_neg granted]
          simp [granted, some]

/-- What is granted is what some granted part has. -/
theorem mem_grantedParts {grants : Mask v → Id Bool} {parts : List (Mask v)} {i : Nat} :
    i ∈ (grantedParts grants parts).run ↔
      ∃ part ∈ parts, (grants part).run = true ∧ i ∈ part := by
  induction parts with
  | nil => simp [grantedParts]
  | cons part parts ih =>
      simp only [grantedParts, Id.run_bind, Id.run_pure, List.exists_mem_cons_iff]
      rw [← ih]
      split
      · rename_i granted
        simp [granted]
      · rename_i denied
        simp [denied]

/-- A mask of at most one bit is the mask of any bit that it holds. -/
theorem eq_single_of_singles {mask : Mask v} (few : ¬ 1 < mask.singles.length) {i : Nat}
    (member : i ∈ mask) : mask = .single i := by
  have listed {j : Nat} (inside : j ∈ mask) : j ∈ (List.range 64).filter (· ∈ mask) := by
    simp [inside, Mask.lt_of_mem inside]
  have short : ((List.range 64).filter (· ∈ mask)).length ≤ 1 := by
    simpa [Mask.singles] using few
  obtain ⟨only, alone⟩ := List.length_eq_one_iff.mp
    (Nat.le_antisymm short (List.length_pos_of_mem (listed member)))
  apply Mask.ext
  intro j
  constructor
  · intro inside
    have first := List.mem_singleton.mp (alone ▸ listed inside)
    have second := List.mem_singleton.mp (alone ▸ listed member)
    rw [first, ← second]
    exact Mask.single_mem member
  · intro inside
    rw [Mask.eq_of_mem_single inside]
    exact member

/-- What is awarded are the bits that are granted on their own. -/
theorem mem_award {grants : Mask v → Id Bool} {missing : Mask v}
    (bitwise : ∀ i ∈ missing, (grants missing).run = true → (grants (.single i)).run = true)
    {i : Nat} :
    i ∈ (award grants missing).run ↔ i ∈ missing ∧ (grants (.single i)).run = true := by
  simp only [award, Id.run_bind]
  split
  · rename_i granted
    simp only [Id.run_pure]
    exact ⟨fun member => ⟨member, bitwise i member granted⟩, And.left⟩
  · rename_i denied
    split
    · rw [mem_grantedParts]
      constructor
      · rintro ⟨part, listed, granted, member⟩
        obtain ⟨j, inside, rfl⟩ := Mask.mem_singles.mp listed
        rw [Mask.eq_of_mem_single member]
        exact ⟨inside, granted⟩
      · rintro ⟨member, granted⟩
        exact ⟨.single i, Mask.mem_singles.mpr ⟨i, member, rfl⟩, granted, Mask.single_mem member⟩
    · rename_i few
      constructor
      · simp
      · rintro ⟨member, granted⟩
        rw [← eq_single_of_singles few member] at granted
        exact absurd granted denied

/-- What a voter awards of its share are the missing bits that it grants on their own. -/
theorem mem_award_share {voter : Voter Id v} {request granted : Mask v}
    (bitwise : voter.BitwiseWithin (voter.share request)) {i : Nat} :
    i ∈ (award voter.grants (voter.share request \ granted)).run ↔
      (i ∈ voter.share request ∧ i ∉ granted) ∧ (voter.grants (.single i)).run = true := by
  have within : voter.share request \ granted ⊆ voter.share request :=
    Mask.subset_iff.mpr fun j inside => (Mask.mem_sdiff.mp inside).1
  rw [mem_award (bitwise _ within), Mask.mem_sdiff]

/-- A collective decision from what is granted already. The bits awarded on the way are those that
some voter met so far covers and grants on their own. -/
theorem collective_iff {request : Mask v} (voters : List (Voter Id v)) (granted : Mask v)
    (within : granted ⊆ request)
    (bitwise : ∀ voter ∈ voters, voter.BitwiseWithin (voter.share request)) :
    (collective request voters granted).run = true ↔
      ∀ i ∈ request, i ∈ granted ∨ ∃ voter ∈ voters,
        i ∈ voter.share request ∧ (voter.grants (.single i)).run = true := by
  induction voters generalizing granted with
  | nil =>
      simp only [collective, Id.run_pure, beq_iff_eq, List.not_mem_nil, false_and, exists_false,
        or_false]
      constructor
      · rintro rfl i member
        exact member
      · intro all
        exact Mask.ext fun i => ⟨Mask.subset_iff.mp within i, all i⟩
  | cons voter voters ih =>
      have here := bitwise voter List.mem_cons_self
      have there := fun other member => bitwise other (List.mem_cons_of_mem _ member)
      simp only [collective, List.exists_mem_cons_iff]
      split
      · -- The voter covers nothing that is missing.
        rename_i bare
        rw [ih granted within there]
        refine forall₂_congr fun i member => ?_
        have known : i ∈ voter.share request → i ∈ granted := by
          intro share
          by_contra missing
          exact Mask.isEmpty_iff.mp bare i (Mask.mem_sdiff.mpr ⟨share, missing⟩)
        have absorbed : i ∈ granted ∨ i ∈ voter.share request ∧ (voter.grants (.single i)).run = true ↔
            i ∈ granted := or_iff_left_of_imp fun held => known held.1
        rw [← or_assoc, absorbed]
      · rw [Id.run_bind]
        split
        · -- What it grants completes the request, so nobody is asked any more.
          rename_i whole
          refine ⟨fun _ i member => ?_, fun _ => rfl⟩
          rw [← whole, Mask.mem_union, mem_award_share here] at member
          rcases member with old | ⟨⟨share, -⟩, held⟩
          · exact .inl old
          · exact .inr (.inl ⟨share, held⟩)
        · have inside : granted ∪ (award voter.grants (voter.share request \ granted)).run ⊆
              request := by
            apply Mask.subset_iff.mpr
            intro i member
            rcases Mask.mem_union.mp member with old | new
            · exact Mask.subset_iff.mp within i old
            · exact (Voter.mem_share.mp ((mem_award_share here).mp new).1.1).2
          rw [ih _ inside there]
          refine forall₂_congr fun i member => ?_
          rw [Mask.mem_union, mem_award_share here, or_assoc]
          by_cases old : i ∈ granted
          · simp only [old, true_or]
          · simp only [old, false_or, not_false_eq_true, and_true]

/-- Under "and" the shares must make up the request, and every voter with a share must grant it. -/
theorem grants_and_iff {request : Mask v} {voters : List (Voter Id v)} :
    (Composition.and.grants request voters).run = true ↔
      request ≠ ∅ ∧ shares request voters = request ∧
        ∀ voter ∈ voters, voter.share request ≠ ∅ →
          (voter.grants (voter.share request)).run = true := by
  have bare : ∅ ∪ shares request voters = shares request voters := by
    apply Mask.ext
    simp
  unfold grants
  split
  · rename_i empty
    have none : request = ∅ := by simpa [Mask.isEmpty] using empty
    simp [none]
  · rename_i filled
    have some : request ≠ ∅ := by simpa [Mask.isEmpty] using filled
    rw [unanimous_iff voters ∅, bare]
    simp [some]

/-- Under "or" each permission must be granted by a voter that covers it, as long as voters decide
bit by bit. -/
theorem grants_or_iff {request : Mask v} {voters : List (Voter Id v)}
    (bitwise : ∀ voter ∈ voters, voter.BitwiseWithin (voter.share request)) :
    (Composition.or.grants request voters).run = true ↔
      request ≠ ∅ ∧ ∀ i ∈ request, ∃ voter ∈ voters,
        i ∈ voter.share request ∧ (voter.grants (.single i)).run = true := by
  unfold grants
  split
  · rename_i empty
    have none : request = ∅ := by simpa [Mask.isEmpty] using empty
    simp [none]
  · rename_i filled
    have some : request ≠ ∅ := by simpa [Mask.isEmpty] using filled
    have within : ∅ ⊆ request := Mask.subset_iff.mpr (by simp)
    rw [collective_iff voters ∅ within bitwise]
    simp [some]

theorem shares_perm {request : Mask v} {voters others : List (Voter Id v)}
    (permuted : others.Perm voters) : shares request others = shares request voters := by
  apply Mask.ext
  intro i
  simp only [mem_shares, permuted.mem_iff]

/-- Under "and" the order of the voters does not matter. -/
theorem grants_and_perm {request : Mask v} {voters others : List (Voter Id v)}
    (permuted : others.Perm voters) :
    (Composition.and.grants request others).run = (Composition.and.grants request voters).run := by
  rw [Bool.eq_iff_iff, grants_and_iff, grants_and_iff, shares_perm permuted]
  simp only [permuted.mem_iff]

/-- Under "or" the order of the voters does not matter, as long as they decide bit by bit. -/
theorem grants_or_perm {request : Mask v} {voters others : List (Voter Id v)}
    (permuted : others.Perm voters)
    (bitwise : ∀ voter ∈ voters, voter.BitwiseWithin (voter.share request)) :
    (Composition.or.grants request others).run = (Composition.or.grants request voters).run := by
  have moved : ∀ voter ∈ others, voter.BitwiseWithin (voter.share request) :=
    fun voter member => bitwise voter (permuted.mem_iff.mp member)
  rw [Bool.eq_iff_iff, grants_or_iff bitwise, grants_or_iff moved]
  simp only [permuted.mem_iff]

/-- **What a fold decides.** A unanimous decision grants a request of some bit exactly if the
shares of the voters make it up and every voter with a share grants its whole share. If granting a
mask implies granting its parts, a collective decision grants it exactly if every bit is covered
and granted on its own by some voter. So neither depends on the order of the voters. -/
theorem grants_exact (request : Mask v) (voters : List (Voter Id v)) :
    ((Composition.and.grants request voters).run = true ↔
      request ≠ ∅ ∧ shares request voters = request ∧
        ∀ voter ∈ voters, voter.share request ≠ ∅ →
          (voter.grants (voter.share request)).run = true) ∧
    ((∀ voter ∈ voters, voter.DownwardClosed) →
      ((Composition.or.grants request voters).run = true ↔
        request ≠ ∅ ∧ ∀ i ∈ request, ∃ voter ∈ voters,
          i ∈ voter.share request ∧ (voter.grants (.single i)).run = true)) ∧
    ∀ others : List (Voter Id v), others.Perm voters →
      (Composition.and.grants request others).run =
          (Composition.and.grants request voters).run ∧
        ((∀ voter ∈ voters, voter.DownwardClosed) →
          (Composition.or.grants request others).run =
            (Composition.or.grants request voters).run) := by
  have bitwise (closed : ∀ voter ∈ voters, voter.DownwardClosed) :
      ∀ voter ∈ voters, voter.BitwiseWithin (voter.share request) :=
    fun voter member => (closed voter member).bitwiseWithin _
  refine ⟨grants_and_iff, fun closed => grants_or_iff (bitwise closed), ?_⟩
  intro others permuted
  exact ⟨grants_and_perm permuted, fun closed => grants_or_perm permuted (bitwise closed)⟩

/-- Two voters cover reading and each grants one half of it. Together they grant it under `or`,
whoever is asked first; each of them denies it under `and`. -/
theorem reading_granted_in_halves :
    let first : Voter Id .permission := .granting Permissions.read Permissions.readNode
    let second : Voter Id .permission := .granting Permissions.read Permissions.readProperty
    (∀ voter ∈ [first, second], voter.DownwardClosed) ∧ [second, first].Perm [first, second] ∧
      (Composition.or.grants Permissions.read [first, second]).run = true ∧
      (Composition.or.grants Permissions.read [second, first]).run = true ∧
      (Composition.and.grants Permissions.read [second, first]).run ≠ true := by
  intro first second
  have closed : ∀ voter ∈ [first, second], voter.DownwardClosed := by
    intro voter member
    rcases List.mem_pair.mp member with rfl | rfl
    · exact Voter.granting_downwardClosed _ _
    · exact Voter.granting_downwardClosed _ _
  have swapped : [second, first].Perm [first, second] := List.Perm.swap ..
  obtain ⟨unanimous, collective, order⟩ := grants_exact Permissions.read [first, second]
  have granted : (Composition.or.grants Permissions.read [first, second]).run = true := by
    refine (collective closed).mpr ⟨by decide, ?_⟩
    intro i member
    rcases Mask.mem_union.mp member with node | property
    · obtain ⟨rfl, -⟩ := Mask.mem_single.mp node
      exact ⟨first, by simp, by decide, by decide⟩
    · obtain ⟨rfl, -⟩ := Mask.mem_single.mp property
      exact ⟨second, by simp, by decide, by decide⟩
  refine ⟨closed, swapped, granted, ?_, ?_⟩
  · rw [(order _ swapped).2 closed, granted]
  · rw [(order _ swapped).1]
    intro agreed
    have half := (unanimous.mp agreed).2.2 first (by simp) (by decide)
    exact absurd half (by decide)

end Composition

end Authorization
