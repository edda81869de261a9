import Mathlib.Data.List.ReduceOption
import Authorization.Proofs.Composition.Fold

/-!
# Opinions on single capabilities

About one capability a voter has no opinion or a verdict. `Composition.verdict` combines opinions,
and a voter that follows an opinion on every capability decides about a request bit by bit. Folding
voters that follow opinions follows the combined opinion (`grants_of_follows`,
`follows_combined`), so composites of composites can be read one capability at a time.
-/

namespace Authorization

variable {v : Vocabulary}

namespace Composition

/-- The opinion of several parties together: none if nobody has one; under `and` that nobody who
has one denies, under `or` that somebody grants. -/
def verdict (composition : Composition) (opinions : List (Option Bool)) : Option Bool :=
  match opinions.reduceOption, composition with
  | [], _ => none
  | held, .and => some (held.all id)
  | held, .or => some (held.any id)

variable {ι : Type} {parts : List ι} {opinion : ι → Option Bool}

/-- There is a verdict where some part has an opinion. -/
theorem verdict_isSome (composition : Composition) :
    (composition.verdict (parts.map opinion)).isSome ↔ ∃ part ∈ parts, (opinion part).isSome := by
  have held : (∃ part ∈ parts, (opinion part).isSome) ↔
      (parts.map opinion).reduceOption ≠ [] := by
    constructor
    · rintro ⟨part, present, some⟩
      obtain ⟨verdict, known⟩ := Option.isSome_iff_exists.mp some
      exact List.ne_nil_of_mem
        (List.reduceOption_mem_iff.mpr (List.mem_map.mpr ⟨part, present, known⟩))
    · intro filled
      obtain ⟨verdict, listed⟩ := List.exists_mem_of_ne_nil _ filled
      obtain ⟨part, present, known⟩ := List.mem_map.mp (List.reduceOption_mem_iff.mp listed)
      exact ⟨part, present, by rw [known]; rfl⟩
  rw [held]
  unfold verdict
  cases (parts.map opinion).reduceOption <;> cases composition <;> simp

/-- Under "and" all parts that have an opinion must grant, and some part must have one. -/
theorem verdict_and_eq_true :
    Composition.and.verdict (parts.map opinion) = some true ↔
      (∃ part ∈ parts, (opinion part).isSome) ∧
        ∀ part ∈ parts, (opinion part).isSome → opinion part = some true := by
  rw [← verdict_isSome .and]
  have held {verdict : Bool} : verdict ∈ (parts.map opinion).reduceOption ↔
      ∃ part ∈ parts, opinion part = some verdict := by
    rw [List.reduceOption_mem_iff, List.mem_map]
  have known : (∀ part ∈ parts, (opinion part).isSome → opinion part = some true) ↔
      ∀ verdict ∈ (parts.map opinion).reduceOption, verdict = true := by
    constructor
    · intro all verdict listed
      obtain ⟨part, present, some⟩ := held.mp listed
      have granted := all part present (by rw [some]; rfl)
      exact Option.some.inj (some.symm.trans granted)
    · intro all part present some
      obtain ⟨verdict, known⟩ := Option.isSome_iff_exists.mp some
      rw [known, all verdict (held.mpr ⟨part, present, known⟩)]
  rw [known]
  unfold verdict
  cases (parts.map opinion).reduceOption <;> simp

/-- Under "or" one part must grant. -/
theorem verdict_or_eq_true :
    Composition.or.verdict (parts.map opinion) = some true ↔
      ∃ part ∈ parts, opinion part = some true := by
  rw [← List.mem_map, ← List.reduceOption_mem_iff]
  unfold verdict
  cases (parts.map opinion).reduceOption with
  | nil => simp
  | cons held others => simp

/-- Parties grant a capability together exactly if one of them grants it and, under `and`, none
denies it. -/
theorem verdict_eq_true_iff {composition : Composition} :
    composition.verdict (parts.map opinion) = some true ↔
      (∃ part ∈ parts, opinion part = some true) ∧
        ¬ (composition = .and ∧
          ∃ part ∈ parts, (opinion part).isSome ∧ opinion part ≠ some true) := by
  cases composition with
  | and =>
      rw [verdict_and_eq_true]
      constructor
      · rintro ⟨⟨part, present, held⟩, all⟩
        refine ⟨⟨part, present, all part present held⟩, ?_⟩
        rintro ⟨-, other, inside, known, denied⟩
        exact denied (all other inside known)
      · rintro ⟨⟨part, present, granted⟩, agreed⟩
        refine ⟨⟨part, present, by rw [granted]; rfl⟩, fun other inside known => ?_⟩
        by_contra denied
        exact agreed ⟨rfl, other, inside, known, denied⟩
  | or => simp [verdict_or_eq_true]

/-- If nobody grants a capability, they do not grant it together. -/
theorem verdict_ne_true {composition : Composition}
    (denied : ∀ part ∈ parts, opinion part ≠ some true) :
    composition.verdict (parts.map opinion) ≠ some true := by
  intro granted
  obtain ⟨⟨part, present, held⟩, -⟩ := verdict_eq_true_iff.mp granted
  exact denied part present held

variable {κ : Type} {inner : ι → List κ} {single : κ → Option Bool}

theorem opinion_ext {first second : Option Bool} (known : first.isSome ↔ second.isSome)
    (granted : first = some true ↔ second = some true) : first = second := by
  rcases first with _ | _ | _ <;> rcases second with _ | _ | _ <;> simp_all

theorem verdict_singleton (composition : Composition) (opinion : Option Bool) :
    composition.verdict [opinion] = opinion := by
  rcases opinion with _ | _ | _ <;> cases composition <;> rfl

/-- Parties that are made up of others think together what all of the others think together. -/
theorem verdict_flatMap (composition : Composition) :
    composition.verdict ((parts.flatMap inner).map single) =
      composition.verdict
        (parts.map fun part => composition.verdict ((inner part).map single)) := by
  have known : (composition.verdict ((parts.flatMap inner).map single)).isSome ↔
      ∃ part ∈ parts, (composition.verdict ((inner part).map single)).isSome := by
    simp only [verdict_isSome, List.mem_flatMap]
    constructor
    · rintro ⟨other, ⟨part, present, inside⟩, held⟩
      exact ⟨part, present, other, inside, held⟩
    · rintro ⟨part, present, other, inside, held⟩
      exact ⟨other, ⟨part, present, inside⟩, held⟩
  refine opinion_ext (known.trans (verdict_isSome composition).symm) ?_
  cases composition with
  | and =>
      rw [verdict_and_eq_true, verdict_and_eq_true, ← verdict_isSome .and, known]
      refine and_congr_right fun _ => ?_
      constructor
      · intro all part present held
        rw [verdict_and_eq_true, ← verdict_isSome .and]
        refine ⟨held, fun other inside => all other ?_⟩
        exact List.mem_flatMap.mpr ⟨part, present, inside⟩
      · intro all other listed held
        obtain ⟨part, present, inside⟩ := List.mem_flatMap.mp listed
        have together := all part present ((verdict_isSome .and).mpr ⟨other, inside, held⟩)
        exact (verdict_and_eq_true.mp together).2 other inside held
  | or =>
      rw [verdict_or_eq_true, verdict_or_eq_true]
      constructor
      · rintro ⟨other, listed, granted⟩
        obtain ⟨part, present, inside⟩ := List.mem_flatMap.mp listed
        exact ⟨part, present, verdict_or_eq_true.mpr ⟨other, inside, granted⟩⟩
      · rintro ⟨part, present, together⟩
        obtain ⟨other, inside, granted⟩ := verdict_or_eq_true.mp together
        exact ⟨other, List.mem_flatMap.mpr ⟨part, present, inside⟩, granted⟩

/-- An opinion that is known wherever another one is and grants only what that one grants. -/
structure Stricter (first second : Option Bool) : Prop where
  known : second.isSome → first.isSome
  grants : first = some true → second = some true

/-- Stricter opinions make a stricter opinion together. -/
theorem Stricter.verdict {first second : ι → Option Bool} (composition : Composition)
    (stricter : ∀ part ∈ parts, Stricter (first part) (second part)) :
    Stricter (composition.verdict (parts.map first)) (composition.verdict (parts.map second)) where
  known := by
    rw [verdict_isSome, verdict_isSome]
    rintro ⟨part, present, held⟩
    exact ⟨part, present, (stricter part present).known held⟩
  grants := by
    cases composition with
    | and =>
        rw [verdict_and_eq_true, verdict_and_eq_true]
        rintro ⟨⟨part, present, held⟩, all⟩
        have granted : second part = some true :=
          (stricter part present).grants (all part present held)
        refine ⟨⟨part, present, by rw [granted]; rfl⟩, fun other inside known => ?_⟩
        exact (stricter other inside).grants
          (all other inside ((stricter other inside).known known))
    | or =>
        rw [verdict_or_eq_true, verdict_or_eq_true]
        rintro ⟨part, present, granted⟩
        exact ⟨part, present, (stricter part present).grants granted⟩

end Composition

/-- A voter that covers exactly the capabilities it has an opinion on, and grants what it covers if
its opinion grants every single capability. -/
structure Voter.Follows (voter : Voter Id v) (opinion : Nat → Option Bool) : Prop where
  covers : ∀ {asked : Mask v} {i : Nat},
    i ∈ voter.covers asked ↔ i ∈ asked ∧ (opinion i).isSome
  grants : ∀ {asked : Mask v}, asked ≠ ∅ → (∀ i ∈ asked, (opinion i).isSome) →
    ((voter.grants asked).run = true ↔ ∀ i ∈ asked, opinion i = some true)

namespace Voter.Follows

variable {voter : Voter Id v} {opinion : Nat → Option Bool}

/-- A voter's share of a request is the part that it has opinions on. -/
theorem mem_share (follows : voter.Follows opinion) {request : Mask v} {i : Nat} :
    i ∈ voter.share request ↔ i ∈ request ∧ (opinion i).isSome := by
  rw [Voter.mem_share, follows.covers]
  tauto

/-- A voter grants its share if it would grant every permission in it. -/
theorem grants_share (follows : voter.Follows opinion) {request : Mask v}
    (filled : voter.share request ≠ ∅) :
    (voter.grants (voter.share request)).run = true ↔
      ∀ i ∈ voter.share request, opinion i = some true :=
  follows.grants filled fun _ member => (follows.mem_share.mp member).2

theorem grants_single (follows : voter.Follows opinion) {i : Nat} {request : Mask v}
    (member : i ∈ voter.share request) :
    (voter.grants (.single i)).run = true ↔ opinion i = some true := by
  have held := (follows.mem_share.mp member).2
  rw [follows.grants (Mask.single_ne_empty member)]
  · constructor
    · exact fun all => all i (Mask.single_mem member)
    · intro granted j inside
      rwa [Mask.eq_of_mem_single inside]
  · intro j inside
    rwa [Mask.eq_of_mem_single inside]

/-- A voter that follows opinions decides bit by bit. -/
theorem bitwiseWithin (follows : voter.Follows opinion) (request : Mask v) :
    voter.BitwiseWithin (voter.share request) := by
  intro asked within i member granted
  have inside := Mask.subset_iff.mp within
  rw [follows.grants_single (inside i member)]
  exact (follows.grants (Mask.ne_empty_iff.mpr ⟨i, member⟩)
    fun j asked => (follows.mem_share.mp (inside j asked)).2).mp granted i member

/-- A voter that gives one answer to everything it covers. -/
theorem of_flag {covers : Mask v → Mask v} {held : Nat → Bool} {flag : Bool}
    (covered : ∀ {asked : Mask v} {i : Nat}, i ∈ covers asked ↔ i ∈ asked ∧ held i = true) :
    ({ covers, grants := fun _ => pure flag } : Voter Id v).Follows
      fun i => if held i then some flag else none where
  covers := by
    intro asked i
    rw [covered]
    cases held i <;> simp
  grants := by
    intro asked filled all
    obtain ⟨i, member⟩ := Mask.ne_empty_iff.mp filled
    have opinion {j : Nat} (inside : j ∈ asked) :
        (if held j then some flag else none) = some flag := by
      have known := all j inside
      cases covers : held j with
      | true => rfl
      | false => simp [covers] at known
    constructor
    · intro granted j inside
      rw [opinion inside]
      exact congrArg some granted
    · intro granted
      exact Option.some.inj ((opinion member).symm.trans (granted i member))

end Voter.Follows

namespace Composition

variable {ι : Type} {parts : List ι} {voter : ι → Voter Id v} {opinion : ι → Nat → Option Bool}

/-- Together, voters that follow opinions cover what some of them has an opinion on. -/
theorem mem_shares_of_follows (follows : ∀ part ∈ parts, (voter part).Follows (opinion part))
    {request : Mask v} {i : Nat} :
    i ∈ shares request (parts.map voter) ↔
      i ∈ request ∧ ∃ part ∈ parts, (opinion part i).isSome := by
  rw [mem_shares]
  simp only [List.mem_map, exists_exists_and_eq_and]
  constructor
  · rintro ⟨part, present, share⟩
    obtain ⟨member, held⟩ := (follows part present).mem_share.mp share
    exact ⟨member, part, present, held⟩
  · rintro ⟨member, part, present, held⟩
    exact ⟨part, present, (follows part present).mem_share.mpr ⟨member, held⟩⟩

/-- Under "and" a request is granted if the verdict on each of its permissions is to grant. -/
theorem grants_and_of_follows (follows : ∀ part ∈ parts, (voter part).Follows (opinion part))
    {request : Mask v} :
    (Composition.and.grants request (parts.map voter)).run = true ↔
      request ≠ ∅ ∧
        ∀ i ∈ request, Composition.and.verdict (parts.map (opinion · i)) = some true := by
  rw [grants_and_iff, List.forall_mem_map]
  refine and_congr_right fun _ => ?_
  simp only [verdict_and_eq_true]
  constructor
  · rintro ⟨whole, granted⟩ i member
    refine ⟨((mem_shares_of_follows follows).mp (whole ▸ member)).2, fun part present held => ?_⟩
    have share : i ∈ (voter part).share request :=
      (follows part present).mem_share.mpr ⟨member, held⟩
    have filled : (voter part).share request ≠ ∅ := Mask.ne_empty_iff.mpr ⟨i, share⟩
    exact ((follows part present).grants_share filled).mp (granted part present filled) i share
  · intro all
    constructor
    · apply Mask.ext
      intro i
      rw [mem_shares_of_follows follows]
      exact ⟨And.left, fun member => ⟨member, (all i member).1⟩⟩
    · intro part present filled
      rw [(follows part present).grants_share filled]
      intro i share
      obtain ⟨member, held⟩ := (follows part present).mem_share.mp share
      exact (all i member).2 part present held

/-- Under "or" a request is granted if the verdict on each of its permissions is to grant. -/
theorem grants_or_of_follows (follows : ∀ part ∈ parts, (voter part).Follows (opinion part))
    {request : Mask v} :
    (Composition.or.grants request (parts.map voter)).run = true ↔
      request ≠ ∅ ∧
        ∀ i ∈ request, Composition.or.verdict (parts.map (opinion · i)) = some true := by
  have bitwise : ∀ asked ∈ parts.map voter, asked.BitwiseWithin (asked.share request) := by
    rw [List.forall_mem_map]
    exact fun part present => (follows part present).bitwiseWithin request
  rw [grants_or_iff bitwise]
  refine and_congr_right fun _ => forall₂_congr fun i member => ?_
  rw [verdict_or_eq_true]
  simp only [List.mem_map, exists_exists_and_eq_and]
  constructor
  · rintro ⟨part, present, share, granted⟩
    exact ⟨part, present, ((follows part present).grants_single share).mp granted⟩
  · rintro ⟨part, present, granted⟩
    have share : i ∈ (voter part).share request :=
      (follows part present).mem_share.mpr ⟨member, by rw [granted]; rfl⟩
    exact ⟨part, present, share, ((follows part present).grants_single share).mpr granted⟩

/-- Voters that follow opinions grant a request of some bit exactly if their opinions together
grant every bit of it. -/
theorem grants_of_follows (composition : Composition)
    (follows : ∀ part ∈ parts, (voter part).Follows (opinion part)) {request : Mask v} :
    (composition.grants request (parts.map voter)).run = true ↔
      request ≠ ∅ ∧
        ∀ i ∈ request, composition.verdict (parts.map (opinion · i)) = some true := by
  cases composition with
  | and => exact grants_and_of_follows follows
  | or => exact grants_or_of_follows follows

/-- A fold of voters that follow opinions is itself a voter that follows their combined opinion. -/
theorem follows_combined (composition : Composition) {covers : Mask v → Mask v}
    (follows : ∀ part ∈ parts, (voter part).Follows (opinion part))
    (covered : ∀ {asked : Mask v} {i : Nat},
      i ∈ covers asked ↔ ∃ part ∈ parts, i ∈ (voter part).covers asked) :
    ({ covers, grants := fun asked => composition.grants asked (parts.map voter) } :
      Voter Id v).Follows fun i => composition.verdict (parts.map (opinion · i)) where
  covers := by
    intro asked i
    rw [covered, verdict_isSome]
    constructor
    · rintro ⟨part, present, member⟩
      obtain ⟨asked, some⟩ := (follows part present).covers.mp member
      exact ⟨asked, part, present, some⟩
    · rintro ⟨asked, part, present, some⟩
      exact ⟨part, present, (follows part present).covers.mpr ⟨asked, some⟩⟩
  grants := by
    intro asked filled _
    rw [composition.grants_of_follows follows]
    simp only [ne_eq, filled, not_false_eq_true, true_and]

end Composition

end Authorization
