import Authorization.Proofs.Composition.Fold

/-!
# Folds carried into another monad

Voters answer in a monad, so that a question may fail or leave a trace. A map between monads that
keeps sequencing carries a fold of verdicts to the fold of the verdicts carried
(`grants_carried`). So voters that give plain verdicts on whatever they can be asked only give a
plain verdict together (`grants_pure`); in particular they do not fail.
-/

namespace Authorization

/-- A way to carry computations of one monad into another that keeps results and sequencing. -/
structure Carrier (n m : Type → Type) [Monad n] [Monad m] where
  carry : {α : Type} → n α → m α
  carry_pure : ∀ {α : Type} (value : α), carry (pure value) = pure value
  carry_bind : ∀ {α β : Type} (first : n α) (next : α → n β),
    carry (first >>= next) = carry first >>= fun value => carry (next value)

namespace Carrier

variable {n m : Type → Type} [Monad n] [Monad m]

/-- Plain values are carried into every monad. -/
def plain [LawfulMonad m] : Carrier Id m where
  carry value := pure value.run
  carry_pure _ := rfl
  carry_bind first next := (pure_bind first.run fun value => pure (next value).run).symm

/-- What carries computations carries those that may fail. -/
def failing (carrier : Carrier n m) (ε : Type) : Carrier (ExceptT ε n) (ExceptT ε m) where
  carry value := ExceptT.mk (carrier.carry value.run)
  carry_pure value := carrier.carry_pure (Except.ok value)
  carry_bind first next := by
    refine (carrier.carry_bind first.run _).trans (congrArg _ (funext fun outcome => ?_))
    cases outcome with
    | ok value => rfl
    | error failure => exact carrier.carry_pure (Except.error failure)

end Carrier

variable {n m : Type → Type} [Monad n] [Monad m] {v : Vocabulary}

/-- On every part of a request that it can be asked about, a voter gives the verdict of another,
carried over. -/
structure Voter.Mirrors (carrier : Carrier n m) (voter : Voter m v) (plain : Voter n v)
    (request : Mask v) : Prop where
  covers : voter.covers = plain.covers
  grants : ∀ asked, asked ≠ ∅ → asked ⊆ request →
    voter.grants asked = carrier.carry (plain.grants asked)

theorem Voter.Mirrors.share {carrier : Carrier n m} {voter : Voter m v} {plain : Voter n v}
    {request : Mask v} (mirrors : voter.Mirrors carrier plain request) :
    voter.share request = plain.share request := by
  rw [Voter.share, Voter.share, mirrors.covers]

namespace Composition

variable {carrier : Carrier n m} {ι : Type} {parts : List ι} {voter : ι → Voter m v}
  {plain : ι → Voter n v} {request : Mask v}

/-- Parts asked about one by one are granted alike. -/
theorem grantedParts_carried {grants : Mask v → m Bool} {verdict : Mask v → n Bool}
    {pieces : List (Mask v)}
    (same : ∀ piece ∈ pieces, grants piece = carrier.carry (verdict piece)) :
    grantedParts grants pieces = carrier.carry (grantedParts verdict pieces) := by
  induction pieces with
  | nil => exact (carrier.carry_pure _).symm
  | cons piece pieces ih =>
      obtain ⟨here, later⟩ := List.forall_mem_cons.mp same
      simp only [grantedParts, here, ih later, carrier.carry_bind, carrier.carry_pure]

/-- What is awarded is the same, if all questions about what is missing have the same answers. -/
theorem award_carried {grants : Mask v → m Bool} {verdict : Mask v → n Bool} {missing : Mask v}
    (filled : missing ≠ ∅)
    (same : ∀ asked, asked ≠ ∅ → asked ⊆ missing → grants asked = carrier.carry (verdict asked)) :
    award grants missing = carrier.carry (award verdict missing) := by
  have whole : missing ⊆ missing := Mask.subset_iff.mpr fun _ member => member
  have single : ∀ piece ∈ missing.singles, grants piece = carrier.carry (verdict piece) := by
    intro piece listed
    obtain ⟨i, member, rfl⟩ := Mask.mem_singles.mp listed
    exact same _ (Mask.single_ne_empty member) (Mask.single_subset member)
  rw [award, award, carrier.carry_bind, same missing filled whole]
  refine congrArg _ (funext fun granted => ?_)
  split
  · exact (carrier.carry_pure _).symm
  · split
    · exact grantedParts_carried single
    · exact (carrier.carry_pure _).symm

section Mirrors

variable (mirrors : ∀ part ∈ parts, (voter part).Mirrors carrier (plain part) request)

include mirrors

/-- The fold for "and" runs alike. -/
theorem unanimous_carried (covered : Mask v) :
    unanimous request (parts.map voter) covered =
      carrier.carry (unanimous request (parts.map plain) covered) := by
  induction parts generalizing covered with
  | nil => exact (carrier.carry_pure _).symm
  | cons part parts ih =>
      obtain ⟨here, later⟩ := List.forall_mem_cons.mp mirrors
      have within : (plain part).share request ⊆ request :=
        Mask.subset_iff.mpr fun _ member => (Voter.mem_share.mp member).2
      simp only [List.map_cons, unanimous, here.share]
      split
      · exact ih later covered
      · rename_i filled
        rw [carrier.carry_bind, here.grants _ (by simpa [Mask.isEmpty] using filled) within]
        refine congrArg _ (funext fun granted => ?_)
        split
        · exact ih later _
        · exact (carrier.carry_pure _).symm

theorem collective_carried (granted : Mask v) :
    collective request (parts.map voter) granted =
      carrier.carry (collective request (parts.map plain) granted) := by
  induction parts generalizing granted with
  | nil => exact (carrier.carry_pure _).symm
  | cons part parts ih =>
      obtain ⟨here, later⟩ := List.forall_mem_cons.mp mirrors
      have same : ∀ asked, asked ≠ ∅ → asked ⊆ (plain part).share request \ granted →
          (voter part).grants asked = carrier.carry ((plain part).grants asked) := by
        intro asked filled within
        refine here.grants asked filled (Mask.subset_iff.mpr fun i member => ?_)
        have missing := Mask.mem_sdiff.mp (Mask.subset_iff.mp within i member)
        exact (Voter.mem_share.mp missing.1).2
      simp only [List.map_cons, collective, here.share]
      split
      · exact ih later granted
      · rename_i filled
        rw [carrier.carry_bind, award_carried (by simpa [Mask.isEmpty] using filled) same]
        refine congrArg _ (funext fun awarded => ?_)
        split
        · exact (carrier.carry_pure _).symm
        · exact ih later _

/-- A fold of verdicts that are carried over is the fold carried over. -/
theorem grants_carried (composition : Composition) :
    composition.grants request (parts.map voter) =
      carrier.carry (composition.grants request (parts.map plain)) := by
  unfold grants
  split
  · exact (carrier.carry_pure _).symm
  · cases composition with
    | and => exact unanimous_carried mirrors ∅
    | or => exact collective_carried mirrors ∅

end Mirrors

end Composition

/-- On every part of a request, a voter does nothing but give the verdict of another. -/
abbrev Voter.Plainly [LawfulMonad m] (voter : Voter m v) (plain : Voter Id v)
    (request : Mask v) : Prop :=
  voter.Mirrors .plain plain request

/-- Voters that only give plain verdicts only give a plain verdict together. -/
theorem Composition.grants_pure [LawfulMonad m] {ι : Type} {parts : List ι}
    {voter : ι → Voter m v} {plain : ι → Voter Id v} {request : Mask v}
    (plainly : ∀ part ∈ parts, (voter part).Plainly (plain part) request)
    (composition : Composition) :
    composition.grants request (parts.map voter) =
      pure (composition.grants request (parts.map plain)).run :=
  grants_carried plainly composition

end Authorization
