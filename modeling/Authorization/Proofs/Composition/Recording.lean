import Authorization.Composition.Transcript
import Authorization.Proofs.Composition.Fold

/-!
# Recording questions

A decision that records its questions adds them to those that were asked before (`Records`), and
they end with the first failure (`Ends`). To find out what a ballot grants of some bits, it is asked
about all of them and then, if that is denied, about each on its own; awarded are the bits of the
questions that it granted (`award_records`).
-/

namespace Authorization

variable {v : Vocabulary} {ε : Type}

/-- Whether a question was answered, one way or the other. -/
def Question.Answered (question : Question v ε) : Prop :=
  ∃ verdict, question.answer = .ok verdict

/-- A voter that covers what a ballot covers, and gives its verdicts where it has any. -/
structure Ballot.Agrees (ballot : Ballot v ε) (voter : Voter Id v) : Prop where
  covers : voter.covers = ballot.covers
  grants : ∀ asked verdict, ballot.verdict asked = .ok verdict →
    (voter.grants asked).run = verdict

/-- The part of a request that a ballot is asked about. -/
def Ballot.share (ballot : Ballot v ε) (request : Mask v) : Mask v :=
  ballot.covers request ∩ request

theorem Ballot.share_subset (ballot : Ballot v ε) (request : Mask v) :
    ballot.share request ⊆ request :=
  Mask.subset_iff.mpr fun _ member => (Mask.mem_inter.mp member).2

theorem Ballot.Agrees.share {ballot : Ballot v ε} {voter : Voter Id v}
    (agrees : ballot.Agrees voter) (request : Mask v) :
    voter.share request = ballot.share request := by
  rw [Voter.share, agrees.covers, Ballot.share]

namespace Mask

theorem empty_union (a : Mask v) : ∅ ∪ a = a := ext fun i => by simp

/-- No two of the single bits of a mask share a bit. -/
theorem pairwise_singles (mask : Mask v) :
    mask.singles.Pairwise fun part other => ∀ i ∈ part, i ∉ other := by
  have ascending : ((List.range 64).filter (· ∈ mask)).Pairwise (· < ·) :=
    List.pairwise_lt_range.filter _
  refine List.pairwise_map.mpr (ascending.imp fun {i j} before k member same => ?_)
  rw [eq_of_mem_single member] at same
  exact absurd (eq_of_mem_single same) (Nat.ne_of_lt before)

end Mask

namespace Recorded

variable {α β : Type} {step : Recorded v ε α} {next : α → Recorded v ε β}
  {questions more : List (Question v ε)}

/-- Whatever was asked before, a step has an outcome and asks some questions. -/
def Records (step : Recorded v ε α) (outcome : Except ε α)
    (questions : List (Question v ε)) : Prop :=
  ∀ before, step.run.run before = (outcome, before ++ questions)

theorem records_pure (value : α) : Records (pure value : Recorded v ε α) (.ok value) [] := by
  intro before
  rw [List.append_nil]
  rfl

/-- Questions of a computation are followed by those of what comes next. -/
theorem Records.bind {value : α} {outcome : Except ε β}
    (first : Records step (.ok value) questions) (second : Records (next value) outcome more) :
    Records (step >>= next) outcome (questions ++ more) := by
  intro before
  rw [ExceptT.run_bind, StateT.run_bind, first before, ← List.append_assoc]
  exact second (before ++ questions)

/-- After an error nothing more is asked. -/
theorem Records.fail {error : ε} (first : Records step (.error error) questions) :
    Records (step >>= next) (.error error) questions := by
  intro before
  rw [ExceptT.run_bind, StateT.run_bind, first before]
  rfl

theorem Records.map {outcome : Except ε α} (records : Records step outcome questions)
    (f : α → β) : Records (step >>= fun value => pure (f value)) (outcome.map f) questions := by
  cases outcome with
  | error error => exact records.fail
  | ok value =>
      have mapped : Records (step >>= fun value => pure (f value)) _ (questions ++ []) :=
        records.bind (records_pure (f value))
      rwa [List.append_nil] at mapped

/-- Asking a ballot records the question with its answer. -/
theorem records_question (ballot : Ballot v ε) (place : Nat) (asked : Mask v) :
    Records ((ballot.recorded place).grants asked) (ballot.verdict asked)
      [⟨place, asked, ballot.verdict asked⟩] :=
  fun _ => rfl

section Ask

variable {ballot : Ballot v ε} {place : Nat} {asked : Mask v} {next : Bool → Recorded v ε β}

/-- A question that is answered, and what follows from the answer. -/
theorem records_ask {verdict : Bool} {outcome : Except ε β}
    (answer : ballot.verdict asked = .ok verdict) (rest : Records (next verdict) outcome more) :
    Records ((ballot.recorded place).grants asked >>= next) outcome
      (⟨place, asked, .ok verdict⟩ :: more) := by
  have question := records_question ballot place asked
  rw [answer] at question
  exact question.bind rest

/-- A ballot that fails is the last that is asked. -/
theorem records_ask_failed {error : ε} (answer : ballot.verdict asked = .error error) :
    Records ((ballot.recorded place).grants asked >>= next) (.error error)
      [⟨place, asked, .error error⟩] := by
  have question := records_question ballot place asked
  rw [answer] at question
  exact question.fail

end Ask

/-- Questions that were all answered, or all but the last, whose failure is the outcome. -/
def Ends (outcome : Except ε α) (questions : List (Question v ε)) : Prop :=
  match outcome with
  | .ok _ => ∀ question ∈ questions, question.Answered
  | .error error => ∃ front last, questions = front ++ [last] ∧
      (∀ question ∈ front, question.Answered) ∧ last.answer = .error error

/-- Answered questions may come before any others. -/
theorem Ends.append {outcome : Except ε α}
    (answered : ∀ question ∈ questions, question.Answered) (ends : Ends outcome more) :
    Ends outcome (questions ++ more) := by
  cases outcome with
  | ok value => exact List.forall_mem_append.mpr ⟨answered, ends⟩
  | error error =>
      obtain ⟨front, last, rfl, before, failed⟩ := ends
      exact ⟨questions ++ front, last, (List.append_assoc ..).symm,
        List.forall_mem_append.mpr ⟨answered, before⟩, failed⟩

/-- The outcome is a failure exactly if the last answer was that failure. -/
theorem Ends.error_iff {outcome : Except ε α} (ends : Ends outcome questions) (error : ε) :
    outcome = .error error ↔
      ∃ last, questions.getLast? = some last ∧ last.answer = .error error := by
  cases outcome with
  | ok value =>
      refine ⟨fun failed => (nomatch failed), ?_⟩
      rintro ⟨last, final, failed⟩
      obtain ⟨verdict, answer⟩ := ends last (List.mem_of_getLast? final)
      rw [answer] at failed
      cases failed
  | error failure =>
      obtain ⟨front, last, rfl, -, failed⟩ := ends
      simp [failed, eq_comm]

/-- Nothing is asked after a failure. -/
theorem Ends.pairwise_answered {outcome : Except ε α} (ends : Ends outcome questions) :
    questions.Pairwise fun earlier _ => earlier.Answered := by
  cases outcome with
  | ok value => exact List.pairwise_of_forall_mem_list fun earlier here _ _ => ends earlier here
  | error failure =>
      obtain ⟨front, last, rfl, answered, -⟩ := ends
      refine List.pairwise_append.mpr ⟨?_, List.pairwise_singleton .., ?_⟩
      · exact List.pairwise_of_forall_mem_list fun earlier here _ _ => answered earlier here
      · exact fun earlier here _ _ => answered earlier here

end Recorded

namespace Composition

open Recorded

/-- The voter of a ballot that records what it is asked. -/
abbrev recorder (place : Ballot v ε × Nat) : Voter (Recorded v ε) v := place.1.recorded place.2

/-- A question put to the ballot of a place, about some bits. -/
structure PutTo (place : Ballot v ε × Nat) (bits : Mask v) (question : Question v ε) : Prop where
  voter : question.voter = place.2
  answer : question.answer = place.1.verdict question.asked
  filled : question.asked ≠ ∅
  within : question.asked ⊆ bits

/-- No mask is asked about that holds a bit granted before. -/
def Fresh (questions : List (Question v ε)) : Prop :=
  questions.Pairwise fun earlier later =>
    earlier.answer = .ok true → ∀ i ∈ earlier.asked, i ∉ later.asked

/-- What is put to one ballot to find what it grants of some bits. -/
structure Awards (place : Ballot v ε × Nat) (bits : Mask v) (outcome : Except ε (Mask v))
    (questions : List (Question v ε)) : Prop where
  put : ∀ question ∈ questions, PutTo place bits question
  fresh : Fresh questions
  ends : Ends outcome questions
  sum : ∀ awarded, outcome = .ok awarded →
    ∀ i, i ∈ awarded ↔ ∃ question ∈ questions, question.answer = .ok true ∧ i ∈ question.asked

variable {place : Ballot v ε × Nat} {bits : Mask v}

theorem PutTo.mono {more : Mask v} {question : Question v ε} (put : PutTo place bits question)
    (within : bits ⊆ more) : PutTo place more question where
  voter := put.voter
  answer := put.answer
  filled := put.filled
  within := Mask.subset_trans put.within within

/-- One question about all bits, and what its answer awards. -/
theorem awards_question (filled : bits ≠ ∅) {verdict : Bool}
    (answer : place.1.verdict bits = .ok verdict) :
    Awards place bits (.ok (if verdict then bits else ∅)) [⟨place.2, bits, .ok verdict⟩] where
  put := List.forall_mem_singleton.mpr ⟨rfl, answer.symm, filled, Mask.subset_refl bits⟩
  fresh := List.pairwise_singleton ..
  ends := List.forall_mem_singleton.mpr ⟨verdict, rfl⟩
  sum := by
    rintro _ ⟨⟩ i
    cases verdict <;> simp

/-- A question about some bits that fails. -/
theorem awards_failure {part : Mask v} (filled : part ≠ ∅) (within : part ⊆ bits) {error : ε}
    (answer : place.1.verdict part = .error error) :
    Awards place bits (.error error) [⟨place.2, part, .error error⟩] where
  put := List.forall_mem_singleton.mpr ⟨rfl, answer.symm, filled, within⟩
  fresh := List.pairwise_singleton ..
  ends := ⟨[], _, rfl, by simp, rfl⟩
  sum := by rintro _ ⟨⟩

/-- The questions of one award are all put to one voter, so they are in order. -/
theorem Awards.ordered {outcome : Except ε (Mask v)} {questions : List (Question v ε)}
    (awards : Awards place bits outcome questions) :
    questions.Pairwise fun earlier later => earlier.voter ≤ later.voter :=
  List.pairwise_of_forall_mem_list fun earlier here later there =>
    Nat.le_of_eq ((awards.put earlier here).voter.trans (awards.put later there).voter.symm)

/-- Questions about some bits and then about others that none of them was granted of. -/
theorem Awards.append {part rest : Mask v} {awarded : Mask v} {outcome : Except ε (Mask v)}
    {questions more : List (Question v ε)} (first : Awards place part (.ok awarded) questions)
    (second : Awards place rest outcome more) (within : part ⊆ bits) (inside : rest ⊆ bits)
    (apart : ∀ i ∈ awarded, i ∉ rest) :
    Awards place bits (outcome.map (awarded ∪ ·)) (questions ++ more) where
  put := List.forall_mem_append.mpr
    ⟨fun question here => (first.put question here).mono within,
      fun question here => (second.put question here).mono inside⟩
  fresh := List.pairwise_append.mpr ⟨first.fresh, second.fresh,
    fun earlier here later there granted i member asked =>
      apart i ((first.sum awarded rfl i).mpr ⟨earlier, here, granted, member⟩)
        (Mask.subset_iff.mp (second.put later there).within i asked)⟩
  ends := by
    have ends := second.ends.append first.ends
    cases outcome <;> exact ends
  sum := by
    intro whole same i
    cases outcome with
    | error error => cases same
    | ok others =>
        cases same
        rw [Mask.mem_union, first.sum awarded rfl, second.sum others rfl]
        simp only [List.mem_append, or_and_right, exists_or]

/-- Asking about parts one by one, of which no two share a bit. -/
theorem grantedParts_records {parts : List (Mask v)} {bits : Mask v}
    (filled : ∀ part ∈ parts, part ≠ ∅ ∧ part ⊆ bits)
    (apart : parts.Pairwise fun part other => ∀ i ∈ part, i ∉ other) :
    ∃ outcome questions,
      Records (grantedParts (recorder place).grants parts) outcome questions ∧
        Awards place bits outcome questions ∧
        ∀ voter, place.1.Agrees voter → ∀ awarded, outcome = .ok awarded →
          (grantedParts voter.grants parts).run = awarded := by
  induction parts generalizing bits with
  | nil =>
      refine ⟨.ok ∅, [], records_pure ∅, ⟨by simp, List.Pairwise.nil, by simp [Ends], ?_⟩, ?_⟩
      · rintro _ ⟨⟩
        simp
      · rintro voter - _ ⟨⟩
        rfl
  | cons part parts ih =>
      obtain ⟨⟨some, within⟩, later⟩ := List.forall_mem_cons.mp filled
      obtain ⟨here, apart⟩ := List.pairwise_cons.mp apart
      cases answer : place.1.verdict part with
      | error error =>
          exact ⟨.error error, _, records_ask_failed answer, awards_failure some within answer,
            by rintro _ _ _ ⟨⟩⟩
      | ok granted =>
          -- The parts are disjoint, so the later ones ask only for what this one leaves.
          have rest : ∀ other ∈ parts, other ≠ ∅ ∧ other ⊆ bits \ part := fun other listed =>
            (later other listed).imp_right fun inside =>
              Mask.subset_sdiff inside (here other listed)
          obtain ⟨outcome, questions, records, awards, agrees⟩ := ih rest apart
          have outside : ∀ i ∈ (if granted then part else ∅ : Mask v), i ∉ bits \ part := by
            intro i member missing
            cases granted with
            | true => exact (Mask.mem_sdiff.mp missing).2 member
            | false => exact Mask.notMem_empty i member
          have joined (others : Mask v) : (if granted then part ∪ others else others) =
              (if granted then part else ∅) ∪ others := by
            cases granted with
            | true => rfl
            | false => exact (Mask.empty_union others).symm
          refine ⟨_, _, records_ask answer ?_,
            (awards_question some answer).append awards within (Mask.sdiff_subset ..) outside, ?_⟩
          · rw [← funext joined]
            exact records.map _
          · intro voter same awarded done
            cases outcome with
            | error error => cases done
            | ok others =>
                cases done
                rw [grantedParts]
                simp only [Id.run_bind, Id.run_pure, same.grants part granted answer,
                  agrees voter same others rfl, joined]

/-- Asking one ballot for what it grants of some bits. -/
theorem award_records (place : Ballot v ε × Nat) {bits : Mask v} (filled : bits ≠ ∅) :
    ∃ outcome questions,
      Records (award (recorder place).grants bits) outcome questions ∧
        Awards place bits outcome questions ∧
        ∀ voter, place.1.Agrees voter → ∀ awarded, outcome = .ok awarded →
          (award voter.grants bits).run = awarded := by
  cases answer : place.1.verdict bits with
  | error error =>
      exact ⟨.error error, _, records_ask_failed answer,
        awards_failure filled (Mask.subset_refl bits) answer, by rintro _ _ _ ⟨⟩⟩
  | ok granted =>
      have first := awards_question filled answer
      cases granted with
      | true =>
          refine ⟨_, _, records_ask answer (records_pure bits), first, ?_⟩
          rintro voter same _ ⟨⟩
          rw [award]
          simp only [Id.run_bind, same.grants bits true answer, if_pos]
          rfl
      | false =>
          -- The whole is not granted: bits are asked for one by one, if there are several.
          by_cases several : 1 < bits.singles.length
          · have singles : ∀ part ∈ bits.singles, part ≠ ∅ ∧ part ⊆ bits := by
              intro part listed
              obtain ⟨i, member, rfl⟩ := Mask.mem_singles.mp listed
              exact ⟨Mask.single_ne_empty member, Mask.single_subset member⟩
            obtain ⟨outcome, questions, records, awards, agrees⟩ :=
              grantedParts_records singles bits.pairwise_singles
            have whole := Mask.subset_refl bits
            have both := first.append awards whole whole fun i member => absurd member (by simp)
            have same : outcome.map ((if false = true then bits else ∅) ∪ ·) = outcome := by
              cases outcome with
              | error error => rfl
              | ok awarded => exact congrArg Except.ok (Mask.empty_union awarded)
            rw [same] at both
            refine ⟨outcome, _, records_ask answer ?_, both, ?_⟩
            · simpa [several] using records
            · intro voter alike awarded done
              rw [award]
              simp only [Id.run_bind, alike.grants bits false answer, several, if_true]
              exact agrees voter alike awarded done
          · refine ⟨_, _, records_ask answer ?_, first, ?_⟩
            · have nothing : Records (pure ∅ : Recorded v ε (Mask v)) _ _ := records_pure ∅
              simpa [several] using nothing
            · rintro voter alike _ ⟨⟩
              rw [award]
              simp only [Id.run_bind, alike.grants bits false answer, several, if_false]
              rfl

end Composition

end Authorization
