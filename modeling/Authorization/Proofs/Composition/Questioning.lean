import Mathlib
import Authorization.Proofs.Composition.Recording

/-!
# What voters are asked

A fold asks its voters in their order, each within its share, and a verdict that fails ends it. A
unanimous decision puts one question to a voter and stops at the first that is not granted; a
collective one never asks again for what is granted already. The transcript of a fold shows all of
this, and as long as no answer fails the outcome is that of the plain verdicts (`Conducted`).
-/

namespace Authorization.Composition

open Recorded

variable {v : Vocabulary} {ε : Type} {place : Ballot v ε × Nat}

/-- What a collective decision asks the ballots of some places when some bits are granted. -/
structure Canvasses (request : Mask v) (places : List (Ballot v ε × Nat)) (granted : Mask v)
    (outcome : Except ε Bool) (questions : List (Question v ε)) : Prop where
  put : ∀ question ∈ questions, ∃ place ∈ places,
    PutTo place (place.1.share request \ granted) question
  ordered : questions.Pairwise fun earlier later => earlier.voter ≤ later.voter
  fresh : Fresh questions
  ends : Ends outcome questions

section Canvass

variable {request granted : Mask v} {places : List (Ballot v ε × Nat)} {outcome : Except ε Bool}
  {questions more : List (Question v ε)}

/-- A canvass is still one with a ballot in front that is asked nothing. -/
theorem Canvasses.skip (canvasses : Canvasses request places granted outcome questions)
    (place : Ballot v ε × Nat) :
    Canvasses request (place :: places) granted outcome questions where
  put question asked :=
    let ⟨other, listed, put⟩ := canvasses.put question asked
    ⟨other, List.mem_cons_of_mem _ listed, put⟩
  ordered := canvasses.ordered
  fresh := canvasses.fresh
  ends := canvasses.ends

/-- What is asked of one ballot is a whole canvass if nothing follows. -/
theorem canvasses_award {awarded : Except ε (Mask v)}
    (awards : Awards place (place.1.share request \ granted) awarded questions)
    (ends : Ends outcome questions) :
    Canvasses request (place :: places) granted outcome questions where
  put question asked := ⟨place, List.mem_cons_self, awards.put question asked⟩
  ordered := awards.ordered
  fresh := awards.fresh
  ends := ends

/-- One ballot is asked and then those of later places, for what is not granted yet. -/
theorem Canvasses.cons {awarded : Mask v}
    (awards : Awards place (place.1.share request \ granted) (.ok awarded) questions)
    (canvasses : Canvasses request places (granted ∪ awarded) outcome more)
    (before : ∀ other ∈ places, place.2 < other.2) :
    Canvasses request (place :: places) granted outcome (questions ++ more) where
  put := by
    refine List.forall_mem_append.mpr ⟨fun question asked => ?_, fun question asked => ?_⟩
    · exact ⟨place, List.mem_cons_self, awards.put question asked⟩
    · obtain ⟨other, listed, put⟩ := canvasses.put question asked
      refine ⟨other, List.mem_cons_of_mem _ listed,
        put.mono (Mask.subset_iff.mpr fun i member => ?_)⟩
      simp only [Mask.mem_sdiff, Mask.mem_union, not_or] at member ⊢
      exact ⟨member.1, member.2.1⟩
  ordered := by
    refine List.pairwise_append.mpr
      ⟨awards.ordered, canvasses.ordered, fun earlier here later there => ?_⟩
    obtain ⟨other, listed, put⟩ := canvasses.put later there
    rw [(awards.put earlier here).voter, put.voter]
    exact Nat.le_of_lt (before other listed)
  fresh := by
    refine List.pairwise_append.mpr ⟨awards.fresh, canvasses.fresh,
      fun earlier here later there answer i member asked => ?_⟩
    obtain ⟨other, listed, put⟩ := canvasses.put later there
    have missing := (Mask.mem_sdiff.mp (Mask.subset_iff.mp put.within i asked)).2
    exact missing (Mask.mem_union.mpr
      (.inr ((awards.sum awarded rfl i).mpr ⟨earlier, here, answer, member⟩)))
  ends := canvasses.ends.append awards.ends

/-- What a collective decision records. -/
theorem collective_records (request granted : Mask v)
    (ascending : places.Pairwise fun place other => place.2 < other.2) :
    ∃ outcome questions,
      Records (collective request (places.map recorder) granted) outcome questions ∧
        Canvasses request places granted outcome questions ∧
        ∀ voters, List.Forall₂ (fun place voter => place.1.Agrees voter) places voters →
          ∀ verdict, outcome = .ok verdict →
            (collective request voters granted).run = verdict := by
  induction places generalizing granted with
  | nil =>
      refine ⟨_, [], records_pure (granted == request), ⟨by simp, .nil, .nil, by simp [Ends]⟩, ?_⟩
      rintro _ ⟨⟩ _ ⟨⟩
      rfl
  | cons place places ih =>
      obtain ⟨before, later⟩ := List.pairwise_cons.mp ascending
      rw [List.map_cons, collective]
      change ∃ outcome questions, Records (ite ((place.1.share request \ granted).isEmpty = true)
        _ _) outcome questions ∧ _
      by_cases bare : (place.1.share request \ granted).isEmpty = true
      · obtain ⟨outcome, questions, records, canvasses, agrees⟩ := ih granted later
        refine ⟨outcome, questions, by rwa [if_pos bare], canvasses.skip place, ?_⟩
        rintro _ (_ | ⟨same, others⟩) verdict done
        rw [collective, same.share]
        simp only [bare, if_true]
        exact agrees _ others verdict done
      · have filled := Mask.isEmpty_eq_false_iff.mp (Bool.eq_false_iff.mpr bare)
        obtain ⟨awarded, questions, records, awards, alike⟩ := award_records place filled
        simp only [if_neg bare]
        -- The canvass ends at a failure, or once the request is complete; else it goes on.
        cases awarded with
        | error error =>
            exact ⟨.error error, questions, records.fail, canvasses_award awards awards.ends,
              by rintro _ _ _ ⟨⟩⟩
        | ok awarded =>
            by_cases whole : granted ∪ awarded = request
            · refine ⟨.ok true, questions ++ [], records.bind ?_, ?_, ?_⟩
              · rw [if_pos whole]
                exact records_pure true
              · rw [List.append_nil]
                exact canvasses_award awards awards.ends
              · rintro _ (_ | ⟨same, others⟩) _ ⟨⟩
                rw [collective, same.share]
                simp [bare, alike _ same awarded rfl, whole]
            · obtain ⟨outcome, more, rest, canvasses, agrees⟩ :=
                ih (granted ∪ awarded) later
              refine ⟨outcome, questions ++ more, records.bind ?_, .cons awards canvasses before,
                ?_⟩
              · rwa [if_neg whole]
              · rintro _ (_ | ⟨same, others⟩) verdict done
                rw [collective, same.share]
                simp only [if_neg bare, Id.run_bind, alike _ same awarded rfl, if_neg whole]
                exact agrees _ others verdict done

end Canvass

/-- What a unanimous decision asks the ballots of some places. -/
structure Polls (request : Mask v) (places : List (Ballot v ε × Nat))
    (outcome : Except ε Bool) (questions : List (Question v ε)) : Prop where
  put : ∀ question ∈ questions, ∃ place ∈ places,
    PutTo place (place.1.share request) question ∧ question.asked = place.1.share request
  once : questions.Pairwise fun earlier later => earlier.voter < later.voter
  agreed : questions.Pairwise fun earlier _ => earlier.answer = .ok true
  decisive : ∀ question ∈ questions, question.answer ≠ .ok true → outcome = question.answer
  ends : Ends outcome questions

section Poll

variable {request : Mask v} {places : List (Ballot v ε × Nat)} {outcome : Except ε Bool}
  {questions : List (Question v ε)}

theorem Polls.skip (polls : Polls request places outcome questions) (place : Ballot v ε × Nat) :
    Polls request (place :: places) outcome questions where
  put question asked :=
    let ⟨other, listed, put⟩ := polls.put question asked
    ⟨other, List.mem_cons_of_mem _ listed, put⟩
  once := polls.once
  agreed := polls.agreed
  decisive := polls.decisive
  ends := polls.ends

/-- The question to a ballot about its whole share. -/
theorem putTo_share (filled : place.1.share request ≠ ∅) :
    PutTo place (place.1.share request)
      ⟨place.2, place.1.share request, place.1.verdict (place.1.share request)⟩ :=
  ⟨rfl, rfl, filled, Mask.subset_refl _⟩

/-- A single question, about a ballot's share, makes a poll. -/
theorem polls_question (places : List (Ballot v ε × Nat))
    (filled : place.1.share request ≠ ∅) :
    Polls request (place :: places) (place.1.verdict (place.1.share request))
      [⟨place.2, place.1.share request, place.1.verdict (place.1.share request)⟩] where
  put := List.forall_mem_singleton.mpr ⟨place, List.mem_cons_self, putTo_share filled, rfl⟩
  once := List.pairwise_singleton ..
  agreed := List.pairwise_singleton ..
  decisive := List.forall_mem_singleton.mpr fun _ => rfl
  ends := by
    cases place.1.verdict (place.1.share request) with
    | ok verdict => exact List.forall_mem_singleton.mpr ⟨verdict, rfl⟩
    | error error => exact ⟨[], _, rfl, by simp, rfl⟩

/-- A ballot that grants its share is asked once, and then those of later places. -/
theorem Polls.cons (filled : place.1.share request ≠ ∅)
    (answer : place.1.verdict (place.1.share request) = .ok true)
    (polls : Polls request places outcome questions)
    (before : ∀ other ∈ places, place.2 < other.2) :
    Polls request (place :: places) outcome
      (⟨place.2, place.1.share request, .ok true⟩ :: questions) where
  put := by
    have first := putTo_share filled
    rw [answer] at first
    exact List.forall_mem_cons.mpr
      ⟨⟨place, List.mem_cons_self, first, rfl⟩, (polls.skip place).put⟩
  once := List.pairwise_cons.mpr ⟨fun later there => by
    obtain ⟨other, listed, put, -⟩ := polls.put later there
    rw [put.voter]
    exact before other listed, polls.once⟩
  agreed := List.pairwise_cons.mpr ⟨fun _ _ => rfl, polls.agreed⟩
  decisive := List.forall_mem_cons.mpr ⟨fun denied => absurd rfl denied, polls.decisive⟩
  ends := polls.ends.append (List.forall_mem_singleton.mpr ⟨true, rfl⟩)

/-- What a unanimous decision records. -/
theorem unanimous_records (request covered : Mask v)
    (ascending : places.Pairwise fun place other => place.2 < other.2) :
    ∃ outcome questions,
      Records (unanimous request (places.map recorder) covered) outcome questions ∧
        Polls request places outcome questions ∧
        ∀ voters, List.Forall₂ (fun place voter => place.1.Agrees voter) places voters →
          ∀ verdict, outcome = .ok verdict →
            (unanimous request voters covered).run = verdict := by
  induction places generalizing covered with
  | nil =>
      refine ⟨_, [], records_pure (covered == request),
        ⟨by simp, .nil, .nil, by simp, by simp [Ends]⟩, ?_⟩
      rintro _ ⟨⟩ _ ⟨⟩
      rfl
  | cons place places ih =>
      obtain ⟨before, later⟩ := List.pairwise_cons.mp ascending
      rw [List.map_cons, unanimous]
      change ∃ outcome questions, Records (ite ((place.1.share request).isEmpty = true)
        _ (_ >>= _)) outcome questions ∧ _
      by_cases bare : (place.1.share request).isEmpty = true
      · obtain ⟨outcome, questions, records, polls, agrees⟩ := ih covered later
        refine ⟨outcome, questions, by rwa [if_pos bare], polls.skip place, ?_⟩
        rintro _ (_ | ⟨same, others⟩) verdict done
        rw [unanimous, same.share, if_pos bare]
        exact agrees _ others verdict done
      · have filled := Mask.isEmpty_eq_false_iff.mp (Bool.eq_false_iff.mpr bare)
        simp only [if_neg bare]
        have asked := polls_question places filled
        cases answer : place.1.verdict (place.1.share request) with
        | error error =>
            rw [answer] at asked
            exact ⟨.error error, _, records_ask_failed answer, asked, by rintro _ _ _ ⟨⟩⟩
        | ok granted =>
            cases granted with
            | false =>
                rw [answer] at asked
                refine ⟨.ok false, _, records_ask answer (records_pure false), asked, ?_⟩
                rintro _ (_ | ⟨same, others⟩) _ ⟨⟩
                rw [unanimous, same.share, if_neg bare, Id.run_bind, same.grants _ _ answer]
                rfl
            | true =>
                obtain ⟨outcome, questions, rest, polls, agrees⟩ :=
                  ih (covered ∪ place.1.share request) later
                refine ⟨outcome, _, records_ask answer rest, .cons filled answer polls before, ?_⟩
                rintro _ (_ | ⟨same, others⟩) verdict done
                rw [unanimous, same.share, if_neg bare, Id.run_bind, same.grants _ _ answer]
                exact agrees _ others verdict done

end Poll

section Grants

variable {m : Type → Type} [Monad m] {request : Mask v}

/-- Nothing is granted, and nobody asked, when nothing is requested. -/
theorem grants_of_empty (bare : request.isEmpty = true) (composition : Composition)
    (voters : List (Voter m v)) : composition.grants request voters = pure false :=
  if_pos bare

theorem grants_of_filled (filled : ¬request.isEmpty = true) (composition : Composition)
    (voters : List (Voter m v)) :
    composition.grants request voters = match composition with
      | .and => unanimous request voters ∅
      | .or => collective request voters ∅ :=
  if_neg filled

end Grants

/-- How a request is put to ballots: what is asked, in which order, and how it ends. -/
structure Conducted (composition : Composition) (request : Mask v) (ballots : List (Ballot v ε))
    (outcome : Except ε Bool) (questions : List (Question v ε)) : Prop where
  /-- Every question is about some bits of the share of a ballot, which answers it. -/
  put : ∀ question ∈ questions, ∃ ballot, ballots[question.voter]? = some ballot ∧
    question.answer = ballot.verdict question.asked ∧ question.asked ≠ ∅ ∧
    question.asked ⊆ ballot.share request
  ordered : questions.Pairwise fun earlier later => earlier.voter ≤ later.voter
  /-- Under `and` a ballot is asked once, about its whole share. -/
  whole : composition = .and →
    (questions.Pairwise fun earlier later => earlier.voter < later.voter) ∧
      ∀ question ∈ questions, ∀ ballot, ballots[question.voter]? = some ballot →
        question.asked = ballot.share request
  /-- Under `and` nothing follows an answer other than yes, which is the outcome. -/
  decisive : composition = .and →
    (questions.Pairwise fun earlier _ => earlier.answer = .ok true) ∧
      ∀ question ∈ questions, question.answer ≠ .ok true → outcome = question.answer
  /-- Under `or` nothing granted is asked for again. -/
  fresh : composition = .or → questions.Pairwise fun earlier later =>
    earlier.answer = .ok true → ∀ i ∈ earlier.asked, i ∉ later.asked
  /-- Under `or` a question is only asked while some bit is not granted. -/
  wanting : composition = .or → ∀ front question back, questions = front ++ question :: back →
    ∃ i ∈ request, ∀ earlier ∈ front, earlier.answer = .ok true → i ∉ earlier.asked
  failed : ∀ error, outcome = .error error ↔
    ∃ last, questions.getLast? = some last ∧ last.answer = .error error
  /-- Nothing is asked after a failure. -/
  halted : questions.Pairwise fun earlier _ => earlier.Answered
  /-- Without failures the outcome is that of voters with the same verdicts. -/
  settled : (∀ question ∈ questions, question.Answered) →
    ∀ voters : List (Voter Id v), List.Forall₂ Ballot.Agrees ballots voters →
      outcome = .ok (composition.grants request voters).run

section Conduct

variable {composition : Composition} {request : Mask v} {ballots : List (Ballot v ε)}
  {outcome : Except ε Bool} {questions : List (Question v ε)}

theorem ascending_zipIdx (ballots : List (Ballot v ε)) :
    ballots.zipIdx.Pairwise fun place other => place.2 < other.2 := by
  have places : (List.range' 0 ballots.length).Pairwise (· < ·) := List.pairwise_lt_range'
  rw [← List.zipIdx_map_snd 0 ballots] at places
  exact List.pairwise_map.mp places

theorem forall₂_zipIdx {voters : List (Voter Id v)}
    (agree : List.Forall₂ Ballot.Agrees ballots voters) :
    List.Forall₂ (fun place voter => place.1.Agrees voter) ballots.zipIdx voters := by
  rw [← List.zipIdx_map_fst 0 ballots] at agree
  exact List.forall₂_map_left_iff.mp agree

/-- A question put to a ballot of a list, by the place of the ballot. -/
theorem PutTo.listed {place : Ballot v ε × Nat} {bits : Mask v} {question : Question v ε}
    (put : PutTo place bits question) (listed : place ∈ ballots.zipIdx)
    (within : bits ⊆ place.1.share request) :
    ∃ ballot, ballots[question.voter]? = some ballot ∧
      question.answer = ballot.verdict question.asked ∧ question.asked ≠ ∅ ∧
      question.asked ⊆ ballot.share request := by
  refine ⟨place.1, ?_, put.answer, put.filled, (put.mono within).within⟩
  rw [put.voter]
  exact List.mem_zipIdx_iff_getElem?.mp listed

/-- Questions that were all answered do not end in a failure. -/
theorem outcome_of_answered (ends : Ends outcome questions)
    (answered : ∀ question ∈ questions, question.Answered) :
    ∃ verdict, outcome = .ok verdict := by
  cases outcome with
  | ok verdict => exact ⟨verdict, rfl⟩
  | error error =>
      obtain ⟨last, final, failed⟩ := (ends.error_iff error).mp rfl
      obtain ⟨verdict, answer⟩ := answered last (List.mem_of_getLast? final)
      rw [answer] at failed
      cases failed

/-- Before a question, some requested bit has not been granted: one that is asked about. -/
theorem Fresh.wanting (fresh : Fresh questions)
    (put : ∀ question ∈ questions, question.asked ≠ ∅ ∧ question.asked ⊆ request)
    {front back : List (Question v ε)} {question : Question v ε}
    (split : questions = front ++ question :: back) :
    ∃ i ∈ request, ∀ earlier ∈ front, earlier.answer = .ok true → i ∉ earlier.asked := by
  subst split
  obtain ⟨filled, within⟩ := put question (by simp)
  obtain ⟨i, member⟩ := Mask.ne_empty_iff.mp filled
  refine ⟨i, Mask.subset_iff.mp within i member, fun earlier here granted asked => ?_⟩
  exact (List.pairwise_append.mp fresh).2.2 earlier here question List.mem_cons_self granted i
    asked member

/-- A canvass of all ballots, with the right verdict, is conducted as "or" should be. -/
theorem Canvasses.conducted
    (canvasses : Canvasses request ballots.zipIdx ∅ outcome questions)
    (agrees : ∀ voters : List (Voter Id v), List.Forall₂ Ballot.Agrees ballots voters →
      ∀ verdict, outcome = .ok verdict → (Composition.or.grants request voters).run = verdict) :
    Composition.or.Conducted request ballots outcome questions := by
  have put : ∀ question ∈ questions, ∃ ballot, ballots[question.voter]? = some ballot ∧
      question.answer = ballot.verdict question.asked ∧ question.asked ≠ ∅ ∧
      question.asked ⊆ ballot.share request := by
    intro question asked
    obtain ⟨place, listed, put⟩ := canvasses.put question asked
    exact put.listed listed (Mask.sdiff_subset ..)
  have within : ∀ question ∈ questions, question.asked ≠ ∅ ∧ question.asked ⊆ request := by
    intro question asked
    obtain ⟨ballot, -, -, filled, within⟩ := put question asked
    exact ⟨filled, Mask.subset_trans within (ballot.share_subset request)⟩
  exact
    { put
      ordered := canvasses.ordered
      whole := nofun
      decisive := nofun
      fresh := fun _ => canvasses.fresh
      wanting := fun _ _ _ _ split => canvasses.fresh.wanting within split
      failed := canvasses.ends.error_iff
      halted := canvasses.ends.pairwise_answered
      settled := by
        intro answered voters agree
        obtain ⟨verdict, rfl⟩ := outcome_of_answered canvasses.ends answered
        rw [agrees voters agree verdict rfl] }

/-- A poll of all ballots, with the right verdict, is conducted as "and" should be. -/
theorem Polls.conducted (polls : Polls request ballots.zipIdx outcome questions)
    (agrees : ∀ voters : List (Voter Id v), List.Forall₂ Ballot.Agrees ballots voters →
      ∀ verdict, outcome = .ok verdict → (Composition.and.grants request voters).run = verdict) :
    Composition.and.Conducted request ballots outcome questions where
  put question asked :=
    let ⟨_, listed, put, _⟩ := polls.put question asked
    put.listed listed (Mask.subset_refl _)
  ordered := polls.once.imp Nat.le_of_lt
  whole _ := by
    refine ⟨polls.once, fun question asked ballot found => ?_⟩
    obtain ⟨place, listed, put, whole⟩ := polls.put question asked
    rw [put.voter, List.mem_zipIdx_iff_getElem?.mp listed] at found
    rw [whole, Option.some.inj found]
  decisive _ := ⟨polls.agreed, polls.decisive⟩
  fresh := nofun
  wanting := nofun
  failed := polls.ends.error_iff
  halted := polls.ends.pairwise_answered
  settled := by
    intro answered voters agree
    obtain ⟨verdict, rfl⟩ := outcome_of_answered polls.ends answered
    rw [agrees voters agree verdict rfl]

/-- A request of no bits is put to nobody and denied. -/
theorem conducted_empty (bare : request.isEmpty = true) :
    composition.Conducted request ballots (.ok false) [] where
  put := by simp
  ordered := .nil
  whole _ := ⟨.nil, by simp⟩
  decisive _ := ⟨.nil, by simp⟩
  fresh _ := .nil
  wanting _ := by simp
  failed := by simp
  halted := .nil
  settled _ voters _ := by
    rw [grants_of_empty bare]
    rfl

end Conduct

/-- What is recorded of a computation is its transcript. -/
theorem transcript_of_records {composition : Composition} {request : Mask v}
    {ballots : List (Ballot v ε)} {outcome : Except ε Bool} {questions : List (Question v ε)}
    (records : Records (composition.grants request (Ballot.voters ballots)) outcome questions) :
    composition.transcript request ballots = (outcome, questions) :=
  records []

/-- **What voters are asked.** The transcript of a fold shows questions in the order of the voters,
each within a share that is not empty. Under `and` every voter is asked about its whole share, until
one does not grant it; under `or` nothing that was granted is asked for again. The first failure
ends the questions and is the outcome; without one, the outcome is that of the plain verdicts. -/
theorem transcript_conducted (composition : Composition) (request : Mask v)
    (ballots : List (Ballot v ε)) :
    composition.Conducted request ballots (composition.transcript request ballots).1
      (composition.transcript request ballots).2 := by
  by_cases bare : request.isEmpty = true
  · have nothing : composition.transcript request ballots = (.ok false, []) := by
      apply transcript_of_records
      rw [grants_of_empty bare]
      exact records_pure false
    rw [nothing]
    exact conducted_empty bare
  · have places := ascending_zipIdx ballots
    cases composition with
    | and =>
        obtain ⟨outcome, questions, records, polls, agrees⟩ :=
          unanimous_records request ∅ places
        have taken : Composition.and.transcript request ballots = (outcome, questions) := by
          apply transcript_of_records
          rwa [grants_of_filled bare]
        rw [taken]
        refine polls.conducted fun voters agree verdict done => ?_
        rw [grants_of_filled bare]
        exact agrees voters (forall₂_zipIdx agree) verdict done
    | or =>
        obtain ⟨outcome, questions, records, canvasses, agrees⟩ :=
          collective_records request ∅ places
        have taken : Composition.or.transcript request ballots = (outcome, questions) := by
          apply transcript_of_records
          rwa [grants_of_filled bare]
        rw [taken]
        refine canvasses.conducted fun voters agree verdict done => ?_
        rw [grants_of_filled bare]
        exact agrees voters (forall₂_zipIdx agree) verdict done

/-- The first voter grants one bit of its share alone, which is found by asking bit by bit; the
second is asked for what is missing and grants it, so the third is not asked. Where all must agree
the third is asked too, and fails. -/
theorem reading_put_to_two_of_three :
    let first : Ballot .permission String :=
      { covers := fun _ => Permissions.read
        verdict := fun asked => .ok (decide (asked ⊆ Permissions.readNode)) }
    let second : Ballot .permission String := { covers := id, verdict := fun _ => .ok true }
    let third : Ballot .permission String := { covers := id, verdict := fun _ => .error "offline" }
    let request := Permissions.read ∪ Permissions.addNode
    let questions : List (Question .permission String) :=
      [⟨0, Permissions.read, .ok false⟩, ⟨0, Permissions.readNode, .ok true⟩,
        ⟨0, Permissions.readProperty, .ok false⟩,
        ⟨1, Permissions.readProperty ∪ Permissions.addNode, .ok true⟩]
    or.transcript request [first, second, third] = (.ok true, questions) ∧
      or.Conducted request [first, second, third] (.ok true) questions ∧
      and.transcript request [second, third] =
        (.error "offline", [⟨0, request, .ok true⟩, ⟨1, request, .error "offline"⟩]) := by
  intro first second third request questions
  have granted : or.transcript request [first, second, third] = (.ok true, questions) := by cbv
  have conducted := transcript_conducted .or request [first, second, third]
  rw [granted] at conducted
  exact ⟨granted, conducted, by cbv⟩

end Authorization.Composition
