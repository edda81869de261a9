import Authorization.Composition

/-!
# Transcripts of decisions

The questions put to voters whose verdicts may fail, in order, next to the outcome. The first
failure ends the questions and is the outcome.
-/

namespace Authorization

/-- A party whose verdicts are known in advance and may fail. -/
structure Ballot (v : Vocabulary) (ε : Type) where
  covers : Mask v → Mask v
  verdict : Mask v → Except ε Bool

/-- A question put to a voter: the place of the voter in the list, what was asked, and the
answer. -/
structure Question (v : Vocabulary) (ε : Type) where
  voter : Nat
  asked : Mask v
  answer : Except ε Bool

/-- Decisions that may fail and whose questions are recorded, also when they fail. -/
abbrev Recorded (v : Vocabulary) (ε : Type) := ExceptT ε (StateM (List (Question v ε)))

namespace Ballot

variable {v : Vocabulary} {ε : Type}

/-- A voter that writes down every question put to it. -/
def recorded (place : Nat) (ballot : Ballot v ε) : Voter (Recorded v ε) v where
  covers := ballot.covers
  grants asked := fun questions =>
    (ballot.verdict asked, questions ++ [⟨place, asked, ballot.verdict asked⟩])

/-- Voters that write down what they are asked, each with its place. -/
def voters (ballots : List (Ballot v ε)) : List (Voter (Recorded v ε) v) :=
  ballots.zipIdx.map fun (ballot, place) => ballot.recorded place

end Ballot

/-- The outcome of a decision and the questions that led to it. -/
def Composition.transcript {v : Vocabulary} {ε : Type} (composition : Composition)
    (request : Mask v) (ballots : List (Ballot v ε)) :
    Except ε Bool × List (Question v ε) :=
  (composition.grants request (Ballot.voters ballots)).run.run []

end Authorization
