import Authorization.Mask.Basic

/-!
# Combining verdicts

Several voters decide together about a request. Each is asked only about its share, the part of the
request that it covers, and what nobody covers is never granted. Under `and` every voter with a
share must grant it; under `or` every bit must be granted by a voter that covers it. An empty
request is never granted.

Voters answer in any monad, so the same definition serves pure verdicts, verdicts that may fail and
verdicts whose questions are recorded.
-/

namespace Authorization

/-- How the verdicts of several voters are combined. -/
inductive Composition where
  /-- Granted if no voter denies its share and the shares make up the request. -/
  | and
  /-- Granted if every bit is granted by a voter that covers it. -/
  | or
  deriving DecidableEq

/-- One of several parties to a decision. -/
structure Voter (m : Type → Type) (v : Vocabulary) where
  /-- The part of a request that the voter has an opinion on. -/
  covers : Mask v → Mask v
  /-- Whether the voter grants the whole of what it is asked about. -/
  grants : Mask v → m Bool

/-- The part of a request that a voter is asked about. -/
def Voter.share {m : Type → Type} {v : Vocabulary} (voter : Voter m v) (request : Mask v) :
    Mask v :=
  voter.covers request ∩ request

namespace Composition

/-- All ways to combine verdicts. -/
def all : List Composition := [.and, .or]

def word : Composition → String
  | .and => "and"
  | .or => "or"

/-- The capitalised word for a composition. -/
def title : Composition → String
  | .and => "And"
  | .or => "Or"

/-- The composition that a lower-case word names. -/
def ofWord? (text : String) : Option Composition :=
  all.find? fun composition => composition.word == text

theorem ofWord?_word (composition : Composition) :
    ofWord? composition.word = some composition := by
  cases composition <;> decide

variable {m : Type → Type} [Monad m] {v : Vocabulary}

/-- Asks the voters in order for their shares and stops at the first denial. At the end the shares
met so far must be the whole request. -/
def unanimous (request : Mask v) : List (Voter m v) → Mask v → m Bool
  | [], covered => pure (covered == request)
  | voter :: voters, covered =>
    if (voter.share request).isEmpty then unanimous request voters covered
    else do
      if ← voter.grants (voter.share request) then
        unanimous request voters (covered ∪ voter.share request)
      else pure false

/-- The parts that are granted, each asked about on its own and in order. -/
def grantedParts (grants : Mask v → m Bool) : List (Mask v) → m (Mask v)
  | [] => pure ∅
  | part :: parts => do
    let granted ← grants part
    let others ← grantedParts grants parts
    pure (if granted then part ∪ others else others)

/-- What is granted of the missing bits: all if they are granted together, else those bits that
are granted on their own. -/
def award (grants : Mask v → m Bool) (missing : Mask v) : m (Mask v) := do
  if ← grants missing then pure missing
  else if 1 < missing.singles.length then grantedParts grants missing.singles
  else pure ∅

/-- Asks the voters in order for what is still missing of their shares, and stops when the whole
request is granted. -/
def collective (request : Mask v) : List (Voter m v) → Mask v → m Bool
  | [], granted => pure (granted == request)
  | voter :: voters, granted =>
    let missing := voter.share request \ granted
    if missing.isEmpty then collective request voters granted
    else do
      let awarded ← award voter.grants missing
      if granted ∪ awarded = request then pure true
      else collective request voters (granted ∪ awarded)

/-- Whether voters grant a request. Nothing is granted when nothing is requested. -/
def grants (composition : Composition) (request : Mask v) (voters : List (Voter m v)) : m Bool :=
  if request.isEmpty then pure false
  else match composition with
    | .and => unanimous request voters ∅
    | .or => collective request voters ∅

end Composition

end Authorization
