import Authorization.Composition
import Authorization.Content.TreeType
import Authorization.Privileges

/-!
# Arrangements of providers

Policy modules are combined into composites, and composites into larger ones. An arrangement says
how, over any kind of single providers. Composites are numbered: each holds a content snapshot of
its own under its number.
-/

namespace Authorization

/-- What a composite does besides asking its members. -/
structure Combination where
  /-- The number of the composite, under which its content snapshot is kept. -/
  id : Nat
  composition : Composition
  /-- Which items are access control content, for action strings. -/
  context : Context
  /-- How tree types are found while decisions are derived from parent to child. -/
  classify : Classifier
  catalogue : PrivilegeCatalogue

namespace Combination

def name (combination : Combination) : String :=
  match combination.composition with
  | .and => "composite-and"
  | .or => "composite-or"

end Combination

/-- A provider built from single providers: none at all, one, or several combined. -/
inductive Arrangement (L : Type) where
  | empty
  | leaf (provider : L)
  | composite (combination : Combination) (members : List (Arrangement L))

namespace Arrangement

variable {L : Type}

/-- A property of all arrangements follows if composites inherit it from their members. -/
@[elab_as_elim, induction_eliminator]
theorem induction {motive : Arrangement L → Prop} (empty : motive empty)
    (leaf : ∀ provider, motive (leaf provider))
    (composite : ∀ combination members, (∀ member ∈ members, motive member) →
      motive (composite combination members)) (arrangement : Arrangement L) :
    motive arrangement :=
  match arrangement with
  | .empty => empty
  | .leaf provider => leaf provider
  | .composite combination members =>
    composite combination members fun member _ => induction empty leaf composite member

mutual

/-- The single providers, from left to right. -/
def leaves : Arrangement L → List L
  | empty => []
  | leaf provider => [provider]
  | composite _ members => leavesOfAll members

/-- The single providers of several arrangements, from left to right. -/
def leavesOfAll : List (Arrangement L) → List L
  | [] => []
  | member :: members => leaves member ++ leavesOfAll members

end

mutual

/-- How the composites combine, from the outermost inwards. -/
def combinations : Arrangement L → List Combination
  | empty => []
  | leaf _ => []
  | composite combination members => combination :: combinationsOfAll members

/-- How the composites of several arrangements combine. -/
def combinationsOfAll : List (Arrangement L) → List Combination
  | [] => []
  | member :: members => combinations member ++ combinationsOfAll members

end

theorem mem_leavesOfAll {members : List (Arrangement L)} {provider : L} :
    provider ∈ leavesOfAll members ↔ ∃ member ∈ members, provider ∈ member.leaves := by
  induction members with
  | nil => simp [leavesOfAll]
  | cons member members ih => simp [leavesOfAll, ih]

theorem mem_combinationsOfAll {members : List (Arrangement L)} {combination : Combination} :
    combination ∈ combinationsOfAll members ↔
      ∃ member ∈ members, combination ∈ member.combinations := by
  induction members with
  | nil => simp [combinationsOfAll]
  | cons member members ih => simp [combinationsOfAll, ih]

/-- The provider for a list of members: the empty provider for none, a lone member itself, and a
composite of two or more. -/
def collapse (combination : Combination) : List (Arrangement L) → Arrangement L
  | [] => empty
  | [member] => member
  | members => composite combination members

def name (leafName : L → String) : Arrangement L → String
  | empty => "empty"
  | leaf provider => leafName provider
  | composite combination _ => combination.name

end Arrangement

end Authorization
