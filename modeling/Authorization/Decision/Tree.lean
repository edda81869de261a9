import Authorization.Decision.Node
import Authorization.Provider.Arrangement

/-!
# Decisions about trees

A decision about a place in the content comes from a single provider, or combines one decision of
each member of a composite. A combined decision keeps what is needed to derive decisions about
children: the place, its type, and for every member its own decision. Its read flags may be
remembered once they have been asked for.
-/

namespace Authorization

/-- The read flags that a combined decision remembers. -/
structure ReadMemo where
  read : Option Bool := none
  readAll : Option Bool := none
  readProperties : Option Bool := none
  deriving DecidableEq

/-- What a combined decision is about, and how its parts are combined. -/
structure Site where
  tree : Tree
  type : TreeType
  classify : Classifier
  composition : Composition
  /-- The read flags remembered so far. -/
  memo : ReadMemo := {}

/-- A decision about a tree: of a single provider, or combined from the decisions of several
providers in their order. -/
inductive TreePermission (L D : Type) where
  | node (permission : NodePermission D)
  | combined (site : Site) (parts : List (Arrangement L × TreePermission L D))

namespace TreePermission

variable {L D : Type}

/-- A property of all decisions follows if combined decisions inherit it from their parts. -/
@[elab_as_elim, induction_eliminator]
theorem induction {motive : TreePermission L D → Prop}
    (node : ∀ permission, motive (node permission))
    (combined : ∀ site parts, (∀ part ∈ parts, motive part.2) → motive (combined site parts))
    (permission : TreePermission L D) : motive permission :=
  match permission with
  | .node permission => node permission
  | .combined site parts =>
    combined site parts fun part _present => induction node combined part.2
termination_by permission
decreasing_by
  have smaller := List.sizeOf_lt_of_mem _present
  obtain ⟨arrangement, inner⟩ := part
  simp only [Prod.mk.sizeOf_spec, TreePermission.combined.sizeOf_spec] at smaller ⊢
  omega

/-- Everything is granted here and below. -/
def all : TreePermission L D := node .all

/-- Nothing is granted here and below. -/
def empty : TreePermission L D := node .empty

/-- The provider will never grant anything here and below. -/
def noRecourse : TreePermission L D := node .noRecourse

/-- Whether a decision combines those of several members. -/
def isCombined : TreePermission L D → Bool
  | node _ => false
  | combined _ _ => true

/-- Whether everything below receives the same decision. -/
def isTerminal : TreePermission L D → Bool
  | node permission => permission.isTerminal
  | combined _ _ => false

/-- Whether a provider is out of the question here and below. -/
def isNoRecourse : TreePermission L D → Bool
  | node .noRecourse => true
  | _ => false

/-- Whether a decision is a single one that grants nothing at a node and below. -/
def grantsNothing : TreePermission L D → Bool
  | node permission => permission.grantsNothing
  | combined _ _ => false

end TreePermission

end Authorization
