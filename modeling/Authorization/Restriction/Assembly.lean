import Authorization.Restriction.Arrangement

/-!
# Assembling restriction providers

A blueprint says how restriction providers are to be combined. Assembling it gives every provider
its number, keeps the providers that composites list so that they can be asked on their own or used
again, and tells item names providers about the composites around them.
-/

namespace Authorization

/-- A plan of restriction providers. -/
inductive RestrictionBlueprint where
  | empty
  | glob
  | itemNames
  | standard
  | declaring (name : String) (catalogue : RestrictionCatalogue) (pattern : RestrictionPattern)
    (rejection : Option String)
  | other (service : RestrictionService)
  | composite (members : List RestrictionBlueprint)
  /-- A provider that was assembled before, by its place among the parts. -/
  | part (place : Nat)

/-- What has been assembled so far. -/
structure RestrictionAssembly where
  next : Nat := 0
  enclosures : Enclosures := {}
  /-- The providers that composites list, in the order in which they were finished. -/
  parts : List RestrictionProvider := []

namespace RestrictionAssembly

/-- A number that no provider has. -/
def fresh : StateM RestrictionAssembly Nat := do
  let assembly ← get
  set { assembly with next := assembly.next + 1 }
  pure assembly.next

/-- Combines members and tells them about it. -/
def combine (members : List RestrictionProvider) :
    StateM RestrictionAssembly RestrictionProvider := do
  let arrangement := RestrictionArrangement.collapse (← fresh) members
  modify fun assembly =>
    { assembly with enclosures := assembly.enclosures.enclose arrangement }
  pure arrangement

/-- Keeps a provider as a part. -/
def keep (arrangement : RestrictionProvider) : StateM RestrictionAssembly Unit :=
  modify fun assembly => { assembly with parts := assembly.parts ++ [arrangement] }

end RestrictionAssembly

namespace RestrictionBlueprint

open RestrictionAssembly

/-- A property of all plans follows if composites inherit it from their members. -/
@[elab_as_elim, induction_eliminator]
theorem induction {motive : RestrictionBlueprint → Prop} (empty : motive empty)
    (glob : motive glob) (itemNames : motive itemNames) (standard : motive standard)
    (declaring : ∀ name catalogue pattern rejection,
      motive (declaring name catalogue pattern rejection))
    (other : ∀ service, motive (other service))
    (composite : ∀ members, (∀ member ∈ members, motive member) → motive (composite members))
    (part : ∀ place, motive (part place)) (blueprint : RestrictionBlueprint) : motive blueprint :=
  match blueprint with
  | .empty => empty
  | .glob => glob
  | .itemNames => itemNames
  | .standard => standard
  | .declaring name catalogue pattern rejection => declaring name catalogue pattern rejection
  | .other service => other service
  | .composite members => composite members fun member _ =>
    induction empty glob itemNames standard declaring other composite part member
  | .part place => part place

mutual

/-- Builds a provider, in which every item names provider is told about the composite around it. -/
def assemble : RestrictionBlueprint → StateM RestrictionAssembly RestrictionProvider
  | empty => pure .empty
  | glob => pure (.leaf .glob)
  | itemNames => do pure (.leaf (.itemNames (← fresh)))
  | standard => do combine [.leaf .glob, .leaf (.itemNames (← fresh))]
  | declaring name catalogue pattern rejection =>
    pure (.leaf (.declaring name catalogue pattern rejection))
  | other service => pure (.leaf (.other service))
  | composite members => do combine (← assembleMembers members)
  | part place => do pure (((← get).parts[place]?).getD .empty)

/-- Assembles the members of a composite, each of which is kept as a part. -/
def assembleMembers :
    List RestrictionBlueprint → StateM RestrictionAssembly (List RestrictionProvider)
  | [] => pure []
  | member :: members => do
    let arrangement ← assemble member
    keep arrangement
    let others ← assembleMembers members
    pure (arrangement :: others)

end

end RestrictionBlueprint

namespace RestrictionService

/-- The standard provider: glob and item name restrictions. -/
def standard : RestrictionService :=
  let (arrangement, assembly) := RestrictionBlueprint.standard.assemble.run {}
  arrangement.service (RestrictionLeaf.service assembly.enclosures.enclosing)

end RestrictionService

end Authorization
