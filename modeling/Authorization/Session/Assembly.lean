import Authorization.Session.Basic

/-!
# Assembling providers

A blueprint says which providers are made and how they are combined. Assembling it numbers the
providers in the order in which they are finished; each sees the content published at that time.
-/

namespace Authorization

/-- How a composite is made. -/
structure CompositePlan where
  composition : Composition
  context : Context
  catalogue : PrivilegeCatalogue := .builtin
  /-- Whether there is no composite for fewer than two members. -/
  collapses : Bool := false

/-- A plan of providers. -/
inductive Blueprint where
  | empty
  | policy (name : String) (context : Context) (policy : Policy)
  | uniform (leaf : UniformLeaf)
  | composite (plan : CompositePlan) (members : List Blueprint)
  /-- The provider of a configuration, given as text, whose content is published first. -/
  | configured (text : String)

/-- What has been assembled so far. -/
structure Assembly where
  next : Nat := 0
  world : World
  leaves : Dictionary SessionLeaf := []

/-- Steps of assembling, which may fail. -/
abbrev AssemblyStep := StateT Assembly (Except AuthorizationError)

namespace AssemblyStep

/-- A number that no provider has. -/
def fresh : AssemblyStep Nat := do
  let assembly ← get
  set { assembly with next := assembly.next + 1 }
  pure assembly.next

/-- Changes the state of the providers. -/
def update (change : World → World) : AssemblyStep Unit :=
  modify fun assembly => { assembly with world := change assembly.world }

/-- A provider of a single leaf, which callers find by its name. -/
def leaf (single : SessionLeaf) : AssemblyStep SessionProvider := do
  modify fun assembly => { assembly with leaves := assembly.leaves.insert single.name single }
  pure (.leaf single)

/-- A provider with a policy. -/
def policy (name : String) (context : Context) (policy : Policy) :
    AssemblyStep SessionProvider := do
  let id ← fresh
  update fun world => world.install id policy
  leaf (.policy { id, name, context })

/-- A composite of members, or what stands for it if there are fewer than two. -/
def composite (plan : CompositePlan) (members : List SessionProvider) :
    AssemblyStep SessionProvider := do
  let id ← fresh
  update fun world => world.republish id
  let combination : Combination :=
    { id, composition := plan.composition, context := plan.context
      classify := plan.context.classify, catalogue := plan.catalogue }
  pure (if plan.collapses then .collapse combination members else .composite combination members)

/-- The provider that a configuration describes. The content that it lists is published. -/
def configured (text : String) : AssemblyStep SessionProvider := do
  let config ← (Configuration.parse text : Except AuthorizationError Configuration)
  update fun world => world.publish config.contentRoot
  let members ← config.modules.mapM fun module => policy module.name .plain module.policy
  composite { composition := config.composition, context := .plain, collapses := true } members

end AssemblyStep

namespace Blueprint

mutual

/-- Builds the provider of a blueprint. -/
def assemble : Blueprint → AssemblyStep SessionProvider
  | empty => pure .empty
  | policy name context rules => AssemblyStep.policy name context rules
  | uniform leaf => do
    let id ← AssemblyStep.fresh
    AssemblyStep.leaf (.uniform { leaf with id })
  | composite plan members => do AssemblyStep.composite plan (← assembleMembers members)
  | configured text => AssemblyStep.configured text

/-- Assembles the members of a composite. -/
def assembleMembers : List Blueprint → AssemblyStep (List SessionProvider)
  | [] => pure []
  | member :: members => do
    let provider ← assemble member
    let others ← assembleMembers members
    pure (provider :: others)

end

end Blueprint

end Authorization
