import Authorization.Restriction.Kinds

/-!
# Arrangements of restriction providers

Restriction providers are combined into composites. An item names provider is told about the first
composite that it becomes a direct member of; the enclosures record this, and composites that are
gone no longer count.
-/

namespace Authorization

/-- A single provider of restrictions. -/
inductive RestrictionLeaf where
  | glob
  | itemNames (id : Nat)
  /-- A provider with definitions of its own and the same pattern for every entry. It may reject
  all entries. -/
  | declaring (name : String) (catalogue : RestrictionCatalogue) (pattern : RestrictionPattern)
    (rejection : Option String)
  /-- A provider of any other kind, which takes no interest in the composites around it. -/
  | other (service : RestrictionService)

/-- A provider of restrictions built from single providers: none at all, one, or a numbered
composite of several. -/
inductive RestrictionArrangement (L : Type) where
  | empty
  | leaf (single : L)
  | composite (id : Nat) (members : List (RestrictionArrangement L))

/-- A provider built from the kinds of single providers that there are. -/
abbrev RestrictionProvider := RestrictionArrangement RestrictionLeaf

/-- What the composite around each item names provider declares, if there is one. -/
abbrev Enclosing := Nat → Option (Option String → OrderedSet RestrictionDefinition)

namespace RestrictionLeaf

/-- The service of a provider that may reject all entries before its catalogue looks at them. -/
def declaringService (name : String) (catalogue : RestrictionCatalogue)
    (pattern : RestrictionPattern) (rejection : Option String) : RestrictionService :=
  { RestrictionService.ofCatalogue name catalogue (fun _ _ => .ok ()) "" fun _ _ => pattern with
    validate := fun path store =>
      match rejection with
      | some reason => .error (.other reason)
      | none => catalogue.validate path store }

/-- The service of a single provider. -/
def service (enclosing : Enclosing) : RestrictionLeaf → RestrictionService
  | glob => GlobRestriction.service
  | itemNames id => ItemNamesRestriction.service (enclosing id)
  | declaring name catalogue pattern rejection =>
    declaringService name catalogue pattern rejection
  | other service => service

end RestrictionLeaf

namespace RestrictionArrangement

variable {L : Type}

/-- A property of all arrangements follows if composites inherit it from their members. -/
@[elab_as_elim, induction_eliminator]
theorem induction {motive : RestrictionArrangement L → Prop} (empty : motive empty)
    (leaf : ∀ single, motive (leaf single))
    (composite : ∀ id members, (∀ member ∈ members, motive member) →
      motive (composite id members)) (arrangement : RestrictionArrangement L) :
    motive arrangement :=
  match arrangement with
  | .empty => empty
  | .leaf single => leaf single
  | .composite id members =>
    composite id members fun member _ => induction empty leaf composite member

mutual

/-- The service of an arrangement, given those of the single providers. -/
def service (answer : L → RestrictionService) : RestrictionArrangement L → RestrictionService
  | empty => .empty
  | leaf single => answer single
  | composite _ members => .composite (services answer members)

def services (answer : L → RestrictionService) :
    List (RestrictionArrangement L) → List RestrictionService
  | [] => []
  | member :: members => service answer member :: services answer members

end

theorem services_eq_map (answer : L → RestrictionService)
    (members : List (RestrictionArrangement L)) :
    services answer members = members.map (service answer) := by
  induction members with
  | nil => rfl
  | cons member members ih => simp [services, ih]

mutual

/-- The single providers, from left to right. -/
def leaves : RestrictionArrangement L → List L
  | empty => []
  | leaf single => [single]
  | composite _ members => leavesOfAll members

/-- The single providers of several arrangements, from left to right. -/
def leavesOfAll : List (RestrictionArrangement L) → List L
  | [] => []
  | member :: members => leaves member ++ leavesOfAll members

end

theorem leavesOfAll_eq_flatMap (members : List (RestrictionArrangement L)) :
    leavesOfAll members = members.flatMap leaves := by
  induction members with
  | nil => rfl
  | cons member members ih => rw [leavesOfAll, ih, List.flatMap_cons]

/-- What an arrangement declares, whatever is around its item names providers. -/
def supported (arrangement : RestrictionProvider) :
    Option String → OrderedSet RestrictionDefinition :=
  (arrangement.service (RestrictionLeaf.service fun _ => none)).supported

def id? : RestrictionArrangement L → Option Nat
  | composite id _ => some id
  | _ => none

/-- The provider for a list of members: the empty provider for none, a lone member itself, and a
composite of two or more. -/
def collapse (id : Nat) : List (RestrictionArrangement L) → RestrictionArrangement L
  | [] => empty
  | [member] => member
  | members => composite id members

end RestrictionArrangement

/-- A composite that an item names provider is a direct member of. -/
structure Enclosure where
  composite : Nat
  supported : Option String → OrderedSet RestrictionDefinition

/-- The first enclosure of each item names provider that has one, and the composites that are
gone. -/
structure Enclosures where
  /-- The first enclosure of each provider. -/
  first : Nat → Option Enclosure := fun _ => none
  /-- The numbers of the composites that are gone. -/
  gone : List Nat := []

namespace Enclosures

/-- What the composite around each item names provider declares, as long as it is there. -/
def enclosing (enclosures : Enclosures) : Enclosing := fun id =>
  ((enclosures.first id).filter fun enclosure =>
    !enclosures.gone.contains enclosure.composite).map Enclosure.supported

/-- Tells an item names provider about a composite, unless it has been told about one. -/
def tell (enclosures : Enclosures) (enclosure : Enclosure) (member : RestrictionProvider) :
    Enclosures :=
  match member with
  | .leaf (.itemNames id) =>
    match enclosures.first id with
    | some _ => enclosures
    | none =>
      { enclosures with
        first := fun other => if other = id then some enclosure else enclosures.first other }
  | _ => enclosures

/-- Tells the direct members of a composite about it. -/
def enclose (enclosures : Enclosures) (arrangement : RestrictionProvider) : Enclosures :=
  match arrangement with
  | .composite id members =>
    members.foldl (fun told member => told.tell ⟨id, arrangement.supported⟩ member) enclosures
  | _ => enclosures

/-- Records that a composite is gone. -/
def leave (enclosures : Enclosures) (composite : Nat) : Enclosures :=
  { enclosures with gone := composite :: enclosures.gone }

end Enclosures

end Authorization
