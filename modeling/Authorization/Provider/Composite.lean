import Authorization.Provider.Basic

/-!
# Composite providers

A composite translates a question to bits once and puts it to its members, each for the part that
it covers. `Arrangement.provider` interprets a whole arrangement by doing so at every level.
-/

namespace Authorization

namespace Combination

variable {m : Type → Type} [Monad m]

/-- The privileges that the members report as granted and, under `and`, those that they withhold:
what a member covers and does not report. A report with an unknown name counts as empty. -/
def tally (combination : Combination) (tree : Option Tree) :
    List (Provider m) → m (PrivilegeBits × PrivilegeBits)
  | [] => pure (∅, ∅)
  | member :: members =>
    let supported := member.coversPrivileges tree none
    if supported.isEmpty then tally combination tree members
    else do
      let names ← member.privileges tree
      let reported := match combination.catalogue.bits names with
        | .ok bits => bits ∩ supported
        | .error _ => ∅
      let withheld := match combination.composition with
        | .and => supported.withoutDeclared reported
        | .or => ∅
      let (granted, denied) ← tally combination tree members
      pure (reported ∪ granted, withheld ∪ denied)

/-- Whether members grant a request at a location. -/
def grantsAt (combination : Combination) (members : List (Provider m)) (location : Location)
    (asked : Permissions) : m Bool :=
  combination.composition.grants asked <| members.map fun member =>
    { covers := member.coversAt location, grants := member.isGrantedAt location }

/-- The answers of a composite over its members, seeing the content below a root. -/
def provider (combination : Combination) (root : NodeState) (members : List (Provider m)) :
    Provider m where
  coversPrivileges tree asked :=
    members.foldl (fun covered member => covered ∪ member.coversPrivileges tree asked) ∅
  covers tree property asked :=
    members.foldl (fun covered member => covered ∪ member.covers tree property asked) ∅
  coversAt location asked :=
    members.foldl (fun covered member => covered ∪ member.coversAt location asked) ∅
  privileges tree := do
    let (granted, denied) ← combination.tally tree members
    pure (combination.catalogue.names (granted.withoutDeclared denied))
  hasPrivileges tree names := do
    let requested ← combination.catalogue.bits names
    if requested.isEmpty then pure true
    else combination.composition.grants requested <| members.map fun member =>
      { covers := fun asked => member.coversPrivileges tree (some asked)
        grants := fun asked => member.hasPrivileges tree (combination.catalogue.names asked) }
  isGrantedRepository asked :=
    combination.composition.grants asked <| members.map fun member =>
      { covers := member.covers none none, grants := member.isGrantedRepository }
  isGranted tree property asked :=
    let tree := (Tree.root root).descendant tree.path
    combination.composition.grants asked <| members.map fun member =>
      { covers := member.covers (some tree) property, grants := member.isGranted tree property }
  isGrantedPath path actions := do
    let location := Location.resolve (.root root) path
    let asked ← Permissions.ofActions actions location
      (combination.context.definesLocation location)
    ExceptT.lift (combination.grantsAt members location asked)
  isGrantedAt location asked := combination.grantsAt members location asked

end Combination

namespace Arrangement

variable {m : Type → Type} [Monad m] {L D : Type}

mutual

/-- The answers of an arrangement at one moment. -/
def provider (snapshot : Snapshot m L D) : Arrangement L → Provider m
  | empty => .empty
  | leaf single => (snapshot.leaf single).toProvider
  | composite combination members =>
    combination.provider (snapshot.root combination.id) (providers snapshot members)

def providers (snapshot : Snapshot m L D) : List (Arrangement L) → List (Provider m)
  | [] => []
  | member :: members => provider snapshot member :: providers snapshot members

end

/-- Decides about the repository. A composite's decision refers to its members. -/
def repository (snapshot : Snapshot m L D) : Arrangement L → m (RepositoryPermission L)
  | empty => pure .empty
  | leaf single => (snapshot.leaf single).repository
  | composite combination members => pure (.combined combination.composition members)

theorem providers_eq_map (snapshot : Snapshot m L D) (members : List (Arrangement L)) :
    providers snapshot members = members.map (provider snapshot) := by
  induction members with
  | nil => rfl
  | cons member members ih => simp [providers, ih]

end Arrangement

namespace RepositoryPermission

variable {m : Type → Type} [Monad m] {L D : Type}

/-- Whether a decision grants permissions at repository level. A combined decision asks all of its
providers anew. -/
def isGranted (snapshot : Snapshot m L D) :
    RepositoryPermission L → Permissions → m Bool
  | all, _ => pure true
  | empty, _ => pure false
  | granting granted, asked => pure (!asked.isEmpty && asked ⊆ granted)
  | combined composition members, asked =>
    composition.grants asked <| members.map fun member =>
      { covers := (member.provider snapshot).covers none none
        grants := (member.provider snapshot).isGrantedRepository }

/-- Whether a decision is combined from several. -/
def isCombined : RepositoryPermission L → Bool
  | combined _ _ => true
  | _ => false

end RepositoryPermission

end Authorization
