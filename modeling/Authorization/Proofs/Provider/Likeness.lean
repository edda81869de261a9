import Authorization.Proofs.Composition.Purity
import Authorization.Proofs.Provider.Opinion

/-!
# Providers that answer alike

What an arrangement answers depends on little of the state that providers share: on the content that
its composites see, and on what the policies of its single providers cover and grant
(`World.Alike`). Whoever sees no difference there gets the same answers, in every monad in which the
providers may be asked; so being asked leaves no trace in it (`Alike.mirrors_provider`).
-/

namespace Authorization

/-- Policies that cover and grant the same everywhere. -/
structure Policy.Alike (first second : Policy) : Prop where
  covers : first.covers = second.covers
  grantedAt : ∀ path, first.grantedAt path = second.grantedAt path
  repository : first.grantedAtRepository = second.grantedAtRepository

namespace Carrier

variable {n m : Type → Type} [Monad n] [Monad m] (carrier : Carrier n m) {ε α : Type}

theorem failing_liftM (outcome : Except ε α) :
    (carrier.failing ε).carry (liftM outcome) = liftM outcome :=
  carrier.carry_pure outcome

theorem failing_lift [LawfulMonad n] [LawfulMonad m] (value : n α) :
    (carrier.failing ε).carry (ExceptT.lift value) = ExceptT.lift (carrier.carry value) := by
  have mapped : carrier.carry (Except.ok <$> value) =
      (Except.ok <$> carrier.carry value : m (Except ε α)) := by
    rw [map_eq_pure_bind, map_eq_pure_bind, carrier.carry_bind]
    simp only [carrier.carry_pure]
  exact mapped

/-- Carrying plain values among themselves changes nothing, also where they may fail. -/
theorem failing_plain (value : ExceptT ε Id α) :
    ((plain : Carrier Id Id).failing ε).carry value = value := rfl

end Carrier

/-- A provider that answers questions as another one does, carried over. Questions about paths are
left out: they are resolved where they are asked. -/
structure Provider.Mirrors {n m : Type → Type} [Monad n] [Monad m] (carrier : Carrier n m)
    (provider : Provider m) (plain : Provider n) : Prop where
  coversPrivileges : provider.coversPrivileges = plain.coversPrivileges
  covers : provider.covers = plain.covers
  coversAt : provider.coversAt = plain.coversAt
  privileges : ∀ tree, provider.privileges tree = carrier.carry (plain.privileges tree)
  hasPrivileges : ∀ tree names, provider.hasPrivileges tree names =
    (carrier.failing AuthorizationError).carry (plain.hasPrivileges tree names)
  isGrantedRepository : ∀ asked,
    provider.isGrantedRepository asked = carrier.carry (plain.isGrantedRepository asked)
  isGranted : ∀ tree property asked,
    provider.isGranted tree property asked = carrier.carry (plain.isGranted tree property asked)
  isGrantedAt : ∀ location asked,
    provider.isGrantedAt location asked = carrier.carry (plain.isGrantedAt location asked)

/-- A provider that leaves no trace and answers alike, also about paths, is the same. -/
theorem Provider.Mirrors.eq_plain {provider plain : Provider Id}
    (mirrors : provider.Mirrors .plain plain)
    (paths : provider.isGrantedPath = plain.isGrantedPath) : provider = plain := by
  cases provider
  cases plain
  rw [Provider.mk.injEq]
  exact ⟨mirrors.coversPrivileges, mirrors.covers, mirrors.coversAt, funext mirrors.privileges,
    funext fun tree => funext (mirrors.hasPrivileges tree), funext mirrors.isGrantedRepository,
    funext fun tree => funext fun property => funext (mirrors.isGranted tree property), paths,
    funext fun location => funext (mirrors.isGrantedAt location)⟩

namespace Combination

variable {n m : Type → Type} [Monad n] [Monad m] {carrier : Carrier n m} {ι : Type}
  {parts : List ι} {provider : ι → Provider m} {plain : ι → Provider n}

omit [Monad n] [Monad m] in
theorem foldl_covers_congr {v : Vocabulary} {covers : Provider m → Mask v}
    {others : Provider n → Mask v}
    (same : ∀ part ∈ parts, covers (provider part) = others (plain part)) :
    (parts.map provider).foldl (fun covered member => covered ∪ covers member) ∅ =
      (parts.map plain).foldl (fun covered member => covered ∪ others member) ∅ := by
  apply Mask.ext
  intro i
  rw [Mask.mem_foldl_union, Mask.mem_foldl_union]
  simp only [List.mem_map, exists_exists_and_eq_and]
  exact exists_congr fun part => and_congr_right fun present => by rw [same part present]

variable (mirrors : ∀ part ∈ parts, (provider part).Mirrors carrier (plain part))
  (combination : Combination) (root : NodeState)

include mirrors

/-- Tallies run alike. -/
theorem tally_carried (tree : Option Tree) :
    combination.tally tree (parts.map provider) =
      carrier.carry (combination.tally tree (parts.map plain)) := by
  induction parts with
  | nil => exact (carrier.carry_pure _).symm
  | cons part parts ih =>
      obtain ⟨here, later⟩ := List.forall_mem_cons.mp mirrors
      simp only [List.map_cons, tally, here.coversPrivileges]
      split
      · exact ih later
      · simp only [here.privileges, ih later, carrier.carry_bind, carrier.carry_pure]

theorem grantsAt_carried (location : Location) (asked : Permissions) :
    combination.grantsAt (parts.map provider) location asked =
      carrier.carry (combination.grantsAt (parts.map plain) location asked) := by
  simp only [grantsAt, List.map_map]
  refine Composition.grants_carried (fun part present => ?_) combination.composition
  have same := mirrors part present
  exact ⟨congrFun same.coversAt location, fun asked _ _ => same.isGrantedAt location asked⟩

/-- A composite of providers that answer alike answers alike. -/
theorem mirrors_provider :
    (combination.provider root (parts.map provider)).Mirrors carrier
      (combination.provider root (parts.map plain)) where
  coversPrivileges := by
    funext tree asked
    exact foldl_covers_congr fun part present => by
      rw [(mirrors part present).coversPrivileges]
  covers := by
    funext tree property asked
    exact foldl_covers_congr fun part present => by rw [(mirrors part present).covers]
  coversAt := by
    funext location asked
    exact foldl_covers_congr fun part present => by rw [(mirrors part present).coversAt]
  privileges tree := by
    simp only [Combination.provider, tally_carried mirrors, carrier.carry_bind,
      carrier.carry_pure]
  hasPrivileges tree names := by
    simp only [Combination.provider, Carrier.carry_bind, Carrier.failing_liftM]
    refine congrArg _ (funext fun requested => ?_)
    split
    · exact ((carrier.failing AuthorizationError).carry_pure true).symm
    · simp only [List.map_map]
      refine Composition.grants_carried (fun part present => ?_) combination.composition
      have same := mirrors part present
      refine ⟨funext fun asked => ?_, fun asked _ _ => same.hasPrivileges tree _⟩
      exact congrFun (congrFun same.coversPrivileges tree) (some asked)
  isGrantedRepository asked := by
    simp only [Combination.provider, List.map_map]
    refine Composition.grants_carried (fun part present => ?_) combination.composition
    have same := mirrors part present
    exact ⟨congrFun (congrFun same.covers none) none,
      fun asked _ _ => same.isGrantedRepository asked⟩
  isGranted tree property asked := by
    simp only [Combination.provider, List.map_map]
    refine Composition.grants_carried (fun part present => ?_) combination.composition
    have same := mirrors part present
    exact ⟨congrFun (congrFun same.covers _) property,
      fun asked _ _ => same.isGranted _ property asked⟩
  isGrantedAt := grantsAt_carried mirrors combination

/-- It also answers alike about paths, which it resolves in the same content. -/
theorem isGrantedPath_carried [LawfulMonad n] [LawfulMonad m] (text actions : String) :
    (combination.provider root (parts.map provider)).isGrantedPath text actions =
      (carrier.failing AuthorizationError).carry
        ((combination.provider root (parts.map plain)).isGrantedPath text actions) := by
  simp only [Combination.provider, Carrier.carry_bind, Carrier.failing_liftM, Carrier.failing_lift,
    grantsAt_carried mirrors]

end Combination

namespace PolicyState

variable {first second : PolicyState} (alike : first.policy.Alike second.policy)

include alike

theorem granted_congr : first.granted = second.granted := by
  funext tree
  cases tree with
  | none => exact alike.repository
  | some tree => rw [granted, granted, alike.grantedAt]

theorem grantsAt_congr : first.grantsAt = second.grantsAt := by
  funext location asked
  rw [grantsAt, grantsAt, alike.grantedAt]

end PolicyState

section Leaf

variable {n m : Type → Type} [Monad n] [Monad m] (carrier : Carrier n m) {L M D E : Type}
  (leaf : PolicyLeaf) {first second : PolicyState} (alike : first.policy.Alike second.policy)
  (kind : PolicyDecision → D) (other : PolicyDecision → E)

include alike

/-- A policy provider answers by what its policy covers and grants, whatever it kept before. -/
theorem PolicyLeaf.mirrors :
    (leaf.provider first kind : LeafProvider m L D).toProvider.Mirrors carrier
      (leaf.provider second other : LeafProvider n M E).toProvider := by
  have granted := PolicyState.granted_congr alike
  constructor
  · simp only [provider, alike.covers]
  · simp only [provider, alike.covers]
  · simp only [provider, alike.covers]
  · intro tree
    simp only [provider, granted, carrier.carry_pure]
  · intro tree names
    simp only [provider, granted, Carrier.carry_bind, Carrier.carry_pure, Carrier.failing_liftM]
  · intro asked
    simp only [provider, alike.repository, carrier.carry_pure]
  · intro tree property asked
    simp only [provider, granted, carrier.carry_pure]
  · intro location asked
    simp only [provider, PolicyState.grantsAt_congr alike, carrier.carry_pure]

end Leaf

namespace World

/-- Worlds in which an arrangement sees no difference: its composites see the same content, and the
policies of its single providers are alike. -/
structure Alike (first second : World) (arrangement : Arrangement PolicyLeaf) : Prop where
  roots : ∀ combination ∈ arrangement.combinations,
    first.roots combination.id = second.roots combination.id
  policies : ∀ leaf ∈ arrangement.leaves, (first.policy leaf).Alike (second.policy leaf)

variable {m : Type → Type} [Monad m] {first second : World}

theorem Alike.member {combination : Combination} {members : List (Arrangement PolicyLeaf)}
    (alike : first.Alike second (.composite combination members)) {member : Arrangement PolicyLeaf}
    (present : member ∈ members) : first.Alike second member where
  roots := (Arrangement.forall_combinations.mp alike.roots).2 member present
  policies leaf inside :=
    alike.policies leaf (Arrangement.mem_leavesOfAll.mpr ⟨member, present, inside⟩)

/-- An arrangement that sees no difference answers alike. -/
theorem Alike.mirrors_provider [LawfulMonad m] {arrangement : Arrangement PolicyLeaf}
    (alike : first.Alike second arrangement) :
    (arrangement.provider (first.snapshot : Snapshot m PolicyLeaf PolicyDecision)).Mirrors .plain
      (arrangement.provider second.seen) := by
  induction arrangement with
  | empty => constructor <;> intros <;> rfl
  | leaf provider =>
      exact provider.mirrors .plain (alike.policies provider (List.mem_singleton_self _)) id id
  | composite combination members ih =>
      have root : (first.snapshot : Snapshot m PolicyLeaf PolicyDecision).root combination.id =
          second.seen.root combination.id := alike.roots combination List.mem_cons_self
      rw [Arrangement.provider, Arrangement.provider, Arrangement.providers_eq_map,
        Arrangement.providers_eq_map, root]
      exact combination.mirrors_provider
        (fun member present => ih member present (alike.member present)) _

/-- A composite answers alike about paths too. -/
theorem Alike.isGrantedPath_composite [LawfulMonad m] {combination : Combination}
    {members : List (Arrangement PolicyLeaf)}
    (alike : first.Alike second (.composite combination members)) (text actions : String) :
    (((Arrangement.composite combination members).provider
        (first.snapshot : Snapshot m PolicyLeaf PolicyDecision)).isGrantedPath text actions) =
      (Carrier.plain.failing AuthorizationError).carry
        (((Arrangement.composite combination members).provider second.seen).isGrantedPath
          text actions) := by
  have root : (first.snapshot : Snapshot m PolicyLeaf PolicyDecision).root combination.id =
      second.seen.root combination.id := alike.roots combination List.mem_cons_self
  rw [Arrangement.provider, Arrangement.provider, Arrangement.providers_eq_map,
    Arrangement.providers_eq_map, root]
  exact combination.isGrantedPath_carried
    (fun member present => (alike.member present).mirrors_provider) _ text actions

/-- Providers that see no difference, and resolve paths in the same content, are the same. -/
theorem Alike.provider_eq {arrangement : Arrangement PolicyLeaf}
    (alike : first.Alike second arrangement)
    (content : ∀ leaf ∈ arrangement.leaves,
      (first.policies leaf.id).root = (second.policies leaf.id).root) :
    arrangement.provider first.seen = arrangement.provider second.seen := by
  refine alike.mirrors_provider.eq_plain (funext fun text => funext fun actions => ?_)
  cases arrangement with
  | empty => rfl
  | leaf provider =>
      have here := List.mem_singleton_self provider
      change ((provider.provider (first.policies provider.id) id : LeafProvider Id PolicyLeaf
          PolicyDecision).isGrantedPath text actions) =
        (provider.provider (second.policies provider.id) id : LeafProvider Id PolicyLeaf
          PolicyDecision).isGrantedPath text actions
      simp only [PolicyLeaf.provider, content provider here,
        PolicyState.grantsAt_congr (alike.policies provider here)]
  | composite combination members =>
      exact (alike.isGrantedPath_composite text actions).trans (Carrier.failing_plain _)

/-- A decision at repository level answers as the provider that it was asked of. -/
theorem isGranted_repository [LawfulMonad m] (world : World) (arrangement : Arrangement PolicyLeaf)
    (asked : Permissions) :
    (arrangement.repository (world.snapshot : Snapshot m PolicyLeaf PolicyDecision) >>=
        fun permission => permission.isGranted
          (world.snapshot : Snapshot m PolicyLeaf PolicyDecision) asked) =
      (arrangement.provider world.snapshot).isGrantedRepository asked := by
  cases arrangement with
  | empty =>
      rw [Arrangement.repository, pure_bind]
      rfl
  | leaf provider =>
      simp only [Arrangement.repository, Arrangement.provider, snapshot, PolicyLeaf.provider,
        pure_bind, RepositoryPermission.isGranted]
  | composite combination members =>
      rw [Arrangement.repository, pure_bind, Arrangement.provider, Arrangement.providers_eq_map,
        Combination.provider, List.map_map]
      rfl

end World

end Authorization
