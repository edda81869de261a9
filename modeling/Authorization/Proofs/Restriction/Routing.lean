import Authorization.Proofs.Restriction.Catalogue
import Authorization.Restriction.Arrangement

/-!
# Where restrictions are sent

A composite sends a restriction on to its first member that declares the name. However composites
are nested, the restriction ends at the first single provider, from left to right, that declares
the name (`routes_iff_find?_leaves`), and the arrangement makes and stores what that provider makes
and stores (`create_of_routes`, `createMulti_of_routes`, `write_of_routes`). So providers to the
right of an arrangement never change where its restrictions go, and those to the left do as soon as
one declares the name in another way (`RoutesAs.around`).
-/

namespace Authorization

theorem findSome?_eq_some_iff_find? {α β : Type} {choose : α → Option β} {values : List α}
    {chosen : β} :
    values.findSome? choose = some chosen ↔
      ∃ value, values.find? (fun value => (choose value).isSome) = some value ∧
        choose value = some chosen := by
  induction values with
  | nil => simp
  | cons value values ih =>
      cases chose : choose value with
      | none => rw [List.findSome?_cons_of_isNone (by simp [chose]), ih,
          List.find?_cons_of_neg (by simp [chose])]
      | some other =>
          rw [List.findSome?_cons_of_isSome (by simp [chose]),
            List.find?_cons_of_pos (by simp [chose])]
          simp

/-- Services accept an entry together if each of them does. -/
theorem RestrictionService.validateAll_eq_ok_iff {path : Option String} {store : RestrictionStore}
    {members : List RestrictionService} :
    validateAll path store members = .ok () ↔
      ∀ member ∈ members, member.validate path store = .ok () := by
  induction members with
  | nil => simp [validateAll]
  | cons member members ih => rw [validateAll, checks_eq_ok_iff, ih, List.forall_mem_cons]

namespace RestrictionArrangement

variable {L : Type} (answer : L → RestrictionService) (path : Option String)

/-- The single provider that restrictions with a name are sent to. -/
inductive Routes (name : String) : RestrictionArrangement L → L → Prop where
  | leaf {single : L} (declares : (answer single).declares path name = true) :
      Routes name (.leaf single) single
  | composite {id : Nat} {members : List (RestrictionArrangement L)}
      {member : RestrictionArrangement L} {single : L}
      (first : members.find? (fun member => (member.service answer).declares path name) =
        some member)
      (routes : Routes name member single) : Routes name (.composite id members) single

/-- Whether a single provider has a definition, or none with its name. -/
def Agrees (definition : RestrictionDefinition) (single : L) : Prop :=
  ∀ other ∈ (answer single).supported path, other.name = definition.name → other = definition

/-- Whether restrictions with the name of a definition are sent to a single provider that declares
this definition, and no other with the name. -/
def RoutesAs (arrangement : RestrictionArrangement L) (definition : RestrictionDefinition) : Prop :=
  ∃ single, arrangement.Routes answer path definition.name single ∧
    Agrees answer path definition single

variable {answer : L → RestrictionService} {path : Option String} {name : String}
  {arrangement : RestrictionArrangement L} {single : L} {definition : RestrictionDefinition}

/-- An arrangement supports what its single providers do. -/
theorem mem_supported_service_iff :
    definition ∈ (arrangement.service answer).supported path ↔
      ∃ single ∈ arrangement.leaves, definition ∈ (answer single).supported path := by
  induction arrangement with
  | empty => simp [service, RestrictionService.empty, leaves]
  | leaf single => simp [service, leaves]
  | composite id members ih =>
      simp only [service, services_eq_map, RestrictionService.composite, OrderedSet.mem_ofList,
        leaves, leavesOfAll_eq_flatMap, List.flatMap_map, List.mem_flatMap]
      constructor
      · rintro ⟨member, present, declared⟩
        obtain ⟨single, inside, declared⟩ := (ih member present).mp declared
        exact ⟨single, ⟨member, present, inside⟩, declared⟩
      · rintro ⟨single, ⟨member, present, inside⟩, declared⟩
        exact ⟨member, present, (ih member present).mpr ⟨single, inside, declared⟩⟩

/-- An arrangement declares the names that its single providers do. -/
theorem declares_service_iff :
    (arrangement.service answer).declares path name = true ↔
      ∃ single ∈ arrangement.leaves, (answer single).declares path name = true := by
  simp only [RestrictionService.declares_iff, mem_supported_service_iff]
  constructor
  · rintro ⟨definition, ⟨single, inside, declared⟩, named⟩
    exact ⟨single, inside, definition, declared, named⟩
  · rintro ⟨single, inside, definition, declared, named⟩
    exact ⟨definition, ⟨single, inside, declared⟩, named⟩

/-- Restrictions with a name go to the first single provider that declares it. -/
theorem routes_iff_find?_leaves :
    arrangement.Routes answer path name single ↔
      arrangement.leaves.find? (fun single => (answer single).declares path name) =
        some single := by
  induction arrangement generalizing single with
  | empty => exact ⟨nofun, nofun⟩
  | leaf other =>
      rw [leaves, List.find?_singleton]
      constructor
      · rintro ⟨declares⟩
        rw [if_pos declares]
      · intro found
        obtain ⟨declares, ⟨⟩⟩ := Option.ite_none_right_eq_some.mp found
        exact .leaf declares
  | composite id members ih =>
      -- A member declares the name exactly if one of its single providers does.
      have firsts : members.find? (fun member => (member.service answer).declares path name) =
          members.find? fun member =>
            (member.leaves.find? fun single => (answer single).declares path name).isSome := by
        refine congrArg (members.find? ·) (funext fun member => Bool.eq_iff_iff.mpr ?_)
        rw [declares_service_iff, List.find?_isSome]
      rw [leaves, leavesOfAll_eq_flatMap, List.find?_flatMap, findSome?_eq_some_iff_find?]
      constructor
      · rintro (_ | ⟨first, routes⟩)
        exact ⟨_, firsts ▸ first, (ih _ (List.mem_of_find?_eq_some first)).mp routes⟩
      · rintro ⟨member, first, found⟩
        exact .composite (firsts ▸ first) ((ih _ (List.mem_of_find?_eq_some first)).mpr found)

/-- A composite sends a name on to its first member that declares it. -/
theorem route_of_first {members : List (RestrictionArrangement L)}
    {member : RestrictionArrangement L}
    (first : members.find? (fun member => (member.service answer).declares path name) =
      some member) :
    RestrictionService.route (services answer members) path name =
      .ok (member.service answer) := by
  have found : ((members.map (service answer)).find? fun member => member.declares path name) =
      some (member.service answer) := by
    rw [List.find?_map]
    exact congrArg (Option.map _) first
  rw [RestrictionService.route, services_eq_map, found]

/-- A single value becomes the restriction that the provider at the end makes of it. -/
theorem create_of_routes (routes : arrangement.Routes answer path name single) (value : Value) :
    (arrangement.service answer).create path name value =
      (answer single).create path name value := by
  induction routes with
  | leaf declares => rfl
  | composite first routes ih =>
      change RestrictionService.route _ path name >>= _ = _
      rw [route_of_first first, ← ih]
      rfl

/-- Several values become the restriction that the provider at the end makes of them. -/
theorem createMulti_of_routes (routes : arrangement.Routes answer path name single)
    (values : List Value) :
    (arrangement.service answer).createMulti path name values =
      (answer single).createMulti path name values := by
  induction routes with
  | leaf declares => rfl
  | composite first routes ih =>
      change RestrictionService.route _ path name >>= _ = _
      rw [route_of_first first, ← ih]
      rfl

/-- A restriction is stored as the provider at the end stores it. -/
theorem write_of_routes {restriction : Restriction}
    (routes : arrangement.Routes answer path restriction.name single) :
    (arrangement.service answer).write path [restriction] =
      (answer single).write path [restriction] := by
  induction routes with
  | leaf declares => rfl
  | composite first routes ih =>
      change RestrictionService.writeRouted _ path [restriction] = _
      rw [RestrictionService.writeRouted, route_of_first first, ← ih]
      exact bind_pure_unit (m := StoreStep)

/-- An arrangement that declares a name in one way only sends it to a provider that does so. -/
theorem routesAs_of_agreed
    (declares : (arrangement.service answer).declares path definition.name = true)
    (agreed : ∀ other ∈ (arrangement.service answer).supported path,
      other.name = definition.name → other = definition) :
    arrangement.RoutesAs answer path definition := by
  obtain ⟨single, found⟩ := Option.isSome_iff_exists.mp
    (List.find?_isSome.mpr (declares_service_iff.mp declares))
  refine ⟨single, routes_iff_find?_leaves.mpr found, fun other declared => ?_⟩
  exact agreed other
    (mem_supported_service_iff.mpr ⟨single, List.mem_of_find?_eq_some found, declared⟩)

/-- What is around an arrangement sends a name to the same definition exactly if the first single
provider to the left that declares the name, if there is one, agrees. -/
theorem RoutesAs.around {inner outer : RestrictionArrangement L} {before after : List L}
    (routes : inner.RoutesAs answer path definition)
    (placed : outer.leaves = before ++ inner.leaves ++ after) :
    outer.RoutesAs answer path definition ↔
      ∀ single,
        before.find? (fun single => (answer single).declares path definition.name) = some single →
          Agrees answer path definition single := by
  obtain ⟨own, found, agrees⟩ := routes
  rw [routes_iff_find?_leaves] at found
  simp only [RoutesAs, routes_iff_find?_leaves, placed, List.find?_append, found]
  cases before.find? fun single => (answer single).declares path definition.name with
  | none => simpa using agrees
  | some single => simp

/-- An arrangement that accepts an entry does so with every single provider. -/
theorem validate_leaf {store : RestrictionStore} (inside : single ∈ arrangement.leaves)
    (accepts : (arrangement.service answer).validate path store = .ok ()) :
    (answer single).validate path store = .ok () := by
  induction arrangement with
  | empty => exact absurd inside List.not_mem_nil
  | leaf other =>
      obtain rfl := List.mem_singleton.mp inside
      exact accepts
  | composite id members ih =>
      rw [leaves, leavesOfAll_eq_flatMap, List.mem_flatMap] at inside
      obtain ⟨member, present, inside⟩ := inside
      refine ih member present inside ?_
      rw [service, services_eq_map] at accepts
      exact RestrictionService.validateAll_eq_ok_iff.mp accepts _ (List.mem_map_of_mem present)

end RestrictionArrangement

end Authorization
