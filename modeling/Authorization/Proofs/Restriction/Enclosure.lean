import Authorization.Proofs.Restriction.Routing
import Authorization.Restriction.Session

/-!
# What item names providers know of the composites around them

An item names provider compares its definition with those of one composite: the one that it is a
direct member of (`Encloses`). Assembling a plan in which nothing is used twice tells every item
names provider about this composite and about no other (`assembled`), whatever the composites
further out declare. So an entry with item names that an arrangement accepts is one for which every
enclosing composite sends them to the definition of the provider, and the arrangement does so
exactly if nothing to the left of that composite declares them in another way first.
-/

namespace Authorization

open RestrictionArrangement (leaves service)

namespace RestrictionArrangement

/-- Whether a composite in an arrangement has an item names provider as a direct member. -/
inductive Encloses (id : Nat) : RestrictionProvider → RestrictionProvider → Prop where
  | here {number : Nat} {members : List RestrictionProvider}
      (direct : .leaf (.itemNames id) ∈ members) :
      Encloses id (.composite number members) (.composite number members)
  | within {number : Nat} {members : List RestrictionProvider} {member inner : RestrictionProvider}
      (present : member ∈ members) (encloses : Encloses id member inner) :
      Encloses id (.composite number members) inner

/-- What an item names provider in an arrangement is compared with: the composite that it is a
direct member of, or the provider alone where there is no composite. -/
def Surrounds (id : Nat) (outer inner : RestrictionProvider) : Prop :=
  outer = .leaf (.itemNames id) ∧ inner = outer ∨ Encloses id outer inner

variable {id : Nat} {outer inner arrangement : RestrictionProvider}

/-- Every item names provider in an arrangement is surrounded by something. -/
theorem exists_surrounds (inside : .itemNames id ∈ outer.leaves) :
    ∃ inner, Surrounds id outer inner := by
  induction outer using RestrictionArrangement.induction with
  | empty => exact absurd inside List.not_mem_nil
  | leaf single =>
      obtain rfl := List.mem_singleton.mp inside
      exact ⟨_, .inl ⟨rfl, rfl⟩⟩
  | composite number members ih =>
      rw [leaves, leavesOfAll_eq_flatMap, List.mem_flatMap] at inside
      obtain ⟨member, present, inside⟩ := inside
      rcases ih member present inside with ⟨inner, ⟨rfl, -⟩ | encloses⟩
      · exact ⟨_, .inr (.here present)⟩
      · exact ⟨inner, .inr (.within present encloses)⟩

theorem Encloses.mem_leaves (encloses : Encloses id outer inner) :
    .itemNames id ∈ inner.leaves := by
  induction encloses with
  | here direct =>
      rw [leaves, leavesOfAll_eq_flatMap, List.mem_flatMap]
      exact ⟨_, direct, List.mem_singleton_self _⟩
  | within present encloses ih => exact ih

theorem Encloses.leaves_eq (encloses : Encloses id outer inner) :
    ∃ before after, outer.leaves = before ++ inner.leaves ++ after := by
  induction encloses with
  | here direct => exact ⟨[], [], by simp⟩
  | within present encloses ih =>
      obtain ⟨before, after, placed⟩ := ih
      obtain ⟨left, right, rfl⟩ := List.append_of_mem present
      refine ⟨left.flatMap leaves ++ before, after ++ right.flatMap leaves, ?_⟩
      rw [leaves, leavesOfAll_eq_flatMap, List.flatMap_append, List.flatMap_cons, placed]
      simp only [List.append_assoc]

theorem Encloses.mem_leaves_outer (encloses : Encloses id outer inner) :
    .itemNames id ∈ outer.leaves := by
  obtain ⟨before, after, placed⟩ := encloses.leaves_eq
  rw [placed]
  simp [encloses.mem_leaves]

theorem Surrounds.mem_leaves (surrounds : Surrounds id outer inner) :
    .itemNames id ∈ inner.leaves := by
  rcases surrounds with ⟨rfl, rfl⟩ | encloses
  · exact List.mem_singleton_self _
  · exact encloses.mem_leaves

/-- The single providers of what surrounds a provider stand together among those of the whole. -/
theorem Surrounds.leaves_eq (surrounds : Surrounds id outer inner) :
    ∃ before after, outer.leaves = before ++ inner.leaves ++ after := by
  rcases surrounds with ⟨-, rfl⟩ | encloses
  · exact ⟨[], [], by simp⟩
  · exact encloses.leaves_eq

/-- What a provider declares does not depend on what is around its item names providers. -/
theorem supported_service (enclosing : Enclosing) :
    (arrangement.service (RestrictionLeaf.service enclosing)).supported =
      arrangement.supported := by
  unfold supported
  induction arrangement using RestrictionArrangement.induction with
  | empty => rfl
  | leaf single => cases single <;> rfl
  | composite number members ih =>
      funext path
      simp only [service, services_eq_map, RestrictionService.composite, List.flatMap_map]
      exact congrArg (OrderedSet.ofList ∘ List.flatten)
        (List.map_congr_left fun member present => congrFun (ih member present) path)

end RestrictionArrangement

namespace RestrictionBlueprint

mutual

/-- Whether a plan uses nothing twice. -/
def isTree : RestrictionBlueprint → Bool
  | part _ => false
  | composite members => areTrees members
  | _ => true

def areTrees : List RestrictionBlueprint → Bool
  | [] => true
  | member :: members => isTree member && areTrees members

end

end RestrictionBlueprint

namespace Enclosures

variable {enclosures : Enclosures} {enclosure : Enclosure} {id : Nat}

/-- Whether a provider is the item names provider with a number. -/
def isItemNames (id : Nat) : RestrictionProvider → Bool
  | .leaf (.itemNames other) => other == id
  | _ => false

theorem any_isItemNames_iff {members : List RestrictionProvider} :
    members.any (isItemNames id) = true ↔ .leaf (.itemNames id) ∈ members := by
  rw [List.any_eq_true]
  constructor
  · rintro ⟨member, present, same⟩
    unfold isItemNames at same
    split at same
    · obtain rfl := eq_of_beq same
      exact present
    · cases same
  · intro present
    exact ⟨_, present, beq_self_eq_true id⟩

theorem gone_tell (member : RestrictionProvider) :
    (enclosures.tell enclosure member).gone = enclosures.gone := by
  unfold tell
  split
  · split <;> rfl
  · rfl

/-- Telling a member changes what is known of an item names provider only if it is that member and
nothing was known before. -/
theorem first_tell (member : RestrictionProvider) :
    (enclosures.tell enclosure member).first id =
      (enclosures.first id).or (if isItemNames id member then some enclosure else none) := by
  unfold tell isItemNames
  split
  · rename_i other
    split
    · rename_i earlier known
      by_cases same : other = id
      · subst same
        simp [known]
      · simp [same]
    · rename_i unknown
      by_cases same : other = id
      · subst same
        simp [unknown]
      · simp [same, Ne.symm same]
  · simp

theorem gone_tells (members : List RestrictionProvider) :
    (members.foldl (fun told member => told.tell enclosure member) enclosures).gone =
      enclosures.gone := by
  induction members generalizing enclosures with
  | nil => rfl
  | cons member members ih => rw [List.foldl_cons, ih, gone_tell]

/-- Telling providers about a composite changes nothing for those who know of one. -/
theorem first_tells (members : List RestrictionProvider) :
    (members.foldl (fun told member => told.tell enclosure member) enclosures).first id =
      (enclosures.first id).or
        (if members.any (isItemNames id) then some enclosure else none) := by
  induction members generalizing enclosures with
  | nil => simp
  | cons member members ih =>
      rw [List.foldl_cons, ih, first_tell, Option.or_assoc, List.any_cons]
      cases isItemNames id member <;> simp

theorem gone_enclose (arrangement : RestrictionProvider) :
    (enclosures.enclose arrangement).gone = enclosures.gone := by
  unfold enclose
  split
  · exact gone_tells _
  · rfl

/-- A composite tells those item names providers that are direct members of it. -/
theorem first_enclose_composite (number : Nat) (members : List RestrictionProvider) :
    (enclosures.enclose (.composite number members)).first id =
      (enclosures.first id).or (if members.any (isItemNames id)
        then some ⟨number, (RestrictionArrangement.composite number members).supported⟩
        else none) :=
  first_tells members

/-- Telling the members of a composite about it again changes nothing. -/
theorem first_enclose_of_told {arrangement : RestrictionProvider}
    (told : ∀ id, RestrictionArrangement.Encloses id arrangement arrangement →
      (enclosures.first id).isSome) :
    (enclosures.enclose arrangement).first = enclosures.first := by
  match arrangement with
  | .empty => rfl
  | .leaf single => rfl
  | .composite number members =>
      funext id
      rw [first_enclose_composite]
      split
      · rename_i direct
        exact Option.or_of_isSome (told id (.here (any_isItemNames_iff.mp direct)))
      · exact Option.or_none

end Enclosures

open RestrictionArrangement (Agrees Encloses Surrounds)

namespace RestrictionAssembly

/-- Whether no provider with a number yet to be given is known to be enclosed. -/
def Fresh (assembly : RestrictionAssembly) : Prop :=
  ∀ id, assembly.next ≤ id → assembly.enclosures.first id = none

/-- What holds after some providers have been assembled: nothing has changed for those that were
there before, and every item names provider within the new ones has been told about the composite
around it, if there is one. -/
structure Assembled (before : RestrictionAssembly) (members : List RestrictionProvider)
    (after : RestrictionAssembly) : Prop where
  next_le : before.next ≤ after.next
  gone : after.enclosures.gone = before.enclosures.gone
  kept : ∀ id < before.next, after.enclosures.first id = before.enclosures.first id
  fresh : after.Fresh
  numbered : ∀ member ∈ members, ∀ id, .itemNames id ∈ member.leaves →
    before.next ≤ id ∧ id < after.next
  alone : ∀ id, .leaf (.itemNames id) ∈ members → after.enclosures.first id = none
  told : ∀ member ∈ members, ∀ id inner, Encloses id member inner →
    ∃ number, after.enclosures.first id = some ⟨number, inner.supported⟩

variable {before between after later : RestrictionAssembly} {member : RestrictionProvider}
  {members : List RestrictionProvider}

theorem assembled_nil (fresh : before.Fresh) : Assembled before [] before where
  next_le := le_rfl
  gone := rfl
  kept _ _ := rfl
  fresh := fresh
  numbered := by simp
  alone := by simp
  told := by simp

/-- Providers without item names need not be told anything. -/
theorem Assembled.silent (assembled : Assembled before [] after)
    (silent : ∀ id, .itemNames id ∉ member.leaves) : Assembled before [member] after where
  next_le := assembled.next_le
  gone := assembled.gone
  kept := assembled.kept
  fresh := assembled.fresh
  numbered := List.forall_mem_singleton.mpr fun id inside => absurd inside (silent id)
  alone := by
    intro id present
    obtain rfl := List.mem_singleton.mp present
    exact absurd (List.mem_singleton_self _) (silent id)
  told := List.forall_mem_singleton.mpr fun id _ encloses =>
    absurd encloses.mem_leaves_outer (silent id)

/-- A single provider that is no item names provider is assembled without a number. -/
theorem assembled_leaf {single : RestrictionLeaf} (fresh : before.Fresh)
    (plain : ∀ id, single ≠ .itemNames id) : Assembled before [.leaf single] before :=
  (assembled_nil fresh).silent fun id inside =>
    plain id (List.mem_singleton.mp inside).symm

theorem assembled_itemNames (fresh : before.Fresh) :
    Assembled before [.leaf (.itemNames before.next)] { before with next := before.next + 1 } where
  next_le := Nat.le_succ _
  gone := rfl
  kept _ _ := rfl
  fresh id new := fresh id (Nat.le_of_succ_le new)
  numbered := by
    refine List.forall_mem_singleton.mpr fun id inside => ?_
    obtain ⟨⟩ := List.mem_singleton.mp inside
    exact ⟨le_rfl, Nat.lt_succ_self _⟩
  alone := by
    intro id present
    obtain ⟨⟩ := List.mem_singleton.mp present
    exact fresh _ le_rfl
  told := List.forall_mem_singleton.mpr nofun

/-- What has been told is not told again. -/
theorem Assembled.cons (first : Assembled before [member] between)
    (rest : Assembled between members after) : Assembled before (member :: members) after where
  next_le := first.next_le.trans rest.next_le
  gone := rest.gone.trans first.gone
  kept id old := (rest.kept id (old.trans_le first.next_le)).trans (first.kept id old)
  fresh := rest.fresh
  numbered := by
    intro other present id inside
    rcases List.mem_cons.mp present with rfl | present
    · obtain ⟨le, lt⟩ := first.numbered other List.mem_cons_self id inside
      exact ⟨le, lt.trans_le rest.next_le⟩
    · obtain ⟨le, lt⟩ := rest.numbered other present id inside
      exact ⟨first.next_le.trans le, lt⟩
  alone := by
    intro id present
    rcases List.mem_cons.mp present with rfl | present
    · have old := (first.numbered _ List.mem_cons_self id (List.mem_singleton_self _)).2
      rw [rest.kept id old]
      exact first.alone id List.mem_cons_self
    · exact rest.alone id present
  told := by
    intro other present id inner encloses
    rcases List.mem_cons.mp present with rfl | present
    · have old := (first.numbered _ List.mem_cons_self id encloses.mem_leaves_outer).2
      rw [rest.kept id old]
      exact first.told other List.mem_cons_self id inner encloses
    · exact rest.told other present id inner encloses

/-- Nothing changes while numbers are left out and nobody is told anything. -/
theorem Assembled.extend (assembled : Assembled before members after)
    (next_le : after.next ≤ later.next) (gone : later.enclosures.gone = after.enclosures.gone)
    (first : later.enclosures.first = after.enclosures.first) :
    Assembled before members later where
  next_le := assembled.next_le.trans next_le
  gone := gone.trans assembled.gone
  kept id old := (congrFun first id).trans (assembled.kept id old)
  fresh id new := (congrFun first id).trans (assembled.fresh id (next_le.trans new))
  numbered member present id inside :=
    ⟨(assembled.numbered member present id inside).1,
      (assembled.numbered member present id inside).2.trans_le next_le⟩
  alone id present := (congrFun first id).trans (assembled.alone id present)
  told := by rw [first]; exact assembled.told

theorem Assembled.keep (assembled : Assembled before members after)
    (part : RestrictionProvider) :
    Assembled before members ((RestrictionAssembly.keep part).run after).2 :=
  assembled.extend le_rfl rfl rfl

/-- Members make an assembled composite, which tells its direct members about itself. -/
theorem Assembled.composite (assembled : Assembled before members after) (number : Nat)
    (next_le : after.next ≤ later.next)
    (enclosed : later.enclosures = after.enclosures.enclose (.composite number members)) :
    Assembled before [.composite number members] later := by
  have first (id : Nat) : later.enclosures.first id = _ :=
    (congrArg (Enclosures.first · id) enclosed).trans
      (Enclosures.first_enclose_composite number members)
  -- only members are told, and their numbers were given while they were assembled
  have outside (id : Nat) (apart : id < before.next ∨ after.next ≤ id) :
      later.enclosures.first id = after.enclosures.first id := by
    rw [first, if_neg, Option.or_none]
    intro direct
    obtain ⟨le, lt⟩ := assembled.numbered _ (Enclosures.any_isItemNames_iff.mp direct) id
      (List.mem_singleton_self _)
    omega
  refine ⟨assembled.next_le.trans next_le, ?gone, ?kept, ?fresh, ?numbered, ?alone, ?told⟩
  case gone => rw [enclosed, Enclosures.gone_enclose, assembled.gone]
  case kept => exact fun id old => (outside id (.inl old)).trans (assembled.kept id old)
  case fresh =>
    exact fun id new => (outside id (.inr (next_le.trans new))).trans
      (assembled.fresh id (next_le.trans new))
  case numbered =>
    refine List.forall_mem_singleton.mpr fun id inside => ?_
    rw [leaves, RestrictionArrangement.leavesOfAll_eq_flatMap, List.mem_flatMap] at inside
    obtain ⟨member, present, inside⟩ := inside
    obtain ⟨le, lt⟩ := assembled.numbered member present id inside
    exact ⟨le, lt.trans_le next_le⟩
  case alone =>
    intro id present
    cases List.mem_singleton.mp present
  case told =>
    refine List.forall_mem_singleton.mpr fun id inner encloses => ?_
    cases encloses with
    | here direct =>
        refine ⟨number, ?_⟩
        rw [first, assembled.alone id direct, if_pos (Enclosures.any_isItemNames_iff.mpr direct),
          Option.none_or]
    | within present encloses =>
        -- it knows of a composite further in, and the first one that it is told about stays
        obtain ⟨enclosing, known⟩ := assembled.told _ present id inner encloses
        exact ⟨enclosing, by rw [first, known, Option.some_or]⟩

/-- A composite tells its direct members about itself, and a lone member needs no composite. -/
theorem Assembled.combined (assembled : Assembled before members after) :
    Assembled before [((combine members).run after).1] ((combine members).run after).2 := by
  have next_le : after.next ≤ ((combine members).run after).2.next := Nat.le_succ _
  match members with
  | [] =>
      exact (assembled.extend next_le rfl rfl).silent fun _ => List.not_mem_nil
  | [member] =>
      refine assembled.extend next_le (Enclosures.gone_enclose _)
        (Enclosures.first_enclose_of_told fun id encloses => ?_)
      obtain ⟨number, known⟩ := assembled.told member List.mem_cons_self id member encloses
      exact Option.isSome_of_eq_some known
  | first :: second :: rest => exact assembled.composite after.next next_le rfl

end RestrictionAssembly

namespace RestrictionBlueprint

open RestrictionAssembly

variable {before : RestrictionAssembly}

theorem assembled_members {members : List RestrictionBlueprint}
    (each : ∀ member ∈ members, member.isTree = true → ∀ {before}, before.Fresh →
      Assembled before [(member.assemble.run before).1] (member.assemble.run before).2)
    (trees : areTrees members = true) (fresh : before.Fresh) :
    Assembled before ((assembleMembers members).run before).1
      ((assembleMembers members).run before).2 := by
  induction members generalizing before with
  | nil => exact assembled_nil fresh
  | cons member members ih =>
      rw [areTrees, Bool.and_eq_true] at trees
      obtain ⟨here, rest⟩ := List.forall_mem_cons.mp each
      have first := (here trees.1 fresh).keep (member.assemble.run before).1
      exact first.cons (ih rest trees.2 first.fresh)

/-- Assembling a plan in which nothing is used twice tells every item names provider about the
composite that it is a direct member of. -/
theorem assembled {blueprint : RestrictionBlueprint} (tree : blueprint.isTree = true)
    (fresh : before.Fresh) :
    Assembled before [(blueprint.assemble.run before).1] (blueprint.assemble.run before).2 := by
  induction blueprint generalizing before with
  | empty => exact (assembled_nil fresh).silent fun _ => List.not_mem_nil
  | glob => exact assembled_leaf fresh nofun
  | itemNames => exact assembled_itemNames fresh
  | standard =>
      have names := assembled_itemNames fresh
      have glob : Assembled before [.leaf .glob] before := assembled_leaf fresh nofun
      exact (glob.cons names).combined
  | declaring name catalogue pattern rejection => exact assembled_leaf fresh nofun
  | other service => exact assembled_leaf fresh nofun
  | composite members ih =>
      have each := assembled_members (fun member present tree => ih member present tree) tree fresh
      exact each.combined
  | part place => cases tree

end RestrictionBlueprint

namespace RestrictionSession

variable {blueprint : RestrictionBlueprint} {id : Nat} {inner : RestrictionProvider}

/-- What an item names provider is compared with at the start of a session. -/
theorem enclosing_start (tree : blueprint.isTree = true)
    (encloses : Encloses id (start blueprint).top inner) :
    (start blueprint).enclosures.enclosing id = some inner.supported := by
  have fresh : RestrictionAssembly.Fresh {} := fun _ _ => rfl
  have assembled := RestrictionBlueprint.assembled tree fresh
  obtain ⟨number, known⟩ := assembled.told _ List.mem_cons_self id inner encloses
  have gone : (start blueprint).enclosures.gone = [] := assembled.gone
  change (Option.filter _ ((start blueprint).enclosures.first id)).map _ = _
  rw [show (start blueprint).enclosures.first id = _ from known]
  simp [gone]

end RestrictionSession

namespace ItemNamesRestriction

/-- There is no conflict if nothing around defines the name in another way. -/
theorem conflicts_eq_false_iff {definitions : OrderedSet RestrictionDefinition} :
    conflicts definitions = false ↔
      ∀ other ∈ definitions, other.name = definition.name → other = definition := by
  simp [conflicts, definition]

/-- An entry with item names is not accepted while what is around the provider declares them in
another way. -/
theorem conflicts_of_validate {supported : Option String → OrderedSet RestrictionDefinition}
    {path : Option String} {store : RestrictionStore} (present : (store.find? key).isSome)
    (accepted : (service (some supported)).validate path store = .ok ()) :
    conflicts (supported path) = false := by
  obtain ⟨property, found⟩ := Option.isSome_iff_exists.mp present
  have checked : check (some supported) path store = .ok () := (checks_eq_ok_iff.mp accepted).2
  simpa [check, found] using checked

end ItemNamesRestriction

namespace RestrictionSession

open ItemNamesRestriction

/-- **Where item names are sent in an accepted entry.** What an item names provider is compared with
sends them to the provider's definition, at whatever depth it stands. The provider on top does so
exactly if the first single provider that declares the name to the left of that composite, if there
is one, has this definition as well. -/
theorem routesAs_of_validate (blueprint : RestrictionBlueprint) (tree : blueprint.isTree = true)
    (path : String) (store : RestrictionStore) (present : (store.find? key).isSome)
    (accepted : ((start blueprint).service none).validate (some path) store = .ok ()) (id : Nat)
    (inside : .itemNames id ∈ (start blueprint).top.leaves) :
    let top := (start blueprint).top
    let answer := RestrictionLeaf.service (start blueprint).enclosures.enclosing
    (∃ inner, Surrounds id top inner) ∧
      ∀ inner, Surrounds id top inner →
        inner.RoutesAs answer (some path) definition ∧
        ∃ before after, top.leaves = before ++ inner.leaves ++ after ∧
          (top.RoutesAs answer (some path) definition ↔
            ∀ single, before.find? (fun single => (answer single).declares (some path) key) =
              some single → Agrees answer (some path) definition single) := by
  intro top answer
  refine ⟨RestrictionArrangement.exists_surrounds inside, fun inner surrounds => ?_⟩
  have agreed : ∀ other ∈ (inner.service answer).supported (some path),
      other.name = definition.name → other = definition := by
    rcases surrounds with ⟨alone, rfl⟩ | encloses
    · rw [alone]
      exact fun other declared _ => List.mem_singleton.mp declared
    · -- The provider takes part in the validation, and compares itself with what encloses it.
      have accepts := RestrictionArrangement.validate_leaf inside accepted
      rw [RestrictionLeaf.service, enclosing_start tree encloses] at accepts
      rw [RestrictionArrangement.supported_service]
      exact conflicts_eq_false_iff.mp (conflicts_of_validate present accepts)
  have declares : (inner.service answer).declares (some path) definition.name = true :=
    RestrictionArrangement.declares_service_iff.mpr
      ⟨.itemNames id, surrounds.mem_leaves, rfl⟩
  have routes := RestrictionArrangement.routesAs_of_agreed declares agreed
  obtain ⟨before, after, placed⟩ := surrounds.leaves_eq
  exact ⟨routes, before, after, placed, routes.around placed⟩

/-- An entry with names and nothing else. -/
def titled : RestrictionStore := [(key, ⟨key, [.name "title"], true⟩)]

/-- Labels to the left of a composite of globs and item names. -/
def labelled (labels : RestrictionDefinition) : RestrictionBlueprint :=
  .composite [.declaring "labels" (.ofList [labels]) .all none, .standard]

/-- Labels with a name of their own leave item names to their provider: what the provider on top
makes and stores under that name is what the item names provider makes and stores. -/
theorem routesAs_beside_labels :
    let session := start (labelled { name := "rep:label", valueType := .string })
    let answer := RestrictionLeaf.service session.enclosures.enclosing
    let top := session.service none
    let names := answer (.itemNames 0)
    top.validate (some "/docs") titled = .ok () ∧
      session.top.RoutesAs answer (some "/docs") definition ∧
      (∀ value, top.create (some "/docs") key value = names.create (some "/docs") key value) ∧
      (∀ values,
        top.createMulti (some "/docs") key values = names.createMulti (some "/docs") key values) ∧
      ∀ restriction : Restriction, restriction.name = key →
        top.write (some "/docs") [restriction] = names.write (some "/docs") [restriction] := by
  intro session answer top names
  have accepted : top.validate (some "/docs") titled = .ok () := rfl
  have listed : session.top.leaves = [.declaring "labels"
      (.ofList [{ name := "rep:label", valueType := .string }]) .all none, .glob,
      .itemNames 0] := rfl
  have first : session.top.Routes answer (some "/docs") key (.itemNames 0) := by
    rw [RestrictionArrangement.routes_iff_find?_leaves, listed]
    rfl
  refine ⟨accepted, ?_, RestrictionArrangement.create_of_routes first,
    RestrictionArrangement.createMulti_of_routes first, fun restriction named =>
      RestrictionArrangement.write_of_routes (named ▸ first)⟩
  obtain ⟨⟨inner, surrounds⟩, routes⟩ :=
    routesAs_of_validate _ rfl "/docs" titled rfl accepted 0 (by rw [listed]; simp)
  obtain ⟨-, before, after, placed, routes⟩ := routes inner surrounds
  refine routes.mpr fun single found => ?_
  have declares := List.find?_some found
  have inside : single ∈ session.top.leaves := by
    rw [placed]
    simp [List.mem_of_find?_eq_some found]
  rw [listed] at inside
  simp only [List.mem_cons, List.not_mem_nil, or_false] at inside
  rcases inside with rfl | rfl | rfl
  · cases declares
  · cases declares
  · exact fun other declared _ => List.mem_singleton.mp declared

/-- The provider on top accepts an entry and sends its names to labels that define them in another
way than the item names provider does. -/
theorem labels_before_itemNames :
    let session := start (labelled { definition with mandatory := true })
    let answer := RestrictionLeaf.service session.enclosures.enclosing
    (labelled { definition with mandatory := true }).isTree = true ∧
      .itemNames 0 ∈ session.top.leaves ∧ (titled.find? key).isSome ∧
      (session.service none).validate (some "/docs") titled = .ok () ∧
      ¬session.top.RoutesAs answer (some "/docs") definition := by
  intro session answer
  have listed : session.top.leaves = [.declaring "labels"
      (.ofList [{ definition with mandatory := true }]) .all none, .glob, .itemNames 0] := rfl
  refine ⟨rfl, by rw [listed]; simp, rfl, rfl, ?_⟩
  rintro ⟨single, routes, agrees⟩
  rw [RestrictionArrangement.routes_iff_find?_leaves, listed] at routes
  obtain rfl := Option.some.inj routes
  exact Bool.noConfusion (congrArg RestrictionDefinition.mandatory
    (agrees { definition with mandatory := true } List.mem_cons_self rfl))

end RestrictionSession

end Authorization
