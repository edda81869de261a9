import Authorization.World

/-!
# What a refresh does

Refreshing an arrangement never fails. Afterwards its composites see the published content, and the
policies staged for its single providers are in force; nothing else changes (`refresh_eq`). It does
not matter in which order the parts are refreshed, nor whether one of them is met twice.
-/

namespace Authorization

namespace World

/-- The state after composites and single providers of some numbers were refreshed. -/
def refreshed (world : World) (composites leaves : List Nat) : World where
  published := world.published
  roots i := if i ∈ composites then world.published else world.roots i
  policies i := if i ∈ leaves then (world.policies i).refresh world.published else world.policies i

variable {world : World} {composites leaves more others : List Nat}

theorem refreshed_nil : world.refreshed [] [] = world := by simp [refreshed]

/-- Refreshing twice refreshes all that either does. -/
theorem refreshed_refreshed :
    (world.refreshed composites leaves).refreshed more others =
      world.refreshed (composites ++ more) (leaves ++ others) := by
  rw [World.mk.injEq]
  refine ⟨rfl, funext fun i => ?_, funext fun i => ?_⟩
  · simp only [refreshed, List.mem_append]
    split <;> split <;> simp_all
  · simp only [refreshed, List.mem_append]
    split <;> split <;> simp_all [PolicyState.refresh]

/-- Republishing the content to a composite refreshes this one only. -/
theorem republish_eq (world : World) (id : Nat) : world.republish id = world.refreshed [id] [] := by
  rw [World.mk.injEq]
  refine ⟨rfl, funext fun i => ?_, funext fun i => ?_⟩
  · simp only [refreshed, List.mem_singleton]
    rfl
  · simp only [refreshed, List.not_mem_nil, if_false]
    rfl

theorem refreshPolicy_eq (world : World) (id : Nat) :
    world.refreshPolicy id = world.refreshed [] [id] := by
  rw [World.mk.injEq]
  refine ⟨rfl, funext fun i => ?_, funext fun i => ?_⟩
  · simp only [refreshed, List.not_mem_nil, if_false]
    rfl
  · simp only [refreshed, List.mem_singleton]
    split
    · rename_i here
      rw [here]
      exact if_pos rfl
    · rename_i elsewhere
      exact if_neg elsewhere

/-- A refresh succeeds and refreshes exactly the composites and single providers of the
arrangement. -/
theorem refresh_eq (arrangement : Arrangement PolicyLeaf) (world : World) :
    world.refresh arrangement =
      (.ok (), world.refreshed (arrangement.combinations.map Combination.id)
        (arrangement.leaves.map PolicyLeaf.id)) := by
  induction arrangement generalizing world with
  | empty => exact congrArg _ refreshed_nil.symm
  | leaf provider => exact congrArg _ (world.refreshPolicy_eq provider.id)
  | composite combination members ih =>
      -- Every member is refreshed in the state that the members before it left.
      have several {rest : List (Arrangement PolicyLeaf)} (within : rest ⊆ members)
          (world : World) : (Arrangement.refreshMembers refreshActions rest).run world =
            ([], world.refreshed ((Arrangement.combinationsOfAll rest).map Combination.id)
              ((Arrangement.leavesOfAll rest).map PolicyLeaf.id)) := by
        induction rest generalizing world with
        | nil => exact congrArg _ refreshed_nil.symm
        | cons member rest inner =>
            obtain ⟨here, later⟩ := List.cons_subset.mp within
            have first := ih member here world
            rw [refresh] at first
            have others := inner later (world.refreshed (member.combinations.map Combination.id)
              (member.leaves.map PolicyLeaf.id))
            rw [refreshed_refreshed, ← List.map_append, ← List.map_append] at others
            simp only [Arrangement.refreshMembers, StateT.run_bind, first]
            exact others
      have all := several (List.Subset.refl members) (world.republish combination.id)
      rw [republish_eq world, refreshed_refreshed, ← republish_eq] at all
      exact congrArg (fun outcome => (AuthorizationError.ofFailures outcome.1, outcome.2)) all

end World

end Authorization
