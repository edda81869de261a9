import Authorization.Proofs.Restriction.Sources
import Authorization.Restriction.Arrangement

/-!
# Flattening restriction providers

Composites of restriction providers may be nested in each other or not: an arrangement of sources
joins them all, from left to right, at whatever depth they stand (`joins_leaves`). So it answers as
the composite over the sources alone does.
-/

namespace Authorization.RestrictionArrangement

section

variable {L : Type}

/-- The provider that combines the single providers of an arrangement alone, from left to right. -/
def flatten (id : Nat) (arrangement : RestrictionArrangement L) : RestrictionArrangement L :=
  collapse id (arrangement.leaves.map .leaf)

/-- Collapsing keeps all single providers in their order. -/
theorem leaves_collapse (id : Nat) (members : List (RestrictionArrangement L)) :
    (collapse id members).leaves = members.flatMap leaves := by
  match members with
  | [] => rfl
  | [member] => exact (List.append_nil _).symm
  | first :: second :: rest => exact leavesOfAll_eq_flatMap _

theorem leaves_collapse_leaf (id : Nat) (singles : List L) :
    (collapse id (singles.map leaf)).leaves = singles := by
  rw [leaves_collapse, List.flatMap_map]
  exact List.flatMap_singleton' _

end

variable (arrangement : RestrictionArrangement RestrictionSource)

/-- An arrangement answers as its sources do together, at whatever depth they stand. -/
theorem joins_leaves :
    (arrangement.service RestrictionSource.service).Joins arrangement.leaves := by
  induction arrangement with
  | empty => exact RestrictionService.joins_empty
  | leaf source => exact RestrictionService.joins_source source
  | composite id members ih =>
      rw [service, services_eq_map, leaves, leavesOfAll_eq_flatMap]
      exact RestrictionService.joins_composite ih

/-- The provider for a list of sources answers as they do together. -/
theorem joins_collapse (id : Nat) (sources : List RestrictionSource) :
    ((collapse id (sources.map leaf)).service RestrictionSource.service).Joins sources := by
  have joins := joins_leaves (collapse id (sources.map leaf))
  rwa [leaves_collapse_leaf] at joins

/-- Nested composites answer as the flat one over their sources, whatever its number. -/
theorem alike_flatten (id : Nat) :
    (arrangement.service RestrictionSource.service).Alike
      ((arrangement.flatten id).service RestrictionSource.service) :=
  (joins_leaves arrangement).alike (joins_collapse id arrangement.leaves)

end Authorization.RestrictionArrangement
