import Authorization.Content.Value
import Authorization.OrderedSet

/-!
# Restrictions

A restriction narrows an access control entry to some of the items below the entry's node. Its
definition declares a name, the type of its values and their number; the restriction itself is a
property under a definition. Definitions and restrictions are ordered field by field.
-/

namespace Authorization

/-- The declaration of a kind of restrictions. -/
structure RestrictionDefinition where
  name : String
  valueType : ValueType
  multiValued : Bool := false
  mandatory : Bool := false
  deriving DecidableEq

/-- A restriction: a property, and the definition that it was made under. -/
structure Restriction where
  definition : RestrictionDefinition
  property : Property
  deriving DecidableEq

namespace Value

/-- Values are ordered by type, and those of a type by their content. -/
def order : Value → Value → Ordering
  | string a, string b | name a, name b | path a, path b => compare a b
  | long a, long b => compare a b
  | boolean a, boolean b => compare a b
  | a, b => compare a.type.rank b.type.rank

/-- Lists of values are ordered by their first difference. -/
def orderLists : List Value → List Value → Ordering
  | [], [] => .eq
  | [], _ :: _ => .lt
  | _ :: _, [] => .gt
  | a :: as, b :: bs => (a.order b).then (orderLists as bs)

theorem order_eq_iff {a b : Value} : a.order b = .eq ↔ a = b := by
  cases a <;> cases b <;> simp [order, Value.type, ValueType.rank]

/-- Lists of values are only equal in order if they are equal. -/
theorem orderLists_eq_iff {as bs : List Value} : orderLists as bs = .eq ↔ as = bs := by
  induction as generalizing bs with
  | nil => cases bs <;> simp [orderLists]
  | cons a as ih =>
    cases bs with
    | nil => simp [orderLists]
    | cons b bs => simp [orderLists, Ordering.then_eq_eq, order_eq_iff, ih]

end Value

namespace ValueType

theorem rank_inj {a b : ValueType} : a.rank = b.rank ↔ a = b := by
  cases a <;> cases b <;> simp [rank]

end ValueType

namespace RestrictionDefinition

/-- Definitions are ordered by name, then by their other fields. -/
def order (a b : RestrictionDefinition) : Ordering :=
  (compare a.name b.name).then <| (compare a.valueType.rank b.valueType.rank).then <|
    (compare a.multiValued b.multiValued).then (compare a.mandatory b.mandatory)

instance : Ord RestrictionDefinition := ⟨order⟩

theorem order_eq_iff {a b : RestrictionDefinition} : a.order b = .eq ↔ a = b := by
  obtain ⟨name, type, multi, mandatory⟩ := a
  obtain ⟨name', type', multi', mandatory'⟩ := b
  simp [order, Ordering.then_eq_eq, ValueType.rank_inj]

instance : Std.LawfulEqOrd RestrictionDefinition where
  compare_self := order_eq_iff.mpr rfl
  eq_of_compare := order_eq_iff.mp

end RestrictionDefinition

namespace Restriction

def name (restriction : Restriction) : String := restriction.definition.name

/-- How restrictions are ordered: by definition, and then by property. -/
def order (a b : Restriction) : Ordering :=
  (compare a.definition b.definition).then <| (compare a.property.name b.property.name).then <|
    (Value.orderLists a.property.values b.property.values).then
      (compare a.property.multiValued b.property.multiValued)

instance : Ord Restriction := ⟨order⟩

/-- Restrictions are only equal in order if they are equal. -/
theorem order_eq_iff {a b : Restriction} : a.order b = .eq ↔ a = b := by
  obtain ⟨definition, name, values, multi⟩ := a
  obtain ⟨definition', name', values', multi'⟩ := b
  simp [order, Ordering.then_eq_eq, Value.orderLists_eq_iff]

instance : Std.LawfulEqOrd Restriction where
  compare_self := order_eq_iff.mpr rfl
  eq_of_compare := order_eq_iff.mp

end Restriction

end Authorization
