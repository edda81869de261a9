import Mathlib.Data.List.Sort
import Authorization.Restriction.Definition

/-!
# The order of restrictions

Definitions and restrictions are compared field by field, and all of their fields are totally
ordered, so both are. A set in a total order is the only ascending list of its members
(`OrderedSet.ofList_congr`), in whichever order these were put in.
-/

namespace Authorization

namespace OrderedSet

variable {α : Type} [Ord α]

/-- Every member comes before those that follow it. -/
def Ascending (set : OrderedSet α) : Prop := set.Pairwise fun a b => compare a b = .lt

variable [Std.TransOrd α]

/-- A set stays in order when a value is inserted. -/
theorem ascending_insert [Std.LawfulEqOrd α] {set : OrderedSet α} (ascending : Ascending set)
    (value : α) : Ascending (insert value set) := by
  induction set with
  | nil => exact List.pairwise_singleton _ _
  | cons first rest ih =>
      obtain ⟨above, tail⟩ := List.pairwise_cons.mp ascending
      rw [insert]
      split
      · rename_i smaller
        refine List.pairwise_cons.mpr ⟨fun other member => ?_, ascending⟩
        rcases List.mem_cons.mp member with rfl | deeper
        · exact smaller
        · exact Std.TransCmp.lt_trans smaller (above other deeper)
      · exact ascending
      · rename_i larger
        refine List.pairwise_cons.mpr ⟨fun other member => ?_, ih tail⟩
        rcases mem_insert.mp member with rfl | deeper
        · exact Std.OrientedCmp.lt_of_gt larger
        · exact above other deeper

variable [Std.LawfulEqOrd α]

theorem ascending_ofList (values : List α) : Ascending (ofList values) :=
  List.foldlRecOn (motive := Ascending) values _ List.Pairwise.nil
    fun _ ascending value _ => ascending_insert ascending value

/-- Sets in order are the same if they have the same values. -/
theorem Ascending.eq_of_mem_iff {first second : OrderedSet α} (ascending : Ascending first)
    (other : Ascending second) (same : ∀ value, value ∈ first ↔ value ∈ second) :
    first = second := by
  have irrefl : Std.Irrefl fun a b : α => compare a b = .lt :=
    ⟨fun value smaller => by simp [Std.ReflCmp.compare_self] at smaller⟩
  have antisymm : Std.Antisymm fun a b : α => compare a b = .lt :=
    ⟨fun _ _ smaller larger => absurd larger (Std.OrientedCmp.not_lt_of_lt smaller)⟩
  exact List.Pairwise.eq_of_mem_iff ascending other same

/-- The same values make the same set. -/
theorem ofList_congr {values others : List α} (same : ∀ value, value ∈ values ↔ value ∈ others) :
    ofList values = ofList others :=
  (ascending_ofList values).eq_of_mem_iff (ascending_ofList others) fun value => by
    rw [mem_ofList, mem_ofList, same]

/-- A set is made of its members. -/
theorem Ascending.ofList_eq {set : OrderedSet α} (ascending : Ascending set) : ofList set = set :=
  (ascending_ofList set).eq_of_mem_iff ascending fun _ => mem_ofList

/-- Sets put together make the set of all that they were made of. -/
theorem ofList_flatMap_ofList {β : Type} (parts : List β) (values : β → List α) :
    ofList (parts.flatMap fun part => ofList (values part)) = ofList (parts.flatMap values) :=
  ofList_congr fun value => by simp only [List.mem_flatMap, mem_ofList]

end OrderedSet

namespace Value

/-- The number in a long value, and 0 for the others. -/
def number : Value → Int
  | long number => number
  | _ => 0

/-- The truth in a boolean value. -/
def truth : Value → Bool
  | boolean truth => truth
  | _ => false

/-- Values are ordered by their type, their text, their number and their truth, of which those that
they do not have count for nothing. -/
theorem order_eq_compareLex : order =
    compareLex (compareOn fun value => value.type.rank) (compareLex (compareOn text?)
      (compareLex (compareOn number) (compareOn truth))) := by
  funext a b
  cases a <;> cases b <;>
    simp [order, compareLex, compareOn, text?, number, truth, type, ValueType.rank] <;> rfl

instance : Std.TransCmp order := by
  rw [order_eq_compareLex]
  infer_instance

theorem orderLists_eq_compareLex : orderLists = List.compareLex order := by
  funext as bs
  induction as generalizing bs with
  | nil => cases bs <;> rfl
  | cons a as ih =>
      cases bs with
      | nil => rfl
      | cons b bs => rw [orderLists, List.compareLex_cons_cons, ih]

instance : Std.TransCmp orderLists := by
  rw [orderLists_eq_compareLex]
  infer_instance

/-- The values of something are compared as lists. -/
instance {α : Type} (values : α → List Value) :
    Std.TransCmp fun a b => orderLists (values a) (values b) :=
  let _ : Ord (List Value) := ⟨orderLists⟩
  have : Std.TransOrd (List Value) := inferInstanceAs (Std.TransCmp orderLists)
  inferInstanceAs (Std.TransCmp (compareOn values))

end Value

instance : Std.TransOrd RestrictionDefinition :=
  inferInstanceAs <| Std.TransCmp <|
    compareLex (compareOn RestrictionDefinition.name) <|
      compareLex (compareOn fun definition => definition.valueType.rank) <|
        compareLex (compareOn RestrictionDefinition.multiValued)
          (compareOn RestrictionDefinition.mandatory)

instance : Std.TransOrd Restriction :=
  inferInstanceAs <| Std.TransCmp <|
    compareLex (compareOn Restriction.definition) <|
      compareLex (compareOn fun restriction => restriction.property.name) <|
        compareLex (fun a b => Value.orderLists a.property.values b.property.values)
          (compareOn fun restriction => restriction.property.multiValued)

end Authorization
