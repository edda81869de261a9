import Mathlib.Data.List.Induction
import Authorization.Restriction.Definition
import Authorization.Restriction.Store

/-!
# Proper stores

Entries hold every property once, under its name, and single-valued properties hold one value
(`RestrictionStore.Proper`). Putting restrictions into a store leaves under each name the property
of the last of them, or what was there before (`find?_putAll`); putting in what is there already
changes nothing (`Proper.put_of_find?`).
-/

namespace Authorization

namespace Dictionary

variable {β : Type} {entries : Dictionary β} {key : String} {value : β}

/-- Putting a value where it is already changes nothing. -/
theorem insert_of_find? (sorted : entries.Sorted) (found : entries.find? key = some value) :
    entries.insert key value = entries := by
  induction entries with
  | nil => cases found
  | cons entry rest ih =>
      obtain ⟨k, v⟩ := entry
      obtain ⟨above, tail⟩ := List.pairwise_cons.mp sorted
      rw [find?] at found
      rw [insert]
      by_cases same : k = key
      · rw [if_pos same] at found
        rw [if_pos same.symm, same, Option.some.inj found]
      · rw [if_neg same] at found
        have after : k < key := above _ (mem_of_find? found)
        rw [if_neg (Ne.symm same), if_neg fun before => String.lt_irrefl k
          (String.lt_trans after before), ih tail found]

theorem sorted_ofList (listed : List (String × β)) : Sorted (ofList listed) :=
  List.foldlRecOn (motive := Sorted) listed _ List.Pairwise.nil
    fun _ sorted entry _ => sorted_insert sorted entry.1 entry.2

/-- What is found in a dictionary made of a list is the last value listed under the key. -/
theorem find?_ofList (listed : List (String × β)) :
    find? (ofList listed) key =
      (listed.reverse.find? fun entry => entry.1 == key).map Prod.snd := by
  induction listed using List.reverseRecOn with
  | nil => rfl
  | append_singleton front last ih =>
      rw [ofList, List.foldl_append, List.foldl_cons, List.foldl_nil, find?_insert,
        List.reverse_append, List.reverse_singleton, List.singleton_append, List.find?_cons,
        ← ofList, ih]
      by_cases same : last.1 = key
      · simp [same]
      · rw [if_neg same, beq_eq_false_iff_ne.mpr same]

end Dictionary

/-- A property that may not hold any number of values holds one. -/
def Property.IsProper (property : Property) : Prop :=
  property.multiValued = false → property.values.length = 1

namespace Restriction

/-- The last restriction of a name. -/
def last? (restrictions : List Restriction) (name : String) : Option Restriction :=
  (restrictions.filter fun restriction => restriction.name == name).getLast?

variable {restrictions : List Restriction} {restriction : Restriction} {name : String}

theorem mem_of_last? (found : last? restrictions name = some restriction) :
    restriction ∈ restrictions ∧ restriction.name = name := by
  have member := List.mem_filter.mp (List.mem_of_getLast? found)
  exact ⟨member.1, beq_iff_eq.mp member.2⟩

theorem last?_eq_none_iff :
    last? restrictions name = none ↔ ∀ restriction ∈ restrictions, restriction.name ≠ name := by
  simp [last?]

/-- The last restriction with a name, when one more is added. -/
theorem last?_concat (restrictions : List Restriction) (restriction : Restriction) (name : String) :
    last? (restrictions ++ [restriction]) name =
      if restriction.name = name then some restriction else last? restrictions name := by
  rw [last?, List.filter_append]
  by_cases same : restriction.name = name <;> simp [same, last?]

end Restriction

namespace RestrictionStore

/-- A store as entries hold it. -/
structure Proper (store : RestrictionStore) : Prop where
  sorted : Dictionary.Sorted store
  named : ∀ {name property}, store.find? name = some property → property.name = name
  single : ∀ {name property}, store.find? name = some property → property.IsProper

variable {store : RestrictionStore} {property : Property} {name : String}

theorem proper_nil : Proper [] := ⟨List.Pairwise.nil, nofun, nofun⟩

theorem find?_put : (store.put property).find? name =
    if property.name = name then some property else store.find? name :=
  Dictionary.find?_insert store _ _ _

theorem Proper.put (proper : store.Proper) (one : property.IsProper) :
    (store.put property).Proper where
  sorted := Dictionary.sorted_insert proper.sorted _ _
  named found := by
    rw [find?_put] at found
    split at found
    · rename_i same
      rwa [← Option.some.inj found]
    · exact proper.named found
  single found := by
    rw [find?_put] at found
    split at found
    · rwa [← Option.some.inj found]
    · exact proper.single found

theorem proper_singleton (property : Property) (one : property.IsProper) :
    Proper [(property.name, property)] :=
  proper_nil.put one

theorem Proper.put_of_find? (proper : store.Proper) (found : store.find? name = some property) :
    store.put property = store := by
  have here := proper.named found
  rw [← here] at found
  exact Dictionary.insert_of_find? proper.sorted found

/-- The properties of a store are what is found under their names. -/
theorem Proper.mem_values_iff (proper : store.Proper) :
    property ∈ store.values ↔ store.find? property.name = some property := by
  constructor
  · intro member
    obtain ⟨⟨key, value⟩, listed, rfl⟩ := List.mem_map.mp member
    have found := Dictionary.find?_of_mem proper.sorted listed
    rwa [proper.named found]
  · intro found
    exact List.mem_map.mpr ⟨_, Dictionary.mem_of_find? found, rfl⟩

/-- The store with the properties of restrictions put into it one after the other. -/
def putAll (store : RestrictionStore) (restrictions : List Restriction) : RestrictionStore :=
  restrictions.foldl (fun store restriction => store.put restriction.property) store

variable {restrictions : List Restriction}

theorem Proper.putAll (proper : store.Proper)
    (ones : ∀ restriction ∈ restrictions, restriction.property.IsProper) :
    (store.putAll restrictions).Proper :=
  List.foldlRecOn (motive := Proper) restrictions _ proper
    fun _ proper restriction member => proper.put (ones restriction member)

/-- Putting what is stored already changes nothing, however much it is. -/
theorem Proper.putAll_of_find? (proper : store.Proper)
    (held : ∀ restriction ∈ restrictions,
      store.find? restriction.name = some restriction.property) :
    store.putAll restrictions = store :=
  List.foldlRecOn (motive := fun stored : RestrictionStore => stored = store) restrictions _ rfl
    fun _ same restriction member => by
      rw [same]
      exact proper.put_of_find? (held restriction member)

/-- After several restrictions are put, the last one under each name is found. -/
theorem find?_putAll
    (named : ∀ restriction ∈ restrictions, restriction.property.name = restriction.name) :
    (store.putAll restrictions).find? name =
      ((Restriction.last? restrictions name).map Restriction.property).or (store.find? name) := by
  induction restrictions using List.reverseRecOn with
  | nil => rfl
  | append_singleton front last ih =>
      have own := named last (by simp)
      have rest := ih fun restriction member => named restriction (List.mem_append_left _ member)
      rw [putAll, List.foldl_append, List.foldl_cons, List.foldl_nil, find?_put, ← putAll, rest,
        Restriction.last?_concat, own]
      split <;> rfl

end RestrictionStore

end Authorization
