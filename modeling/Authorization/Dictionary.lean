/-!
# Dictionaries in ascending order of keys

An association list that its operations keep in ascending order of the keys. `find?_insert` says
what looking up a key gives after a value was put under one, for every list of entries, and
`sorted_insert` that the order is kept.
-/

namespace Authorization

/-- Values under text keys, in ascending order of the keys. -/
abbrev Dictionary (β : Type) := List (String × β)

namespace Dictionary

variable {β : Type}

/-- The value under a key. -/
def find? : Dictionary β → String → Option β
  | [], _ => none
  | (k, v) :: rest, key => if k = key then some v else find? rest key

/-- The dictionary with a value put under a key, in place of the one that was there. -/
def insert : Dictionary β → String → β → Dictionary β
  | [], key, value => [(key, value)]
  | (k, v) :: rest, key, value =>
    if key = k then (key, value) :: rest
    else if key < k then (key, value) :: (k, v) :: rest
    else (k, v) :: insert rest key value

/-- A dictionary without a key, the other entries in their order. -/
def erase : Dictionary β → String → Dictionary β
  | [], _ => []
  | (k, v) :: rest, key => if k = key then rest else (k, v) :: erase rest key

def keys (entries : Dictionary β) : List String := entries.map Prod.fst

/-- The values, in the order of their keys. -/
def values (entries : Dictionary β) : List β := entries.map Prod.snd

/-- The dictionary that holds, for each key, the last of the values listed under it. -/
def ofList (entries : List (String × β)) : Dictionary β :=
  entries.foldl (fun built (key, value) => built.insert key value) []

/-- The keys ascend, so no key occurs twice. -/
def Sorted (entries : Dictionary β) : Prop := entries.Pairwise fun a b => a.1 < b.1

/-- What is found after an insertion: the new value under its key, and all others as before. -/
theorem find?_insert (entries : Dictionary β) (key query : String) (value : β) :
    (entries.insert key value).find? query =
      if key = query then some value else entries.find? query := by
  induction entries with
  | nil => rfl
  | cons entry rest ih =>
    obtain ⟨k, v⟩ := entry
    by_cases same : key = k
    · subst same
      by_cases asked : key = query <;> simp [insert, find?, asked]
    · by_cases smaller : key < k
      · simp [insert, find?, same, smaller]
      · simp only [insert, same, smaller, if_false, find?, ih]
        by_cases here : k = query
        · simp [here, show key ≠ query from fun h => same (h.trans here.symm)]
        · simp [here]

theorem mem_keys_insert {entries : Dictionary β} {key query : String} {value : β} :
    query ∈ (entries.insert key value).keys ↔ query = key ∨ query ∈ entries.keys := by
  induction entries with
  | nil => simp [insert, keys]
  | cons entry rest ih =>
    obtain ⟨k, v⟩ := entry
    simp only [keys] at ih
    simp only [insert, keys]
    split
    · rename_i same
      subst same
      simp
    · split
      · simp
      · simp only [List.map_cons, List.mem_cons, ih]
        constructor
        · rintro (h | h | h) <;> simp [h]
        · rintro (h | h | h) <;> simp [h]

/-- Putting a value under a key keeps the order of the keys. -/
theorem sorted_insert {entries : Dictionary β} (sorted : entries.Sorted) (key : String)
    (value : β) : (entries.insert key value).Sorted := by
  induction entries with
  | nil => simp [insert, Sorted]
  | cons entry rest ih =>
    obtain ⟨k, v⟩ := entry
    obtain ⟨above, tail⟩ := List.pairwise_cons.mp sorted
    simp only [insert]
    split
    · rename_i same
      subst same
      exact List.pairwise_cons.mpr ⟨above, tail⟩
    · rename_i different
      split
      · rename_i smaller
        refine List.pairwise_cons.mpr ⟨?_, sorted⟩
        intro other member
        rcases List.mem_cons.mp member with rfl | deeper
        · exact smaller
        · exact String.lt_trans smaller (above other deeper)
      · rename_i notSmaller
        refine List.pairwise_cons.mpr ⟨?_, ih tail⟩
        intro other member
        have named : other.1 ∈ (insert rest key value).keys := List.mem_map.mpr ⟨other, member, rfl⟩
        rcases mem_keys_insert.mp named with same | deeper
        · rw [same]
          exact Std.lt_of_le_of_ne (String.not_lt.mp notSmaller) (Ne.symm different)
        · obtain ⟨entry, present, keyed⟩ := List.mem_map.mp deeper
          rw [← keyed]
          exact above entry present

/-- What is found under a key is an entry with it. -/
theorem mem_of_find? {entries : Dictionary β} {key : String} {value : β}
    (found : entries.find? key = some value) : (key, value) ∈ entries := by
  induction entries with
  | nil => cases found
  | cons entry rest ih =>
    obtain ⟨k, v⟩ := entry
    by_cases same : k = key
    · simp only [find?, same, if_true, Option.some.injEq] at found
      simp [same, found]
    · simp only [find?, same, if_false] at found
      exact List.mem_cons_of_mem _ (ih found)

/-- In a dictionary in order, every entry is the one found under its key. -/
theorem find?_of_mem {entries : Dictionary β} (sorted : entries.Sorted) {key : String} {value : β}
    (member : (key, value) ∈ entries) : entries.find? key = some value := by
  induction entries with
  | nil => exact absurd member List.not_mem_nil
  | cons entry rest ih =>
    obtain ⟨above, tail⟩ := List.pairwise_cons.mp sorted
    rcases List.mem_cons.mp member with rfl | deeper
    · simp [find?]
    · have smaller : entry.1 < key := above _ deeper
      have different : entry.1 ≠ key := fun same => String.lt_irrefl key (same ▸ smaller)
      simp [find?, different, ih tail deeper]

/-- Texts without repetitions, each where it comes first. -/
def distinct (texts : List String) : List String :=
  keys (texts.foldl (fun (built : Dictionary Unit) text => insert built text ()) [])

/-- Taking out repetitions loses no text. -/
theorem mem_distinct {texts : List String} {text : String} :
    text ∈ distinct texts ↔ text ∈ texts := by
  suffices general : ∀ start : Dictionary Unit,
      text ∈ keys (texts.foldl (fun (built : Dictionary Unit) text => insert built text ()) start) ↔
        text ∈ texts ∨ text ∈ keys start by
    simpa [distinct, keys] using general []
  induction texts with
  | nil => simp
  | cons first rest ih =>
    intro start
    rw [List.foldl_cons, ih, mem_keys_insert, List.mem_cons]
    constructor
    · rintro (h | h | h) <;> simp [h]
    · rintro ((h | h) | h) <;> simp [h]

/-- The distinct texts ascend. -/
theorem sorted_distinct (texts : List String) : (distinct texts).Pairwise (· < ·) := by
  suffices general : ∀ start : Dictionary Unit, start.Sorted →
      Sorted (texts.foldl (fun (built : Dictionary Unit) text => insert built text ()) start) by
    exact List.pairwise_map.mpr (general [] List.Pairwise.nil)
  induction texts with
  | nil => exact fun _ sorted => sorted
  | cons first rest ih => exact fun start sorted => ih _ (sorted_insert sorted first ())

end Dictionary

end Authorization
