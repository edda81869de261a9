/-!
# Sets in order

A set is kept as the ascending list of its members. `mem_insert` and `mem_ofList` say which members
it has, for every comparison under which only equal values count as equal.
-/

namespace Authorization

/-- A set whose values are kept as an ascending list. -/
abbrev OrderedSet (α : Type) := List α

namespace OrderedSet

variable {α : Type} [Ord α]

/-- A set with one more value in its place. What compares as equal is there already. -/
def insert (value : α) : OrderedSet α → OrderedSet α
  | [] => [value]
  | first :: rest =>
    match compare value first with
    | .lt => value :: first :: rest
    | .eq => first :: rest
    | .gt => first :: insert value rest

/-- The set of the values in a list. -/
def ofList (values : List α) : OrderedSet α :=
  values.foldl (fun set value => insert value set) []

variable [Std.LawfulEqOrd α]

@[simp] theorem mem_insert {value query : α} {set : OrderedSet α} :
    query ∈ insert value set ↔ query = value ∨ query ∈ set := by
  induction set with
  | nil => simp [insert]
  | cons first rest ih =>
    simp only [insert]
    split
    · simp
    · rename_i same
      rw [Std.compare_eq_iff_eq.mp same]
      simp
    · simp only [List.mem_cons, ih]
      constructor
      · rintro (h | h | h) <;> simp [h]
      · rintro (h | h | h) <;> simp [h]

@[simp] theorem mem_ofList {query : α} {values : List α} :
    query ∈ ofList values ↔ query ∈ values := by
  suffices general : ∀ start : OrderedSet α,
      query ∈ values.foldl (fun set value => insert value set) start ↔
        query ∈ values ∨ query ∈ start by
    simpa [ofList] using general []
  induction values with
  | nil => simp
  | cons first rest ih =>
    intro start
    rw [List.foldl_cons, ih, mem_insert, List.mem_cons]
    constructor
    · rintro (h | h | h) <;> simp [h]
    · rintro ((h | h) | h) <;> simp [h]

end OrderedSet

end Authorization
