/-!
# Cutting texts at a separator

Lists of characters are cut at every occurrence of a separator (`split`) or around the last one
(`splitLast?`). No piece contains the separator (`notMem_of_mem_split`), and a text with a separator
is cut just there (`split_append_cons`).
-/

namespace Authorization.Text

/-- The pieces between the separators of a text, empty pieces included. There is always at least
one piece. -/
def split (separator : Char) : List Char → List (List Char)
  | [] => [[]]
  | c :: rest =>
    if c = separator then [] :: split separator rest
    else match split separator rest with
      | [] => [[c]]
      | piece :: pieces => (c :: piece) :: pieces

/-- What stands before the last separator and after it, if there is one. -/
def splitLast? (separator : Char) : List Char → Option (List Char × List Char)
  | [] => none
  | c :: rest =>
    match splitLast? separator rest with
    | some (before, after) => some (c :: before, after)
    | none => if c = separator then some ([], rest) else none

/-- What stands before the first separator and after it, if there is one. -/
def splitFirst? (separator : Char) : List Char → Option (List Char × List Char)
  | [] => none
  | c :: rest =>
    if c = separator then some ([], rest)
    else (splitFirst? separator rest).map fun (before, after) => (c :: before, after)

/-- What remains of a text once the given beginning is taken off, if the text begins so. -/
def dropStart? : List Char → List Char → Option (List Char)
  | [], text => some text
  | _ :: _, [] => none
  | c :: start, d :: text => if c = d then dropStart? start text else none

/-- Pieces put together again with a separator between them. -/
def join (separator : Char) : List (List Char) → List Char
  | [] => []
  | [piece] => piece
  | piece :: next :: pieces => piece ++ separator :: join separator (next :: pieces)

/-- Texts in a row, with another between any two of them. -/
def joinWith (between : String) : List String → String
  | [] => ""
  | [text] => text
  | text :: next :: texts => text ++ between ++ joinWith between (next :: texts)

def pieces (separator : Char) (text : String) : List String :=
  (split separator text.toList).map String.ofList

/-- There is always at least one piece. -/
theorem split_ne_nil (separator : Char) (text : List Char) : split separator text ≠ [] := by
  cases text with
  | nil => simp [split]
  | cons c rest =>
    simp only [split]
    split
    · simp
    · split <;> simp

/-- No piece contains the separator. -/
theorem notMem_of_mem_split {separator : Char} {text piece : List Char}
    (member : piece ∈ split separator text) : separator ∉ piece := by
  induction text generalizing piece with
  | nil =>
    simp only [split, List.mem_singleton] at member
    simp [member]
  | cons c rest ih =>
    by_cases same : c = separator
    · simp only [split, same, if_true, List.mem_cons] at member
      rcases member with rfl | member
      · simp
      · exact ih member
    · cases pieces : split separator rest with
      | nil => exact absurd pieces (split_ne_nil separator rest)
      | cons first others =>
        simp only [split, same, if_false, pieces, List.mem_cons] at member
        rcases member with rfl | member
        · have absent : separator ∉ first := ih (by simp [pieces])
          simp [absent, Ne.symm same]
        · exact ih (by simp [pieces, member])

/-- Taking off a beginning succeeds exactly if the text begins so. -/
theorem dropStart?_eq_some_iff {start text rest : List Char} :
    dropStart? start text = some rest ↔ text = start ++ rest := by
  induction start generalizing text with
  | nil => simp [dropStart?]
  | cons c start ih =>
    cases text with
    | nil => simp [dropStart?]
    | cons d text =>
      by_cases same : c = d
      · simp [dropStart?, same, ih]
      · simp [dropStart?, same, Ne.symm same]

/-- A text is cut around its first separator exactly if the first part has none. -/
theorem splitFirst?_eq_some_iff {separator : Char} {text before after : List Char} :
    splitFirst? separator text = some (before, after) ↔
      text = before ++ separator :: after ∧ separator ∉ before := by
  induction text generalizing before with
  | nil => simp [splitFirst?]
  | cons c rest ih =>
    by_cases same : c = separator
    · cases before with
      | nil => simp [splitFirst?, same]
      | cons d before =>
        simp only [splitFirst?, same, if_true, Option.some.injEq, Prod.mk.injEq, reduceCtorEq,
          false_and, List.cons_append, List.cons.injEq, List.mem_cons, not_or, false_iff]
        rintro ⟨⟨first, -⟩, different, -⟩
        exact different first
    · cases before with
      | nil => simp [splitFirst?, same]
      | cons d before =>
        have inner := @ih before
        simp only [splitFirst?, same, if_false, Option.map_eq_some_iff, Prod.mk.injEq, Prod.exists,
          List.cons.injEq, List.cons_append, List.mem_cons, not_or]
        constructor
        · rintro ⟨first, second, cut, ⟨rfl, rfl⟩, rfl⟩
          obtain ⟨whole, absent⟩ := inner.mp cut
          exact ⟨⟨rfl, whole⟩, Ne.symm same, absent⟩
        · rintro ⟨⟨rfl, whole⟩, -, absent⟩
          exact ⟨before, after, inner.mpr ⟨whole, absent⟩, ⟨rfl, rfl⟩, rfl⟩

/-- The two parts around the last separator make up the text, and the second has no separator. -/
theorem eq_of_splitLast? {separator : Char} {text before after : List Char}
    (found : splitLast? separator text = some (before, after)) :
    text = before ++ separator :: after ∧ separator ∉ after := by
  induction text generalizing before with
  | nil => simp [splitLast?] at found
  | cons c rest ih =>
    cases inner : splitLast? separator rest with
    | some parts =>
      obtain ⟨first, second⟩ := parts
      simp only [splitLast?, inner, Option.some.injEq, Prod.mk.injEq] at found
      obtain ⟨rfl, rfl⟩ := found
      obtain ⟨whole, absent⟩ := ih inner
      exact ⟨by rw [whole]; rfl, absent⟩
    | none =>
      simp only [splitLast?, inner] at found
      split at found
      · rename_i same
        simp only [Option.some.injEq, Prod.mk.injEq] at found
        obtain ⟨rfl, rfl⟩ := found
        refine ⟨by simp [same], ?_⟩
        intro member
        have general : ∀ {cs : List Char}, separator ∈ cs → splitLast? separator cs ≠ none := by
          intro cs
          induction cs with
          | nil => simp
          | cons d cs ihc =>
            intro present
            simp only [splitLast?]
            split
            · simp
            · rename_i missing
              rcases List.mem_cons.mp present with rfl | deeper
              · simp
              · exact absurd missing (ihc deeper)
        exact general member inner
      · exact absurd found (by simp)

/-- A text without the separator is its own only piece. -/
theorem split_of_notMem {separator : Char} {text : List Char} (absent : separator ∉ text) :
    split separator text = [text] := by
  induction text with
  | nil => rfl
  | cons c rest ih =>
    simp only [List.mem_cons, not_or] at absent
    simp [split, Ne.symm absent.1, ih absent.2]

/-- A text that begins without the separator up to one is cut there. -/
theorem split_append_cons {separator : Char} {piece : List Char} (absent : separator ∉ piece)
    (rest : List Char) :
    split separator (piece ++ separator :: rest) = piece :: split separator rest := by
  induction piece with
  | nil => simp [split]
  | cons c piece ih =>
    simp only [List.mem_cons, not_or] at absent
    simp [split, Ne.symm absent.1, ih absent.2]

end Authorization.Text
