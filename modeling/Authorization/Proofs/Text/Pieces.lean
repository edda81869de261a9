import Mathlib.Data.List.DropRight
import Mathlib.Data.Nat.Digits.Defs
import Authorization.Text.Blank
import Authorization.Text.Integer
import Authorization.Text.Split

/-!
# Pieces of texts that are read back

Pieces that are written with blanks and a separator between them are found again by cutting at the
separator and taking the blanks off (`map_trimmed_split_joinWith`), and a number that is written in
hexadecimal digits is read back as it was (`unsigned?_toDigits`).
-/

namespace Authorization.Text

section Blanks

variable {before text after : List Char}

theorem trimmed_eq_rdropWhile (text : List Char) :
    trimmed text = (text.dropWhile isBlank).rdropWhile isBlank :=
  rfl

theorem trimmed_append_left (blank : ∀ c ∈ before, isBlank c = true) :
    trimmed (before ++ text) = trimmed text := by
  rw [trimmed, List.dropWhile_append_of_pos blank, trimmed]

theorem trimmed_append_right (blank : ∀ c ∈ after, isBlank c = true) :
    trimmed (text ++ after) = trimmed text := by
  have reversed : ∀ c ∈ after.reverse, isBlank c = true :=
    fun c inside => blank c (List.mem_reverse.mp inside)
  rw [trimmed, trimmed, List.dropWhile_append]
  split
  · rename_i bare
    rw [List.isEmpty_iff.mp bare, List.dropWhile_eq_nil_iff.mpr blank]
  · rw [List.reverse_append, List.dropWhile_append_of_pos reversed]

theorem trimmed_eq_nil_iff : trimmed text = [] ↔ ∀ c ∈ text, isBlank c = true := by
  constructor
  · intro bare c inside
    rw [trimmed_eq_rdropWhile, List.rdropWhile_eq_nil_iff] at bare
    rw [← List.takeWhile_append_dropWhile (p := isBlank) (l := text), List.mem_append] at inside
    exact inside.elim List.mem_takeWhile_imp (bare c)
  · intro blank
    rw [← List.append_nil text, trimmed_append_left blank]
    rfl

/-- Nothing more is taken off a text that has been trimmed. -/
theorem trimmed_trimmed (text : List Char) : trimmed (trimmed text) = trimmed text := by
  have opened : (trimmed text).dropWhile isBlank = trimmed text := by
    rw [List.dropWhile_eq_self_iff]
    intro filled
    have start : trimmed text <+: text.dropWhile isBlank := List.rdropWhile_prefix isBlank _
    rw [start.getElem filled]
    exact List.dropWhile_get_zero_not isBlank text _
  rw [trimmed_eq_rdropWhile (trimmed text), opened, trimmed_eq_rdropWhile,
    List.rdropWhile_idempotent]

theorem trimmed_subset (text : List Char) : trimmed text ⊆ text :=
  List.Subset.trans (List.rdropWhile_prefix isBlank _).subset
    (List.dropWhile_sublist isBlank).subset

end Blanks

section Pieces

variable {separator : Char}

/-- Whether a text is read as one piece: it has neither a separator nor blanks around it. -/
structure IsPiece (separator : Char) (text : List Char) : Prop where
  whole : separator ∉ text
  trimmed : trimmed text = text

theorem isPiece_of_plain {text : List Char}
    (plain : ∀ c ∈ text, isBlank c = false ∧ c ≠ separator) : IsPiece separator text where
  whole inside := (plain separator inside).2 rfl
  trimmed := by
    have ends (c : Char) (inside : c ∈ text) : ¬isBlank c = true := by simp [(plain c inside).1]
    rw [trimmed_eq_rdropWhile,
      List.dropWhile_eq_self_iff.mpr fun filled => ends _ (List.getElem_mem filled),
      List.rdropWhile_eq_self_iff]
    exact fun filled => ends _ (List.getLast_mem filled)

/-- What is cut out of a text between separators is one piece without the blanks around it. -/
theorem isPiece_trimmed {text piece : List Char} (cut : piece ∈ split separator text) :
    IsPiece separator (Text.trimmed piece) where
  whole inside := notMem_of_mem_split cut (trimmed_subset piece inside)
  trimmed := trimmed_trimmed piece

/-- A blank in front of a text changes no piece. -/
theorem map_trimmed_split_cons {c : Char} (blank : isBlank c = true) (other : c ≠ separator)
    (text : List Char) :
    (split separator (c :: text)).map trimmed = (split separator text).map trimmed := by
  rw [split, if_neg other]
  cases pieces : split separator text with
  | nil => exact absurd pieces (split_ne_nil separator text)
  | cons piece pieces =>
      have same : trimmed ([c] ++ piece) = trimmed piece :=
        trimmed_append_left (List.forall_mem_singleton.mpr blank)
      rw [List.singleton_append] at same
      rw [List.map_cons, List.map_cons, same]

/-- Pieces that are written with bars between them are found again. -/
theorem map_trimmed_split_joinWith {pieces : List String} (filled : pieces ≠ [])
    (each : ∀ piece ∈ pieces, IsPiece '|' piece.toList) :
    (split '|' (joinWith " | " pieces).toList).map trimmed = pieces.map String.toList := by
  induction pieces with
  | nil => exact absurd rfl filled
  | cons piece pieces ih =>
      obtain ⟨here, rest⟩ := List.forall_mem_cons.mp each
      cases pieces with
      | nil => simp [joinWith, split_of_notMem here.whole, here.trimmed]
      | cons next pieces =>
          have written : (joinWith " | " (piece :: next :: pieces)).toList =
              (piece.toList ++ [' ']) ++ '|' :: ' ' ::
                (joinWith " | " (next :: pieces)).toList := by
            simp [joinWith]
          have whole : '|' ∉ piece.toList ++ [' '] := by simp [here.whole]
          have trimmed : trimmed (piece.toList ++ [' ']) = piece.toList := by
            rw [trimmed_append_right (List.forall_mem_singleton.mpr rfl), here.trimmed]
          rw [written, split_append_cons whole, List.map_cons, trimmed,
            map_trimmed_split_cons (by decide) (by decide), ih (by simp) rest]
          rfl

end Pieces

section Digits

theorem digitValue?_digitChar : ∀ d < 16, digitValue? 16 (Nat.digitChar d) = some d := by decide

theorem exists_digitChar_of_mem {n : Nat} {c : Char} (inside : c ∈ Nat.toDigits 16 n) :
    ∃ d < 16, c = Nat.digitChar d := by
  induction n using Nat.strongRecOn with
  | ind n ih =>
      rw [Nat.toDigits_eq_if (by decide)] at inside
      split at inside
      · rename_i small
        exact ⟨n, small, List.mem_singleton.mp inside⟩
      · rename_i large
        rcases List.mem_append.mp inside with inside | inside
        · exact ih (n / 16) (by omega) inside
        · exact ⟨n % 16, Nat.mod_lt n (by decide), List.mem_singleton.mp inside⟩

theorem readDigits?_append (base value : Nat) (first second : List Char) :
    readDigits? base value (first ++ second) =
      (readDigits? base value first).bind fun value => readDigits? base value second := by
  induction first generalizing value with
  | nil => rfl
  | cons c first ih =>
      rw [List.cons_append, readDigits?, readDigits?]
      cases digitValue? base c with
      | none => rfl
      | some digit => exact ih _

/-- Hexadecimal digits are read back as the number. -/
theorem readDigits?_toDigits (n : Nat) : readDigits? 16 0 (Nat.toDigits 16 n) = some n := by
  induction n using Nat.strongRecOn with
  | ind n ih =>
      rw [Nat.toDigits_eq_if (by decide)]
      split
      · rename_i small
        simp [readDigits?, digitValue?_digitChar n small]
      · have lower := digitValue?_digitChar (n % 16) (Nat.mod_lt n (by decide))
        rw [readDigits?_append, ih (n / 16) (by omega), Option.bind_some]
        simp [readDigits?, lower, Nat.div_add_mod']

theorem unsigned?_toDigits (n : Nat) : unsigned? 16 (Nat.toDigits 16 n) = some n := by
  have unsigned : ∀ d < 16, Nat.digitChar d ≠ '+' := by decide
  unfold unsigned?
  split
  · rename_i rest digits
    obtain ⟨d, small, same⟩ := exists_digitChar_of_mem (n := n) (c := '+') (by simp [digits])
    exact absurd same.symm (unsigned d small)
  · simp [Nat.toDigits_ne_nil, readDigits?_toDigits]

end Digits

end Authorization.Text
