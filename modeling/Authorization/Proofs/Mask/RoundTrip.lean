import Authorization.Mask.Text
import Authorization.Proofs.Text.Pieces

/-!
# Masks are read back as they were written

Whatever bits a mask holds, declared or not, its text stands for the same bits
(`parse?_serialize`): the names that are written cover what they stand for and nothing else
(`exists_covers`), and what they leave over follows in digits.
-/

namespace Authorization

/-- Reading succeeds on a list if it succeeds on every member. -/
theorem mapM_eq_some_map {α β : Type} {read : α → Option β} {meaning : α → β} {values : List α}
    (each : ∀ value ∈ values, read value = some (meaning value)) :
    values.mapM read = some (values.map meaning) := by
  induction values with
  | nil => rfl
  | cons value values ih =>
      obtain ⟨here, rest⟩ := List.forall_mem_cons.mp each
      rw [List.mapM_cons, here, ih rest]
      rfl

namespace Mask

variable {v : Vocabulary}

theorem getLsbD_foldl_or (parts : List (String × BitVec 64)) (start : BitVec 64) (i : Nat) :
    ((parts.map Prod.snd).foldl (· ||| ·) start).getLsbD i = true ↔
      start.getLsbD i = true ∨ ∃ part ∈ parts, part.2.getLsbD i = true := by
  induction parts generalizing start with
  | nil => simp
  | cons part parts ih => simp [ih, or_assoc]

/-- What is written of the bits of a mask that remain: names that stand for bits of the mask alone
and, with the bits left over, for all that remain. -/
structure Covers (mask : Mask v) (table : List (String × BitVec 64)) (remaining : BitVec 64)
    (written : List (String × BitVec 64)) (left : BitVec 64) : Prop where
  listed : ∀ flag ∈ written, flag ∈ table
  held : ∀ flag ∈ written, ∀ i, flag.2.getLsbD i = true → i ∈ mask
  left_within : ∀ i, left.getLsbD i = true → remaining.getLsbD i = true
  complete : ∀ i, remaining.getLsbD i = true →
    left.getLsbD i = true ∨ ∃ flag ∈ written, flag.2.getLsbD i = true

/-- What is written of a mask covers it. -/
theorem exists_covers (mask : Mask v) (table : List (String × BitVec 64)) (remaining : BitVec 64) :
    ∃ written left, cover mask table remaining = (written.map Prod.fst, left) ∧
      Covers mask table remaining written left := by
  induction table generalizing remaining with
  | nil =>
      exact ⟨[], remaining, rfl, by simp, by simp, fun _ inside => inside, fun _ => .inl⟩
  | cons entry table ih =>
      rw [cover]
      split
      · -- The entry is written, and the later ones cover what it leaves.
        rename_i taken
        obtain ⟨written, left, result, covers⟩ := ih (remaining &&& ~~~entry.2)
        refine ⟨entry :: written, left, by rw [result]; rfl, ?listed, ?held, ?left, ?complete⟩
        case listed =>
          exact List.forall_mem_cons.mpr
            ⟨List.mem_cons_self,
              fun other inside => List.mem_cons_of_mem _ (covers.listed other inside)⟩
        case held =>
          refine List.forall_mem_cons.mpr ⟨fun i inside => ?_, covers.held⟩
          have both : (entry.2 &&& mask.bits).getLsbD i = true := by rw [taken.1]; exact inside
          rw [BitVec.getLsbD_and, Bool.and_eq_true] at both
          exact both.2
        case left =>
          intro i inside
          have both := covers.left_within i inside
          rw [BitVec.getLsbD_and, Bool.and_eq_true] at both
          exact both.1
        case complete =>
          intro i inside
          by_cases here : entry.2.getLsbD i = true
          · exact .inr ⟨entry, List.mem_cons_self, here⟩
          · have apart : (remaining &&& ~~~entry.2).getLsbD i = true := by
              rw [BitVec.getLsbD_and, BitVec.getLsbD_not, inside, Bool.eq_false_iff.mpr here,
                decide_eq_true (BitVec.lt_of_getLsbD inside)]
              rfl
            refine (covers.complete i apart).imp_right ?_
            rintro ⟨other, listed, held⟩
            exact ⟨other, List.mem_cons_of_mem _ listed, held⟩
      · obtain ⟨written, left, result, covers⟩ := ih remaining
        have listed : ∀ flag ∈ written, flag ∈ entry :: table :=
          fun flag inside => List.mem_cons_of_mem _ (covers.listed flag inside)
        exact ⟨written, left, result, listed, covers.held, covers.left_within, covers.complete⟩

/-- A text that is read as one piece of a mask, and the bits that it stands for. -/
structure Spells (v : Vocabulary) (part : String × BitVec 64) : Prop where
  filled : part.1.toList ≠ []
  isPiece : Text.IsPiece '|' part.1.toList
  read : parsePiece? v part.1.toList = some part.2

/-- The name of a flag is read as its bits. -/
theorem spells_flag {flag : String × BitVec 64} (listed : flag ∈ v.flags) : Spells v flag := by
  have spelled : ∀ flag ∈ v.flags, flag.1.toList ≠ [] ∧ '|' ∉ flag.1.toList ∧
      Text.trimmed flag.1.toList = flag.1.toList ∧
      parsePiece? v flag.1.toList = some flag.2 := by
    cases v <;> decide +kernel
  obtain ⟨filled, whole, trimmed, read⟩ := spelled flag listed
  exact ⟨filled, ⟨whole, trimmed⟩, read⟩

theorem spells_hexadecimal (bits : BitVec 64) : Spells v (hexadecimal bits, bits) := by
  have digits : (hexadecimal bits).toList = '0' :: 'x' :: Nat.toDigits 16 bits.toNat := by
    simp [hexadecimal]
  have plain : ∀ d < 16, Text.isBlank (Nat.digitChar d) = false ∧ Nat.digitChar d ≠ '|' := by
    decide
  refine ⟨by simp [digits], Text.isPiece_of_plain fun c inside => ?_, ?_⟩
  · rw [digits, List.mem_cons, List.mem_cons] at inside
    rcases inside with rfl | rfl | inside
    · decide
    · decide
    · obtain ⟨d, small, rfl⟩ := Text.exists_digitChar_of_mem inside
      exact plain d small
  · have small := bits.isLt
    rw [digits, parsePiece?, Text.unsigned?_toDigits, Option.filter_some, if_pos (by simp; omega)]
    simp

/-- Pieces with bars between them stand for all bits that one of them stands for. -/
theorem parse?_joinWith {parts : List (String × BitVec 64)}
    (spells : ∀ part ∈ parts, Spells v part) :
    (parse? (Text.joinWith " | " (parts.map Prod.fst)) : Option (Mask v)) =
      some ⟨(parts.map Prod.snd).foldl (· ||| ·) 0⟩ := by
  by_cases bare : parts = []
  · subst bare
    rfl
  have pieces : (Text.split '|' (Text.joinWith " | " (parts.map Prod.fst)).toList).map
      Text.trimmed = parts.map (String.toList ∘ Prod.fst) := by
    rw [Text.map_trimmed_split_joinWith (by simpa using bare)
      (List.forall_mem_map.mpr fun part listed => (spells part listed).isPiece), List.map_map]
  have filled : (Text.trimmed (Text.joinWith " | " (parts.map Prod.fst)).toList).isEmpty =
      false := by
    rw [List.isEmpty_eq_false_iff]
    intro empty
    have blank := Text.trimmed_eq_nil_iff.mp empty
    rw [Text.split_of_notMem fun inside => absurd (blank _ inside) (by decide), List.map_singleton,
      empty] at pieces
    obtain ⟨part, listed⟩ := List.exists_mem_of_ne_nil _ bare
    have none : part.1.toList ∈ [[]] := pieces ▸ List.mem_map_of_mem listed
    exact (spells part listed).filled (List.mem_singleton.mp none)
  have read : ((Text.split '|' (Text.joinWith " | " (parts.map Prod.fst)).toList).mapM
      fun piece => parsePiece? v (Text.trimmed piece)) = some (parts.map Prod.snd) :=
    calc
      _ = ((Text.split '|' (Text.joinWith " | " (parts.map Prod.fst)).toList).map
          Text.trimmed).mapM (parsePiece? v) := List.mapM_map.symm
      _ = parts.mapM fun part => parsePiece? v part.1.toList := by rw [pieces, List.mapM_map]; rfl
      _ = _ := mapM_eq_some_map fun part listed => (spells part listed).read
  rw [parse?, filled, read]
  rfl

/-- A mask is read back as it was written. -/
theorem parse?_serialize (mask : Mask v) : parse? mask.serialize = some mask := by
  obtain ⟨written, left, result, covers⟩ := exists_covers mask v.flags mask.bits
  let rest : List (String × BitVec 64) := if left = 0 then [] else [(hexadecimal left, left)]
  have mem_rest {part : String × BitVec 64} :
      part ∈ rest ↔ left ≠ 0 ∧ part = (hexadecimal left, left) := by
    by_cases none : left = 0 <;> simp [rest, none]
  have text : mask.serialize = Text.joinWith " | " ((written ++ rest).map Prod.fst) := by
    have last : (if left = 0 then [] else [hexadecimal left]) = rest.map Prod.fst := by
      unfold rest
      split <;> rfl
    rw [serialize, result, List.map_append, ← last]
  have spells : ∀ part ∈ written ++ rest, Spells v part := by
    intro part inside
    rcases List.mem_append.mp inside with inside | inside
    · exact spells_flag (covers.listed part inside)
    · rw [(mem_rest.mp inside).2]
      exact spells_hexadecimal left
  rw [text, parse?_joinWith spells]
  refine congrArg some (ext fun i => ?_)
  rw [mem_def, getLsbD_foldl_or]
  constructor
  · rintro (none | ⟨part, inside, held⟩)
    · simp at none
    · rcases List.mem_append.mp inside with inside | inside
      · exact covers.held part inside i held
      · rw [(mem_rest.mp inside).2] at held
        exact covers.left_within i held
  · intro member
    refine .inr ?_
    rcases covers.complete i member with loose | ⟨flag, inside, held⟩
    · have filled : left ≠ 0 := by
        rintro rfl
        simp at loose
      exact ⟨_, List.mem_append_right _ (mem_rest.mpr ⟨filled, rfl⟩), loose⟩
    · exact ⟨flag, List.mem_append_left _ inside, held⟩

end Mask

end Authorization
