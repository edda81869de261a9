import Authorization.Glob.Matching

/-!
# Globs behind escaped texts

Where the reading of a glob begins decides only what its errors say, and whether a path component
begins there matters only in front of two stars (`toOption_readTokens`). The characters of an
escaped text are read as themselves (`readTokens_escapeChar`). So a glob that does not begin with
two stars can be read behind an escaped text exactly if it can be read alone, and then matches,
behind that text, what it matches alone (`parse_escape_append`, `isMatch_behind`).
-/

namespace Authorization.Glob

theorem toOption_map {ε α β : Type} (f : α → β) (outcome : Except ε α) :
    (outcome.map f).toOption = outcome.toOption.map f := by
  cases outcome <;> rfl

/-- Two stars that no component begins with cannot be read. -/
theorem readTokens_two_stars {rest : List Char} (two : ∀ others, rest = '*' :: others → False)
    (position : Nat) :
    readTokens position false ('*' :: '*' :: rest) =
      .error ⟨position - 1, .recursiveWildcards⟩ := by
  rw [readTokens.eq_def]
  split <;> grind

/-- What is read from a place on, as parts of a glob or as the rest of a class, does not depend on
the number of the place. -/
theorem reading_anywhere :
    (∀ position component text, ∀ other first, (['*', '*'] <+: text → component = first) →
      (readTokens position component text).toOption = (readTokens other first text).toOption) ∧
    ∀ opened negated chars position text, ∀ elsewhere other,
      (readClass opened negated chars position text).toOption =
        (readClass elsewhere negated chars other text).toOption := by
  apply readTokens.mutual_induct
  case case1 | case3 | case10 | case12 | case14 => -- the end, and what is refused at once
    intros
    rfl
  case case2 => -- any character
    intro position component rest ih other first _
    rw [readTokens, readTokens, toOption_map, toOption_map, ih (other + 1) false fun _ => rfl]
  case case4 => -- two stars as the last component
    intro position _ other first same
    cases same (List.prefix_refl _)
    rfl
  case case5 => -- two stars as a component
    intro position rest _ ih other first same
    cases same (List.prefix_append ['*', '*'] _)
    simp [readTokens, toOption_map, ih (other + 3) true]
  case case6 => -- two stars at the start of a component that goes on
    intro position rest _ _ _ other first same
    cases same (List.prefix_append ['*', '*'] _)
    simp [readTokens]
    rfl
  case case7 => -- two stars within a component
    intro position component rest two closed other first same
    cases same (List.prefix_append ['*', '*'] _)
    rw [Bool.eq_false_iff.mpr closed, readTokens_two_stars two, readTokens_two_stars two]
    rfl
  case case8 => -- one star
    intro position component rest _ _ ih other first _
    simp [readTokens, toOption_map, ih (other + 1) false]
  case case9 => -- a negated class
    intro position component c rest ih other first _
    simp [readTokens, ih other (other + 3)]
  case case11 => -- a class
    intro position component c rest _ _ ih other first _
    simp [readTokens, ih other (other + 2)]
  case case13 => -- a character that stands for itself
    intro position component c rest _ _ _ _ _ _ _ _ ih other first _
    simp [readTokens, toOption_map, ih (other + 1) (c == '/')]
  case case15 => -- the bracket that closes a class
    intro opened negated chars position rest ih elsewhere other
    simp [readClass, toOption_map, ih (other + 1) false]
  case case16 => -- a character of a class
    intro opened negated chars position c rest inside ih elsewhere other
    simp [readClass, inside, ih elsewhere (other + 1)]

theorem toOption_readTokens {text : List Char} {component first : Bool}
    (same : ['*', '*'] <+: text → component = first) (position other : Nat) :
    (readTokens position component text).toOption = (readTokens other first text).toOption :=
  reading_anywhere.1 position component text other first same

/-- What an escaped character is read as. -/
def escapedClass (c : Char) : CharClass :=
  if c = '?' ∨ c = '*' ∨ c = '[' ∨ c = ']' then .within [(c, c)] else .literal c

theorem admits_escapedClass (c d : Char) : (escapedClass c).admits d = (c == d) := by
  unfold escapedClass
  split
  · have between : c ≤ d ∧ d ≤ c ↔ c = d :=
      ⟨fun both => Char.le_antisymm both.1 both.2, fun same => by simp [same]⟩
    rw [Bool.eq_iff_iff]
    simp [CharClass.admits, CharClass.inRanges, between]
  · rfl

/-- An escaped character is read back as itself, wherever it stands. -/
theorem readTokens_escapeChar (position : Nat) (component : Bool) (c : Char) (rest : List Char) :
    readTokens position component (escapeChar c ++ rest) =
      (readTokens (position + (escapeChar c).length) (c == '/') rest).map
        (.one (escapedClass c) :: ·) := by
  by_cases special : c = '?' ∨ c = '*' ∨ c = '[' ∨ c = ']'
  · have inner : (c == '/') = false := by
      rw [beq_eq_false_iff_ne]
      rintro rfl
      simp at special
    have plain : c ≠ '!' := by
      rintro rfl
      simp at special
    simp [escapeChar, escapedClass, special, readTokens, readClass, plain, inner,
      CharClass.ofBrackets, CharClass.ranges]
  · rw [escapeChar, escapedClass, if_neg special, if_neg special]
    simp only [not_or] at special
    simp [readTokens, special]

/-- An escaped text is read character by character, and then what follows it. -/
theorem toOption_readTokens_escaped {rest : List Char} (single : ¬['*', '*'] <+: rest)
    (path : List Char) (position other : Nat) (component first : Bool) :
    (readTokens position component (path.flatMap escapeChar ++ rest)).toOption =
      (readTokens other first rest).toOption.map
        ((path.map fun c => .one (escapedClass c)) ++ ·) := by
  induction path generalizing position component with
  | nil => simpa using toOption_readTokens (fun two => absurd two single) position other
  | cons c path ih =>
      rw [List.flatMap_cons, List.append_assoc, readTokens_escapeChar, toOption_map, ih,
        Option.map_map]
      rfl

/-- A glob behind a text that stands for itself. -/
def behind (path : String) (glob : Glob) : Glob :=
  ⟨(path.toList.map fun c => .one (escapedClass c)) ++ glob.tokens⟩

/-- A glob behind an escaped path reads as the glob does, behind the characters of the path. -/
theorem parse_escape_append {text : String} (single : ¬['*', '*'] <+: text.toList)
    (path : String) :
    (parse (escape path ++ text)).toOption = (parse text).toOption.map (behind path) := by
  have written : (escape path ++ text).toList = path.toList.flatMap escapeChar ++ text.toList := by
    simp [escape]
  rw [parse, parse, toOption_map, toOption_map, written,
    toOption_readTokens_escaped single path.toList 0 0 true true, Option.map_map, Option.map_map]
  rfl

/-- Behind the characters of a path a glob matches what has the path in front and the glob behind
it. -/
theorem accepts_escaped {tokens : List GlobToken} {path text : List Char} :
    accepts ((path.map fun c => .one (escapedClass c)) ++ tokens) text = true ↔
      ∃ rest, text = path ++ rest ∧ accepts tokens rest = true := by
  induction path generalizing text with
  | nil => simp
  | cons c path ih =>
      cases text with
      | nil => simp [accepts]
      | cons d text =>
          rw [List.map_cons, List.cons_append, accepts, admits_escapedClass, Bool.and_eq_true,
            beq_iff_eq, ih]
          constructor
          · rintro ⟨rfl, rest, rfl, accepted⟩
            exact ⟨rest, rfl, accepted⟩
          · rintro ⟨rest, same, accepted⟩
            obtain ⟨rfl, rfl⟩ := List.cons.inj same
            exact ⟨rfl, rest, rfl, accepted⟩

/-- A star at the end accepts whatever is left. -/
theorem accepts_anyText (text : List Char) : accepts [.anyText] text = true := by
  induction text with
  | nil => rfl
  | cons c text ih =>
      rw [accepts] at ih
      rw [accepts, someSuffix, ih, Bool.or_true]

/-- A glob behind a text matches the texts that go on from there with one that it matches alone. -/
theorem isMatch_behind {path text : String} {glob : Glob} :
    (behind path glob).isMatch text = true ↔
      ∃ rest, text = path ++ rest ∧ glob.isMatch rest = true := by
  rw [isMatch_eq_accepts, behind, accepts_escaped]
  constructor
  · rintro ⟨rest, written, accepted⟩
    refine ⟨String.ofList rest, String.toList_inj.mp ?_, ?_⟩
    · rw [written, String.toList_append, String.toList_ofList]
    · rw [isMatch_eq_accepts, String.toList_ofList, accepted]
  · rintro ⟨rest, rfl, matched⟩
    rw [isMatch_eq_accepts] at matched
    exact ⟨rest.toList, String.toList_append, matched⟩

end Authorization.Glob
