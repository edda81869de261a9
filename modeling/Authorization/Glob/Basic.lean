import Authorization.Error

/-!
# Globs

A glob is a text with wildcards that a whole other text may match: `?` stands for one character,
`*` for any row of characters, slashes included, and brackets for one character of a class. Two
stars are allowed as a whole path component only and stand for any row of whole components.
-/

namespace Authorization

/-- The sets of characters that a single place in a glob stands for. -/
inductive CharClass where
  | literal (c : Char)
  | any
  /-- The characters in some ranges, both ends included. -/
  | within (ranges : List (Char × Char))
  | outside (ranges : List (Char × Char))
  deriving DecidableEq

/-- The parts of a glob. -/
inductive GlobToken where
  | one (which : CharClass)
  | anyText
  /-- Any row of whole path components, with the slash after them. -/
  | anyComponents
  deriving DecidableEq

namespace CharClass

/-- Whether a character lies in one of some ranges. -/
def inRanges (ranges : List (Char × Char)) (c : Char) : Bool :=
  ranges.any fun (first, last) => first ≤ c && c ≤ last

/-- Whether a character belongs to a class. -/
def admits : CharClass → Char → Bool
  | literal d, c => d == c
  | any, _ => true
  | within ranges, c => inRanges ranges c
  | outside ranges, c => !inRanges ranges c

/-- The ranges that the characters between two brackets denote: a dash between two characters makes
a range of them. -/
def ranges : List Char → List (Char × Char)
  | first :: '-' :: last :: rest => (first, last) :: ranges rest
  | c :: rest => (c, c) :: ranges rest
  | [] => []

/-- The set of characters that brackets list or leave out. -/
def ofBrackets (negated : Bool) (chars : List Char) : CharClass :=
  if negated then outside (ranges chars) else within (ranges chars)

end CharClass

/-- A text with wildcards, read into its parts. -/
structure Glob where
  tokens : List GlobToken
  deriving DecidableEq

namespace Glob

mutual

/-- Reads the parts of a glob. The position counts the characters before; two stars may stand at the
start and after a slash, and a slash or the end must follow them. -/
def readTokens (position : Nat) (component : Bool) :
    List Char → Except PatternError (List GlobToken)
  | [] => .ok []
  | '?' :: rest => (readTokens (position + 1) false rest).map (.one .any :: ·)
  | '*' :: '*' :: '*' :: _ => .error ⟨position + 2, .wildcards⟩
  | '*' :: '*' :: rest =>
    if component then
      match rest with
      | [] => .ok [.anyComponents]
      | '/' :: rest => (readTokens (position + 3) true rest).map (.anyComponents :: ·)
      | _ => .error ⟨position + 2, .recursiveWildcards⟩
    else .error ⟨position - 1, .recursiveWildcards⟩
  | '*' :: rest => (readTokens (position + 1) false rest).map (.anyText :: ·)
  | '[' :: '!' :: c :: rest => readClass position true [c] (position + 3) rest
  | ['[', '!'] => .error ⟨position, .range⟩
  | '[' :: c :: rest => readClass position false [c] (position + 2) rest
  | ['['] => .error ⟨position, .range⟩
  | c :: rest => (readTokens (position + 1) (c == '/') rest).map (.one (.literal c) :: ·)

/-- Reads the rest of a class and what follows it. A bracket that is not the first character of the
class closes it. -/
def readClass (opened : Nat) (negated : Bool) (chars : List Char) (position : Nat) :
    List Char → Except PatternError (List GlobToken)
  | [] => .error ⟨opened, .range⟩
  | c :: rest =>
    if c = ']' then
      (readTokens (position + 1) false rest).map (.one (.ofBrackets negated chars) :: ·)
    else readClass opened negated (chars ++ [c]) (position + 1) rest

end

/-- Reads a glob. -/
def parse (text : String) : Except PatternError Glob :=
  (readTokens 0 true text.toList).map Glob.mk

/-- A character in a glob that stands for itself: what could be read otherwise is put in
brackets. -/
def escapeChar (c : Char) : List Char :=
  if c = '?' ∨ c = '*' ∨ c = '[' ∨ c = ']' then ['[', c, ']'] else [c]

/-- A glob that only matches a text as it is. -/
def escape (text : String) : String := String.ofList (text.toList.flatMap escapeChar)

end Glob

end Authorization
