import Authorization.Glob.Basic

/-!
# Matching texts with globs

`Glob.accepts` says which texts match, by trying every row of characters that a wildcard may stand
for. `Glob.isMatch` finds the same verdict with one pass over the text for every part of the glob:
it keeps the verdicts on the text and on all that remains of it after any number of characters. The
main statement is `isMatch_eq_accepts`.
-/

namespace Authorization.Glob

/-- Whether the text or a part of it up to its end, the empty one included, satisfies a test. -/
def someSuffix (test : List Char → Bool) : List Char → Bool
  | [] => test []
  | c :: rest => test (c :: rest) || someSuffix test rest

/-- Whether what follows a slash in the text, or the empty text, satisfies a test. -/
def someComponent (test : List Char → Bool) : List Char → Bool
  | [] => test []
  | c :: rest => (c == '/' && test rest) || someComponent test rest

/-- Whether tokens match the whole of a text. -/
def accepts : List GlobToken → List Char → Bool
  | [], text => text.isEmpty
  | .one _ :: _, [] => false
  | .one which :: tokens, c :: text => which.admits c && accepts tokens text
  | .anyText :: tokens, text => someSuffix (accepts tokens) text
  | .anyComponents :: tokens, text => accepts tokens text || someComponent (accepts tokens) text

/-- The verdicts of a test on a text and on all that remains of it after one character, two and so
on. -/
def verdicts (test : List Char → Bool) : List Char → List Bool
  | [] => [test []]
  | c :: rest => test (c :: rest) :: verdicts test rest

/-- The verdicts on a text of which a class takes the first character, from those on the rest. -/
def afterOne (which : CharClass) : List Char → List Bool → List Bool
  | c :: text, _ :: rest => (which.admits c && rest.headD false) :: afterOne which text rest
  | _, _ => [false]

/-- The verdicts on a text of which any row of characters is taken off. -/
def afterText : List Bool → List Bool
  | [] => []
  | verdict :: rest =>
    let others := afterText rest
    (verdict || others.headD false) :: others

/-- The verdicts on a text of which any row of whole components, at least one, is taken off. -/
def afterComponents : List Char → List Bool → List Bool
  | c :: text, _ :: rest =>
    let others := afterComponents text rest
    ((c == '/' && rest.headD false) || others.headD false) :: others
  | _, row => row

/-- The verdicts of some parts on a text and on all that remains of it. -/
def row : List GlobToken → List Char → List Bool
  | [], text => verdicts List.isEmpty text
  | .one which :: tokens, text => afterOne which text (row tokens text)
  | .anyText :: tokens, text => afterText (row tokens text)
  | .anyComponents :: tokens, text =>
    let rest := row tokens text
    List.zipWith (· || ·) rest (afterComponents text rest)

def isMatch (glob : Glob) (text : String) : Bool :=
  (row glob.tokens text.toList).headD false

@[simp] theorem head?_verdicts (test : List Char → Bool) (text : List Char) :
    (verdicts test text).head? = some (test text) := by
  cases text <;> rfl

theorem afterOne_verdicts (which : CharClass) (tokens : List GlobToken) (text : List Char) :
    afterOne which text (verdicts (accepts tokens) text) =
      verdicts (accepts (.one which :: tokens)) text := by
  induction text with
  | nil => rfl
  | cons c rest ih => simp [verdicts, afterOne, accepts, ih]

theorem afterText_verdicts (test : List Char → Bool) (text : List Char) :
    afterText (verdicts test text) = verdicts (someSuffix test) text := by
  induction text with
  | nil => simp [verdicts, afterText, someSuffix]
  | cons c rest ih => simp [verdicts, afterText, someSuffix, ih]

theorem afterComponents_verdicts (test : List Char → Bool) (text : List Char) :
    afterComponents text (verdicts test text) = verdicts (someComponent test) text := by
  induction text with
  | nil => rfl
  | cons c rest ih => simp [verdicts, afterComponents, someComponent, ih]

theorem zipWith_verdicts (first second : List Char → Bool) (text : List Char) :
    List.zipWith (· || ·) (verdicts first text) (verdicts second text) =
      verdicts (fun rest => first rest || second rest) text := by
  induction text with
  | nil => rfl
  | cons c rest ih => simp [verdicts, ih]

/-- The row for some tokens says of every end of the text whether they match it. -/
theorem row_eq_verdicts (tokens : List GlobToken) (text : List Char) :
    row tokens text = verdicts (accepts tokens) text := by
  induction tokens with
  | nil => rfl
  | cons token tokens ih =>
    cases token with
    | one which => rw [row, ih, afterOne_verdicts]
    | anyText => rw [row, ih, afterText_verdicts]; rfl
    | anyComponents => rw [row, ih, afterComponents_verdicts, zipWith_verdicts]; rfl

/-- A whole text matches a glob exactly if its parts accept it. -/
theorem isMatch_eq_accepts (glob : Glob) (text : String) :
    glob.isMatch text = accepts glob.tokens text.toList := by
  simp [isMatch, row_eq_verdicts]

end Authorization.Glob
