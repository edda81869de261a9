import Authorization.Regex.Basic
import Authorization.Text.Alphanumeric
import Authorization.Text.Blank
import Authorization.Text.Integer

/-!
# Reading regular expressions

A text is read to the end or refused. Within it, the setting `x` says that blanks and comments
between the parts do not count. Counts of repetitions, properties of characters and everything else
in braces are not known: a brace that opens one of them is refused.
-/

namespace Authorization

namespace RegexReader

/-! ## Blanks -/

/-- The text after the blanks and comments in front of it. A comment ends with its line. -/
def skipBlanks (comment : Bool) : List Char → List Char
  | [] => []
  | c :: rest =>
    if comment then skipBlanks (c != '\n') rest
    else if Text.isBlank c then skipBlanks false rest
    else if c = '#' then skipBlanks true rest
    else c :: rest

/-- The text after what does not count in front of it. -/
def skip (loose : Bool) (text : List Char) : List Char :=
  if loose then skipBlanks false text else text

/-- The character that decides what a dash in front of a text is: the first one, or where blanks do
not count, the first after blanks, one number sign and more blanks. -/
def peek (loose : Bool) (text : List Char) : Option Char :=
  if loose then
    match text.dropWhile Text.isBlank with
    | '#' :: rest => (rest.dropWhile Text.isBlank).head?
    | rest => rest.head?
  else text.head?

/-! ## Single characters -/

/-- The number that hexadecimal digits denote, after the digits already read. -/
def readHexadecimal? (loose : Bool) : Nat → Nat → List Char → Option (Nat × List Char)
  | 0, value, text => some (value, text)
  | count + 1, value, text =>
    match skip loose text with
    | [] => none
    | c :: rest => (Text.digitValue? 16 c).bind fun digit =>
        readHexadecimal? loose count (value * 16 + digit) rest

/-- The character with a code of some hexadecimal digits. -/
def readCode? (loose : Bool) (count : Nat) (text : List Char) : Option (RegexAtom × List Char) :=
  match readHexadecimal? loose count 0 text with
  | some (code, rest) =>
    if code.isValidChar then some (.literal (Char.ofNat code) (count == 2), rest) else none
  | none => none

/-- The characters that a letter after a backslash stands for. -/
def controls : List (Char × Char) :=
  [('a', '\x07'), ('f', '\x0c'), ('t', '\t'), ('n', '\n'), ('r', '\r'), ('v', '\x0b')]

/-- Whether a character stands for itself after a backslash: ASCII signs but the angles. -/
def isEscapable (c : Char) : Bool :=
  c.val < 0x80 && !c.isAlphanum && c != '<' && c != '>'

/-- What a character after a backslash stands for, unless hexadecimal digits follow it. -/
def atomOf? (c : Char) : Option RegexAtom :=
  if isEscapable c then some (.literal c false)
  else if ['d', 's', 'w'].contains c then some (.named false)
  else if ['D', 'S', 'W'].contains c then some (.named true)
  else if ['A', 'z'].contains c then some .anchor
  else if ['b', 'B', '<', '>'].contains c then some .wordBoundary
  else (controls.find? fun control => control.1 == c).map fun control => .literal control.2 false

/-- Reads what follows a backslash. -/
def readEscape? (loose : Bool) : List Char → Option (RegexAtom × List Char)
  | [] => none
  | 'x' :: rest => readCode? loose 2 rest
  | 'u' :: rest => readCode? loose 4 rest
  | 'U' :: rest => readCode? loose 8 rest
  | 'b' :: '\x7b' :: _ => none
  | c :: rest => (atomOf? c).map fun atom => (atom, rest)

/-! ## Groups -/

/-- What an opening parenthesis begins. -/
inductive Opening where
  | settings (settings : RegexSettings)
  | group (name : Option (List Char)) (settings : RegexSettings)

/-- The letters of the settings there are. -/
def settingLetters : List Char := ['i', 'm', 's', 'R', 'U', 'u', 'x']

/-- Reads settings up to the colon or the closing parenthesis behind them. A dash switches off what
follows it, which must be something. -/
def readSettings? (settings : RegexSettings) (negated : Bool) :
    List Char → Option (RegexSettings × Char × List Char)
  | [] => none
  | c :: rest =>
    if c = ':' ∨ c = ')' then
      if negated && settings.off.isEmpty then none else some (settings, c, rest)
    else if c = '-' then if negated then none else readSettings? settings true rest
    else if settingLetters.contains c then
      (settings.add? c negated).bind fun settings => readSettings? settings negated rest
    else none

/-- Whether a character may stand in the name of a group. -/
def isNameChar (first : Bool) (c : Char) : Bool :=
  c == '_' ||
    if first then Text.isAlphabetic c
    else Text.isAlphanumeric c || c == '.' || c == '[' || c == ']'

/-- Reads the name of a group up to the angle behind it. -/
def readName? (name : List Char) : List Char → Option (List Char × List Char)
  | [] => none
  | c :: rest =>
    if c = '>' then if name.isEmpty then none else some (name, rest)
    else if isNameChar name.isEmpty c then readName? (name ++ [c]) rest
    else none

/-- Reads what follows an opening parenthesis. Looking ahead or behind is not possible. -/
def readOpening? (loose : Bool) (text : List Char) : Option (Opening × List Char) :=
  match skip loose text with
  | '?' :: '<' :: '=' :: _ => none
  | '?' :: '<' :: '!' :: _ => none
  | '?' :: 'P' :: '<' :: rest => (readName? [] rest).map fun (name, rest) =>
      (.group (some name) {}, rest)
  | '?' :: '<' :: rest => (readName? [] rest).map fun (name, rest) =>
      (.group (some name) {}, rest)
  | '?' :: rest =>
    match readSettings? {} false rest with
    | some (settings, ':', rest) => some (.group none settings, rest)
    | some (settings, _, rest) => if settings = {} then none else some (.settings settings, rest)
    | none => none
  | rest => some (.group none {}, rest)

/-! ## Sets -/

/-- The names of classes of ASCII characters. -/
def asciiClasses : List String :=
  ["alnum", "alpha", "ascii", "blank", "cntrl", "digit", "graph", "lower", "print", "punct", "space",
    "upper", "word", "xdigit"]

/-- Reads a class of ASCII characters after its opening bracket. -/
def readAsciiClass? : List Char → Option (RegexSetItem × List Char)
  | ':' :: rest =>
    let (negated, rest) := match rest with
      | '^' :: more => (true, more)
      | _ => (false, rest)
    match rest.span (· != ':') with
    | (name, ':' :: ']' :: left) =>
      if asciiClasses.contains (String.ofList name) then some (.ascii negated, left) else none
    | _ => none
  | _ => none

/-- Reads a character of a set, or what a backslash stands for in it. -/
def readSetAtom? (loose : Bool) : List Char → Option (RegexAtom × List Char)
  | [] => none
  | '\\' :: rest => readEscape? loose rest
  | c :: rest => some (.literal c false, rest)

/-- What stands for one place in a text as a part of a set: places between characters do not. -/
def itemOf? : RegexAtom → Option RegexSetItem
  | .literal c twoDigits => some (.literal c twoDigits)
  | .named negated => some (.named negated)
  | _ => none

/-- The characters between two, in their order. -/
def rangeOf? : RegexAtom → RegexAtom → Option RegexSetItem
  | .literal first firstTwo, .literal last lastTwo =>
    if first ≤ last then some (.range first firstTwo last lastTwo) else none
  | _, _ => none

/-- Reads a character or a range of a set. A dash in front of a closing bracket or of another dash
makes no range. -/
def readSetItem? (loose : Bool) (text : List Char) : Option (RegexSetItem × List Char) :=
  match readSetAtom? loose text with
  | none => none
  | some (first, rest) =>
    match skip loose rest with
    | [] => none
    | '-' :: more =>
      if peek loose more = some ']' ∨ peek loose more = some '-' then
        (itemOf? first).map fun item => (item, '-' :: more)
      else
        match readSetAtom? loose (skip loose more) with
        | some (last, left) => (rangeOf? first last).map fun item => (item, left)
        | none => none
    | rest => (itemOf? first).map fun item => (item, rest)

/-- A set from what stands before the last operation, if there is one, and the parts after it, the
last one first. -/
def setOf (before : Option RegexSet) (items : List RegexSetItem) : RegexSet :=
  match before with
  | some set => .combined set (.union items.reverse)
  | none => .union items.reverse

mutual

/-- Reads a set after its opening bracket up to its closing one. -/
def readSet? : Nat → Bool → List Char → Option (Bool × RegexSet × List Char)
  | 0, _, _ => none
  | fuel + 1, loose, text =>
    let (negated, text) := match skip loose text with
      | '^' :: rest => (true, rest)
      | rest => (false, rest)
    (readSetItems? fuel loose true none [] text).map fun (set, left) => (negated, set, left)

/-- Reads the parts of a set up to its closing bracket. At the start, dashes stand for themselves,
and so does a closing bracket that comes first. -/
def readSetItems? : Nat → Bool → Bool → Option RegexSet → List RegexSetItem → List Char →
    Option (RegexSet × List Char)
  | 0, _, _, _, _, _ => none
  | fuel + 1, loose, start, before, items, text =>
    match skip loose text with
    | [] => none
    | c :: rest =>
      if start && c == '-' then
        readSetItems? fuel loose true before (.literal c false :: items) rest
      else if start && items.isEmpty && c == ']' then
        readSetItems? fuel loose false before [.literal c false] rest
      else if c = '[' then
        match readAsciiClass? rest with
        | some (item, left) => readSetItems? fuel loose false before (item :: items) left
        | none =>
          match readSet? fuel loose rest with
          | some (negated, set, left) =>
            readSetItems? fuel loose false before (.nested negated set :: items) left
          | none => none
      else if c = ']' then some (setOf before items, rest)
      else if (c = '&' ∨ c = '-' ∨ c = '~') ∧ rest.head? = some c then
        readSetItems? fuel loose false (some (setOf before items)) [] rest.tail
      else
        match readSetItem? loose (c :: rest) with
        | some (item, left) => readSetItems? fuel loose false before (item :: items) left
        | none => none

end

/-! ## Expressions -/

/-- The text after the question mark behind a repetition, which makes it match as little as
possible. -/
def skipLazy : List Char → List Char
  | '?' :: rest => rest
  | text => text

/-- Reads a character or a place outside of sets. -/
def readAtom? (loose : Bool) (c : Char) (rest : List Char) : Option (Regex × List Char) :=
  if c = '\\' then (readEscape? loose rest).map fun (atom, left) => (.atom atom, left)
  else if c = '.' then some (.dot, rest)
  else if c = '^' ∨ c = '$' then some (.atom .anchor, rest)
  else if c = '\x7b' then none
  else some (.atom (.literal c false), rest)

mutual

/-- Reads expressions between bars up to a closing parenthesis or the end. -/
def readChoice? : Nat → Bool → List Char → Option (List Regex × List Char)
  | 0, _, _ => none
  | fuel + 1, loose, text =>
    match readRow? fuel loose [] text with
    | some (row, loose, '|' :: rest) =>
      (readChoice? fuel loose rest).map fun (others, left) => (.ofRow row :: others, left)
    | some (row, _, left) => some ([.ofRow row], left)
    | none => none

/-- Reads expressions in a row up to a bar, a closing parenthesis or the end, after some already
read, the last one first. Settings hold on in the row and behind it. -/
def readRow? : Nat → Bool → List Regex → List Char → Option (List Regex × Bool × List Char)
  | 0, _, _, _ => none
  | fuel + 1, loose, done, text =>
    match skip loose text with
    | [] => some (done.reverse, loose, [])
    | c :: rest =>
      if c = '|' ∨ c = ')' then some (done.reverse, loose, c :: rest)
      else if c = '(' then
        match readOpening? loose rest with
        | some (.settings settings, rest) =>
          readRow? fuel ((settings.switch? 'x').getD loose) (.settings settings :: done) rest
        | some (.group name settings, rest) =>
          match readChoice? fuel ((settings.switch? 'x').getD loose) rest with
          | some (parts, ')' :: left) =>
            readRow? fuel loose (.group name settings (.ofChoice parts) :: done) left
          | _ => none
        | none => none
      else if c = '[' then
        match readSet? fuel loose rest with
        | some (negated, set, left) => readRow? fuel loose (.set negated set :: done) left
        | none => none
      else if c = '?' ∨ c = '*' ∨ c = '+' then
        match done with
        | [] => none
        | last :: before =>
          if last.isSettings then none
          else readRow? fuel loose (.repetition last :: before) (skipLazy rest)
      else
        match readAtom? loose c rest with
        | some (part, left) => readRow? fuel loose (part :: done) left
        | none => none

end

end RegexReader

/-- Reads a regular expression. Every step of reading takes a character or opens a choice, so twice
the length of the text bounds the steps. -/
def Regex.parse? (text : String) : Option Regex :=
  let chars := text.toList
  match RegexReader.readChoice? (2 * chars.length + 2) false chars with
  | some (parts, []) => some (.ofChoice parts)
  | _ => none

end Authorization
