import Authorization.Regex.Reader

/-!
# Supported regular expressions

Not every regular expression can be used. Nesting is limited, names of groups must be distinct, and
a match must be whole characters. Without a database of characters, neither classes such as digits
nor letters without regard to case are known, unless the setting `u` is switched off, where only
ASCII characters count; and word boundaries of all characters are never decided.
-/

namespace Authorization

/-- Why a regular expression cannot be used. -/
inductive RegexFault where
  | unbuildable
  | wordBoundary
  deriving DecidableEq

/-- The settings that hold at a place of a regular expression. -/
structure RegexMode where
  anyCase : Bool := false
  unicode : Bool := true
  deriving DecidableEq

namespace RegexMode

/-- The mode after some settings. -/
def apply (mode : RegexMode) (settings : RegexSettings) : RegexMode where
  anyCase := (settings.switch? 'i').getD mode.anyCase
  unicode := (settings.switch? 'u').getD mode.unicode

/-- Whether a single character can be matched. In ASCII mode two digits denote a byte, which must
be a character. -/
def allowsLiteral (mode : RegexMode) (c : Char) (twoDigits : Bool) : Bool :=
  if mode.unicode then !mode.anyCase else !twoDigits || c.val < 0x80

/-- Whether a character can be in a set. -/
def allowsInSet (mode : RegexMode) (c : Char) : Bool :=
  if mode.unicode then !mode.anyCase else c.val < 0x80

/-- Whether a class such as digits can be matched. -/
def allowsNamed (mode : RegexMode) (negated : Bool) : Bool := !mode.unicode && !negated

/-- Whether a class of ASCII characters can be in a set. -/
def allowsAscii (mode : RegexMode) (negated : Bool) : Bool :=
  if mode.unicode then !mode.anyCase else !negated

/-- Whether a set can be matched as far as its negation goes: the opposite of ASCII characters has
bytes that are no characters. -/
def allowsSet (mode : RegexMode) (negated : Bool) : Bool := mode.unicode || !negated

/-- What is wrong with a character or a place. -/
def atomFaults (mode : RegexMode) : RegexAtom → List RegexFault
  | .literal c twoDigits => if mode.allowsLiteral c twoDigits then [] else [.unbuildable]
  | .named negated => if mode.allowsNamed negated then [] else [.unbuildable]
  | .anchor => []
  | .wordBoundary => if mode.unicode then [.wordBoundary] else []

mutual

/-- Whether all parts of a set are known. -/
def knows (mode : RegexMode) : RegexSet → Bool
  | .union items => mode.knowsItems items
  | .combined left right => mode.knows left && mode.knows right

/-- Whether a part of a set is known. -/
def knowsItem (mode : RegexMode) : RegexSetItem → Bool
  | .literal c _ => mode.allowsInSet c
  | .range first _ last _ => mode.allowsInSet first && mode.allowsInSet last
  | .named negated => mode.allowsNamed negated
  | .ascii negated => mode.allowsAscii negated
  | .nested negated set => mode.allowsSet negated && mode.knows set

/-- Whether some parts of a set are known. -/
def knowsItems (mode : RegexMode) : List RegexSetItem → Bool
  | [] => true
  | item :: items => mode.knowsItem item && mode.knowsItems items

end

end RegexMode

namespace Regex

mutual

/-- What is wrong with an expression in some mode, and the mode behind it. Settings hold on up to
the end of the group that they are in. -/
def faults (mode : RegexMode) : Regex → RegexMode × List RegexFault
  | empty => (mode, [])
  | settings change => (mode.apply change, [])
  | atom one => (mode, mode.atomFaults one)
  | dot => (mode, if mode.unicode then [] else [.unbuildable])
  | set negated chars =>
    (mode, if mode.allowsSet negated && mode.knows chars then [] else [.unbuildable])
  | repetition part => part.faults mode
  | group _ change part => (mode, (part.faults (mode.apply change)).2)
  | row parts => partsFaults mode parts
  | choice parts => partsFaults mode parts

/-- What is wrong with some expressions, and the mode behind them. -/
def partsFaults (mode : RegexMode) : List Regex → RegexMode × List RegexFault
  | [] => (mode, [])
  | part :: parts =>
    let (mode, first) := part.faults mode
    let (mode, others) := partsFaults mode parts
    (mode, first ++ others)

end

/-- The greatest depth of an expression. -/
def depthLimit : Nat := 250

/-- Why a text cannot be used as a regular expression. Word boundaries are the last to be
noticed. -/
def fault? (text : String) : Option RegexFault :=
  match parse? text with
  | none => some .unbuildable
  | some regex =>
    let faults := (regex.faults {}).2
    if depthLimit < regex.depth ∨ ¬ regex.names.Nodup ∨ .unbuildable ∈ faults then
      some .unbuildable
    else faults.head?

end Regex

end Authorization
