import Authorization.Decision.Answers

/-!
# Console lines

Decisions as lines of text. With colours, a styled text stands between an escape sequence that
lists its style and colour and one that resets them.
-/

namespace Authorization

/-- A terminal colour. -/
inductive Color where
  | black
  | red
  | green
  | yellow
  | blue
  | magenta
  | cyan
  | white
  | brightBlack
  | brightRed
  | brightGreen
  | brightYellow
  | brightBlue
  | brightMagenta
  | brightCyan
  | brightWhite
  deriving DecidableEq

namespace Color

/-- The colours by their names, in lower case. -/
def names : List (String × Color) :=
  [("black", black), ("red", red), ("green", green), ("yellow", yellow), ("blue", blue),
    ("magenta", magenta), ("purple", magenta), ("cyan", cyan), ("white", white),
    ("bright black", brightBlack), ("bright red", brightRed), ("bright green", brightGreen),
    ("bright yellow", brightYellow), ("bright blue", brightBlue),
    ("bright magenta", brightMagenta), ("bright cyan", brightCyan), ("bright white", brightWhite)]

/-- A character of a name in lower case. Besides the ASCII letters, the Kelvin sign is a letter of
a name in upper case. -/
def lowered (c : Char) : Char := if c = '\u212a' then 'k' else c.toLower

/-- The colour of a name in any case; unknown names are white. -/
def ofName (name : String) : Color :=
  let lower := String.ofList (name.toList.map lowered)
  ((names.find? fun entry => entry.1 == lower).map Prod.snd).getD white

/-- The number of a colour for text. -/
def code : Color → Nat
  | black => 30
  | red => 31
  | green => 32
  | yellow => 33
  | blue => 34
  | magenta => 35
  | cyan => 36
  | white => 37
  | brightBlack => 90
  | brightRed => 91
  | brightGreen => 92
  | brightYellow => 93
  | brightBlue => 94
  | brightMagenta => 95
  | brightCyan => 96
  | brightWhite => 97

end Color

/-- How a text looks. -/
structure Style where
  bold : Bool := false
  dimmed : Bool := false
  color : Option Color := none

namespace Style

/-- The character that starts a control sequence. -/
def escape : Char := '\x1b'

/-- The sequence that resets all styles. -/
def reset : List Char := escape :: "[0m".toList

/-- The control sequence that switches a style on. -/
def sequence (style : Style) : List Char :=
  let codes := (if style.bold then ["1"] else []) ++ (if style.dimmed then ["2"] else []) ++
    (match style.color with
      | some color => [toString color.code]
      | none => [])
  escape :: '[' :: (Text.joinWith ";" codes).toList ++ ['m']

/-- A text in which a sequence follows every reset, so that a style survives it. -/
def restore (sequence : List Char) : List Char → List Char
  | [] => []
  | '\x1b' :: '[' :: '0' :: 'm' :: rest => reset ++ sequence ++ restore sequence rest
  | c :: rest => c :: restore sequence rest

/-- A text in a style, which is switched on again wherever the text itself resets it. -/
def apply (style : Style) (text : String) : String :=
  String.ofList (style.sequence ++ restore style.sequence text.toList ++ reset)

end Style

/-- How decisions are shown: whether in colours, and in which. -/
structure Console where
  styled : Bool
  granted : Color := .green
  denied : Color := .red
  path : Color := .cyan

namespace Console

/-- A text in a style, if styles are shown at all. -/
def paint (console : Console) (style : Style) (text : String) : String :=
  if console.styled then style.apply text else text

/-- How a path is shown. -/
def showPath (console : Console) (path : String) : String :=
  console.paint { bold := true, color := some console.path } path

/-- How an outcome is shown. -/
def showDecision (console : Console) (granted : Bool) : String :=
  if granted then console.paint { bold := true, color := some console.granted } "✓ granted"
  else console.paint { bold := true, color := some console.denied } "✗ denied"

/-- How a read flag is shown, by whether it is set. -/
def showFlag (console : Console) (label : String) (granted : Bool) : String :=
  if granted then console.paint { color := some console.granted } label
  else console.paint { dimmed := true, color := some console.denied } label

/-- The line about one decision: the path, what was asked, and the outcome. -/
def renderDecision (console : Console) (path request : String) (granted : Bool) : String :=
  Text.joinWith " " [console.showPath path, request, console.showDecision granted]

/-- The line for the answers of a decision of some kind about a place on a walk. -/
def renderStep (console : Console) (path kind : String) (answers : NodeAnswers) : String :=
  Text.joinWith " "
    [console.showPath path, "[" ++ console.paint { dimmed := true } kind ++ "]",
      console.showFlag "read" answers.canRead, console.showFlag "read-all" answers.canReadAll,
      console.showFlag "read-properties" answers.canReadProperties,
      console.showFlag "write" (answers.isGranted .write)]

/-- The lines about the privileges at a path, the path's first. -/
def renderPrivileges (console : Console) (path : String) (privileges : List String) :
    List String :=
  console.showPath path ::
    if privileges.isEmpty then ["  " ++ console.paint { dimmed := true } "(none)"]
    else privileges.map fun name => "  " ++ console.paint { color := some console.granted } name

/-- A line of information. -/
def renderInfo (console : Console) (text : String) : String :=
  console.paint { bold := true, color := some .yellow } "Info:" ++ " " ++ text

/-- A line about an error. -/
def renderError (console : Console) (text : String) : String :=
  console.paint { bold := true, color := some .red } "Error:" ++ " " ++ text

end Console

namespace NodePermission

/-- The word for a kind of decisions, as console lines show it. -/
def kindLabel {D : Type} : NodePermission D → String
  | all => "all"
  | empty => "empty"
  | noRecourse => "no-recourse"
  | decided _ => "leaf"

end NodePermission

namespace TreePermission

/-- The word for a kind of decisions, as console lines show it. -/
def kindLabel {L D : Type} : TreePermission L D → String
  | node permission => permission.kindLabel
  | combined _ _ => "composite"

/-- The console line for a decision about a place. -/
def renderStep {m : Type → Type} {L D : Type} [NodeDecision D] (permission : TreePermission L D)
    (snapshot : Snapshot m L D) (console : Console) (path : String) : String :=
  console.renderStep path permission.kindLabel (permission.answers snapshot)

end TreePermission

end Authorization
