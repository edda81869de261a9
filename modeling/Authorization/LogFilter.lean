import Authorization.Error
import Authorization.Regex.Support
import Authorization.Text.Decimal

/-!
# Log filters

A log filter is a list of directives between commas. A directive names a target, spans with fields
in brackets, and a level after an equals sign, all but one of which may be left out. A directive is
scanned without the blanks around it, yet its parts are what the untrimmed text holds at the bytes
found, so blanks in front of a directive or behind it spoil it. If a part would start or end inside
a character, it cannot be cut out at all.

A field may ask for a value, which is a number or else a regular expression.
-/

namespace Authorization

/-- Why a log filter cannot be read. -/
inductive LogFilterFault where
  | directive
  | value (fault : RegexFault)
  | level
  /-- A part of a directive starts or ends inside a character. -/
  | torn
  deriving DecidableEq

namespace LogFilterFault

/-- What is said about a log filter that cannot be read. -/
def message : LogFilterFault → String
  | directive => "invalid filter directive"
  | value .unbuildable => "invalid field filter: error building NFA"
  | value .wordBoundary =>
    "invalid field filter: unsupported regex feature for DFAs: cannot build DFAs for regexes " ++
      "with Unicode word boundaries; switch to ASCII word boundaries, or heuristically enable " ++
      "Unicode word boundaries or use a different regex engine"
  | level =>
    "error parsing level filter: expected one of \"off\", \"error\", \"warn\", \"info\", " ++
      "\"debug\", \"trace\", or a number 0-5"
  | torn => "a part of a directive starts or ends inside a character"

end LogFilterFault

namespace LogFilter

/-- What remains of a text after some bytes, which must be whole characters. -/
def dropBytes? : Nat → List Char → Option (List Char)
  | 0, text => some text
  | _ + 1, [] => none
  | count + 1, c :: rest =>
    if c.utf8Size ≤ count + 1 then dropBytes? (count + 1 - c.utf8Size) rest else none

/-- The first bytes of a text, which must be whole characters. -/
def takeBytes? : Nat → List Char → Option (List Char)
  | 0, _ => some []
  | _ + 1, [] => none
  | count + 1, c :: rest =>
    if c.utf8Size ≤ count + 1 then (takeBytes? (count + 1 - c.utf8Size) rest).map (c :: ·)
    else none

/-- The part of a text between two numbers of bytes. -/
def cut (text : List Char) (start stop : Nat) : Except LogFilterFault (List Char) :=
  match (dropBytes? start text).bind (takeBytes? (stop - start)) with
  | some part => .ok part
  | none => .error .torn

/-- Where the scan of a directive stands. -/
inductive Scan where
  | start
  | levelOrTarget
  /-- In the name of a span that starts after some bytes. -/
  | span (offset : Nat)
  /-- In a field of a span that starts after some bytes. -/
  | field (offset : Nat)
  | fields
  | spanned
  /-- In a level that starts after some bytes. -/
  | level (offset : Nat)
  deriving DecidableEq

/-- Whether a directive may start with a character. -/
def isFirst (c : Char) : Bool := c == '-' || c == ':' || c == '_' || Text.isAlphanumeric c

/-- What is wrong with a value that a field asks for. -/
def valueFault? (value : List Char) : Option LogFilterFault :=
  if Text.isDecimal value then none
  else (Regex.fault? (String.ofList value)).map .value

/-- What is wrong with a field: it must not be nothing, and the value after an equals sign counts up
to the next one. -/
def fieldFault? (field : List Char) : Option LogFilterFault :=
  if field.isEmpty then some .directive
  else match Text.split '=' field with
    | _ :: value :: _ => valueFault? value
    | _ => none

/-- The scan of a directive after one more character, in front of which stand some bytes. A part
that ends here is cut out. -/
def step (directive : List Char) (scan : Scan) (offset : Nat) (c : Char) :
    Except LogFilterFault Scan :=
  match scan with
  | .start =>
    if c = '[' then .ok (.span (offset + 1))
    else if isFirst c then .ok .levelOrTarget
    else .error .directive
  | .levelOrTarget =>
    if c = '=' then (cut directive 0 offset).map fun _ => .level (offset + 1)
    else if c = '[' then (cut directive 0 offset).map fun _ => .span (offset + 1)
    else .ok .levelOrTarget
  | .span start =>
    if c = ']' then (cut directive start offset).map fun _ => .spanned
    else if c = '\x7b' then (cut directive start offset).map fun _ => .field (offset + 1)
    else .ok (.span start)
  | .field start =>
    if c = '\x7d' then
      (cut directive start offset).bind fun field =>
        match fieldFault? field with
        | some fault => .error fault
        | none => .ok .fields
    else .ok (.field start)
  | .fields => if c = ']' then .ok .spanned else .error .directive
  | .spanned => if c = '=' then .ok (.level (offset + 1)) else .error .directive
  | .level start => .ok (.level start)

/-- The scan of a directive after a text, in front of which stand some bytes. -/
def scan (directive : List Char) : Scan → Nat → List Char → Except LogFilterFault Scan
  | state, _, [] => .ok state
  | state, offset, c :: rest => (step directive state offset c).bind fun next =>
      scan directive next (offset + c.utf8Size) rest

/-- The words for the levels, from the one that logs nothing on. -/
def levelWords : List String := ["off", "error", "warn", "info", "debug", "trace"]

/-- Whether a text is a level: a number up to five, a word in any case, or nothing. -/
def isLevel (text : String) : Bool :=
  (match Text.unsigned? 10 text.toList with
    | some number => number ≤ 5
    | none => false) ||
  text == "" || levelWords.contains text.toLower

/-- What is wrong with one directive, if anything is. -/
def directiveFault? (directive : String) : Option LogFilterFault :=
  let chars := directive.toList
  match scan chars .start 0 (Text.trimmed chars) with
  | .ok .levelOrTarget | .ok .spanned => none
  | .ok (.level offset) =>
    match dropBytes? offset chars with
    | some level => if isLevel (String.ofList level) then none else some .level
    | none => some .torn
  | .ok _ => some .directive
  | .error fault => some fault

/-- What is wrong with a log filter: the fault of its first faulty directive. Nothing between two
commas is no directive. -/
def fault? (text : String) : Option LogFilterFault :=
  ((Text.pieces ',' text).filter (· ≠ "")).findSome? directiveFault?

/-- Accepts a log level, or says why it cannot be used. -/
def check (text : String) : Except AuthorizationError Unit :=
  match fault? text with
  | some fault => .error (.invalidConfiguration (.logLevel text fault.message))
  | none => .ok ()

end LogFilter

end Authorization
