/-!
# Decimal numbers

Texts that denote numbers with a fraction or an exponent, as far as whether they do.
-/

namespace Authorization.Text

/-- What follows a sign, if there is one. -/
def dropSign : List Char → List Char
  | '+' :: rest => rest
  | '-' :: rest => rest
  | text => text

/-- Whether a text is empty or an exponent. -/
def isExponent : List Char → Bool
  | [] => true
  | e :: rest =>
    let digits := dropSign rest
    (e == 'e' || e == 'E') && !digits.isEmpty && digits.all Char.isDigit

/-- Whether a text without a sign is a number: at least one digit, possibly with a point before,
among or behind the digits, and possibly an exponent. -/
def isUnsignedDecimal (text : List Char) : Bool :=
  let (whole, rest) := text.span Char.isDigit
  let (fraction, rest) := match rest with
    | '.' :: more => more.span Char.isDigit
    | _ => ([], rest)
  !(whole ++ fraction).isEmpty && isExponent rest

/-- The words for what no digits denote. -/
def decimalWords : List String := ["inf", "infinity", "nan"]

/-- Whether a text is a number with an optional sign, or a word for one in any case. -/
def isDecimal (text : List Char) : Bool :=
  let unsigned := dropSign text
  decimalWords.contains (String.ofList unsigned).toLower || isUnsignedDecimal unsigned

end Authorization.Text
