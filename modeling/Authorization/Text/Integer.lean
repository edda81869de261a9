/-!
# Decimal integers

Reading of whole numbers written with ASCII digits, and of unsigned hexadecimal numbers.
-/

namespace Authorization.Text

/-- What a digit stands for in a base. -/
def digitValue? (base : Nat) (c : Char) : Option Nat :=
  let n := c.val.toNat
  let value :=
    if 48 ≤ n ∧ n ≤ 57 then some (n - 48)
    else if 97 ≤ n ∧ n ≤ 102 then some (n - 87)
    else if 65 ≤ n ∧ n ≤ 70 then some (n - 55)
    else none
  value.filter (· < base)

/-- The number that a row of digits denotes, after the digits already read. -/
def readDigits? (base : Nat) : Nat → List Char → Option Nat
  | value, [] => some value
  | value, c :: rest =>
    match digitValue? base c with
    | some digit => readDigits? base (value * base + digit) rest
    | none => none

/-- An unsigned number: at least one digit, after an optional plus sign. -/
def unsigned? (base : Nat) (text : List Char) : Option Nat :=
  let digits := match text with
    | '+' :: rest => rest
    | _ => text
  if digits.isEmpty then none else readDigits? base 0 digits

/-- A signed decimal number of 64 bits: an optional sign and at least one digit, with no blanks. -/
def signed64? (text : String) : Option Int :=
  let value := match text.toList with
    | '-' :: '+' :: _ => none
    | '-' :: rest => (unsigned? 10 rest).map fun n => -(n : Int)
    | digits => (unsigned? 10 digits).map fun n => (n : Int)
  value.filter fun n => -9223372036854775808 ≤ n ∧ n ≤ 9223372036854775807

end Authorization.Text
