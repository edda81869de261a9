import Authorization.Text.Unseen

/-!
# Quoted texts for developers

A text in quotes, with the characters that cannot be seen, or that attach to the one before them,
written as escapes.
-/

namespace Authorization.Text

/-- A character within quotes. -/
def quotedChar (c : Char) : List Char :=
  if c = '\x00' then ['\\', '0']
  else if c = '\t' then ['\\', 't']
  else if c = '\r' then ['\\', 'r']
  else if c = '\n' then ['\\', 'n']
  else if c = '"' then ['\\', '"']
  else if c = '\\' then ['\\', '\\']
  else if isUnseen c then "\\u\x7b".toList ++ Nat.toDigits 16 c.val.toNat ++ "\x7d".toList
  else [c]

/-- A text in quotes, as it is written in a program. -/
def quoted (text : String) : String :=
  "\"" ++ String.ofList (text.toList.flatMap quotedChar) ++ "\""

end Authorization.Text
