/-!
# Regular expressions

A regular expression as a tree, as far as it matters for whether it can be used: what it matches is
not told. `Regex.depth` measures how deeply its parts are nested.
-/

namespace Authorization

/-- The settings that a regular expression switches on and off, by their letters. -/
structure RegexSettings where
  on : List Char := []
  off : List Char := []
  deriving DecidableEq

namespace RegexSettings

/-- What settings say about a letter, if they say anything. -/
def switch? (settings : RegexSettings) (letter : Char) : Option Bool :=
  if letter ∈ settings.on then some true
  else if letter ∈ settings.off then some false
  else none

/-- Switches one more setting, which must not have been switched before. -/
def add? (settings : RegexSettings) (letter : Char) (negated : Bool) : Option RegexSettings :=
  if letter ∈ settings.on ++ settings.off then none
  else if negated then some { settings with off := settings.off ++ [letter] }
  else some { settings with on := settings.on ++ [letter] }

end RegexSettings

/-- What stands for one place in a text. -/
inductive RegexAtom where
  /-- A character, which two hexadecimal digits may have given. -/
  | literal (c : Char) (twoDigits : Bool)
  /-- The digits, the blanks or the characters of words, or all but these. -/
  | named (negated : Bool)
  | anchor
  /-- A place with the character of a word on one side only, or the opposite. -/
  | wordBoundary
  deriving DecidableEq

mutual

/-- A set of characters as brackets list it. -/
inductive RegexSet where
  | union (items : List RegexSetItem)
  | combined (left right : RegexSet)

/-- A part of a set of characters. -/
inductive RegexSetItem where
  | literal (c : Char) (twoDigits : Bool)
  | range (first : Char) (firstTwoDigits : Bool) (last : Char) (lastTwoDigits : Bool)
  | named (negated : Bool)
  | ascii (negated : Bool)
  | nested (negated : Bool) (set : RegexSet)

end

/-- A regular expression. -/
inductive Regex where
  | empty
  | settings (settings : RegexSettings)
  | atom (atom : RegexAtom)
  | dot
  | set (negated : Bool) (set : RegexSet)
  | repetition (part : Regex)
  | group (name : Option (List Char)) (settings : RegexSettings) (part : Regex)
  | row (parts : List Regex)
  | choice (parts : List Regex)

namespace RegexSet

mutual

/-- How deeply the parts of a set are nested. -/
def depth : RegexSet → Nat
  | union [item] => itemDepth item
  | union [] => 0
  | union items => 1 + itemsDepth items
  | combined left right => 1 + max left.depth right.depth

/-- How deeply the parts of a part of a set are nested. -/
def itemDepth : RegexSetItem → Nat
  | .nested _ set => 1 + set.depth
  | _ => 0

/-- How deep the deepest of some items is nested. -/
def itemsDepth : List RegexSetItem → Nat
  | [] => 0
  | item :: items => max (itemDepth item) (itemsDepth items)

end

end RegexSet

namespace Regex

/-- The expression for parts that follow each other. -/
def ofRow : List Regex → Regex
  | [] => empty
  | [part] => part
  | parts => row parts

/-- Expressions of which one is to match as one. -/
def ofChoice : List Regex → Regex
  | [] => empty
  | [part] => part
  | parts => choice parts

/-- Whether an expression is nothing but settings. -/
def isSettings : Regex → Bool
  | settings _ => true
  | _ => false

mutual

/-- How deeply the parts of an expression are nested. -/
def depth : Regex → Nat
  | set _ chars => 1 + chars.depth
  | repetition part => 1 + part.depth
  | group _ _ part => 1 + part.depth
  | row parts => 1 + partsDepth parts
  | choice parts => 1 + partsDepth parts
  | _ => 0

/-- The greatest depth of some expressions. -/
def partsDepth : List Regex → Nat
  | [] => 0
  | part :: parts => max part.depth (partsDepth parts)

end

mutual

def names : Regex → List (List Char)
  | repetition part => part.names
  | group (some name) _ part => name :: part.names
  | group none _ part => part.names
  | row parts => partsNames parts
  | choice parts => partsNames parts
  | _ => []

/-- The names of the groups of some expressions. -/
def partsNames : List Regex → List (List Char)
  | [] => []
  | part :: parts => part.names ++ partsNames parts

end

end Regex

end Authorization
