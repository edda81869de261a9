import Authorization.Content.Tree

/-!
# Restriction patterns

A pattern says to which items an access control entry applies. The patterns of several providers
are combined into one that matches where all of them match; `RestrictionPattern.combine` leaves out
patterns that match everything and takes the parts out of combined patterns.
-/

namespace Authorization

/-- A predicate over items. -/
structure ItemMatcher where
  node : String → Bool
  property : String → String → Bool
  repository : Bool := false
  tree : Tree → Option Property → Bool := fun tree item =>
    match item with
    | some item => property tree.path item.name
    | none => node tree.path

namespace ItemMatcher

/-- What matches the items that all of some matchers do. -/
def conjunction (matchers : List ItemMatcher) : ItemMatcher where
  node path := matchers.all fun matcher => matcher.node path
  property path name := matchers.all fun matcher => matcher.property path name
  repository := matchers.all ItemMatcher.repository
  tree tree property := matchers.all fun matcher => matcher.tree tree property

/-- What matches everything, or nothing. -/
def always (answer : Bool) : ItemMatcher where
  node _ := answer
  property _ _ := answer
  repository := answer
  tree _ _ := answer

/-- The nodes whose paths begin with a text, and their properties. -/
def below (start : String) (repository : Bool) : ItemMatcher where
  node path := (Text.dropStart? start.toList path.toList).isSome
  property path _ := (Text.dropStart? start.toList path.toList).isSome
  repository := repository

end ItemMatcher

/-- To which items an entry applies. -/
inductive RestrictionPattern where
  | all
  | none
  | matcher (matcher : ItemMatcher)
  /-- Patterns that must all match. -/
  | combined (parts : List RestrictionPattern)

namespace RestrictionPattern

/-- Whether nothing restricts the entry. -/
def isAll : RestrictionPattern → Bool
  | all => true
  | _ => false

mutual

/-- The predicate that a pattern stands for. -/
def meaning : RestrictionPattern → ItemMatcher
  | all => .always true
  | none => .always false
  | matcher single => single
  | combined parts => .conjunction (meanings parts)

def meanings : List RestrictionPattern → List ItemMatcher
  | [] => []
  | part :: parts => meaning part :: meanings parts

end

theorem meanings_eq_map (parts : List RestrictionPattern) : meanings parts = parts.map meaning := by
  induction parts with
  | nil => rfl
  | cons part parts ih => rw [meanings, ih, List.map_cons]

def matchesNode (pattern : RestrictionPattern) (path : String) : Bool :=
  pattern.meaning.node path

def matchesProperty (pattern : RestrictionPattern) (path name : String) : Bool :=
  pattern.meaning.property path name

/-- Whether a pattern matches a tree or one of its properties. -/
def matchesTree (pattern : RestrictionPattern) (tree : Tree) (property : Option Property) : Bool :=
  pattern.meaning.tree tree property

/-- Whether a pattern matches the repository. -/
def matchesRepository (pattern : RestrictionPattern) : Bool := pattern.meaning.repository

/-- Whether the item at a path matches, where the last element may be the name of a property. A
path without a parent is the path of a node. -/
def matchesItem (pattern : RestrictionPattern) (path : String) (isProperty : Bool) : Bool :=
  match isProperty, Path.parent? path with
  | true, some parent => pattern.matchesProperty parent (Path.name path)
  | _, _ => pattern.matchesNode path

/-- The parts of the combination of some patterns, or nothing if one of them matches nothing. -/
def combinedParts? : List RestrictionPattern → Option (List RestrictionPattern)
  | [] => some []
  | all :: patterns => combinedParts? patterns
  | none :: _ => .none
  | matcher single :: patterns => (combinedParts? patterns).map (matcher single :: ·)
  | combined parts :: patterns => (combinedParts? patterns).map (parts ++ ·)

/-- The pattern for parts that must all match: a lone part itself. -/
def ofParts : List RestrictionPattern → RestrictionPattern
  | [] => all
  | [part] => part
  | parts => combined parts

/-- The pattern that matches what all of some patterns match. -/
def combine (patterns : List RestrictionPattern) : RestrictionPattern :=
  match combinedParts? patterns with
  | some parts => ofParts parts
  | .none => none

end RestrictionPattern

end Authorization
