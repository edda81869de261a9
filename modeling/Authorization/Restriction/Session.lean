import Authorization.Restriction.Assembly

/-!
# Sessions with restriction providers

A session works with assembled providers on the restrictions stored with one entry. Restrictions
made on the way are kept under names of their own.
-/

namespace Authorization

/-- Providers, an entry that restrictions are stored with, and restrictions kept for later. -/
structure RestrictionSession where
  top : RestrictionProvider
  parts : List RestrictionProvider
  enclosures : Enclosures
  store : RestrictionStore := []
  kept : Dictionary Restriction := []

namespace RestrictionSession

/-- A session with the providers of a blueprint and nothing stored. -/
def start (blueprint : RestrictionBlueprint) : RestrictionSession :=
  let (top, assembly) := blueprint.assemble.run {}
  { top, parts := assembly.parts, enclosures := assembly.enclosures }

/-- The service of a part, or of the provider on top. -/
def service (session : RestrictionSession) (part : Option Nat) : RestrictionService :=
  let arrangement := match part with
    | some place => (session.parts[place]?).getD .empty
    | none => session.top
  arrangement.service (RestrictionLeaf.service session.enclosures.enclosing)

/-- Keeps a restriction, if it is to be kept under a name. -/
def keep (session : RestrictionSession) (name : Option String) (restriction : Restriction) :
    RestrictionSession :=
  match name with
  | some name => { session with kept := session.kept.insert name restriction }
  | none => session

/-- The restrictions kept under some names. -/
def restrictions (session : RestrictionSession) (names : List String) : List Restriction :=
  names.filterMap session.kept.find?

/-- Stores a property with the entry. -/
def put (session : RestrictionSession) (property : Property) : RestrictionSession :=
  { session with store := session.store.put property }

/-- Takes a property out of the entry. -/
def erase (session : RestrictionSession) (name : String) :
    Option Property × RestrictionSession :=
  (session.store.find? name, { session with store := session.store.erase name })

/-- Replaces the entry by the restrictions stored below a tree. -/
def load (session : RestrictionSession) (tree : Tree) : RestrictionSession :=
  { session with store := .ofTree tree }

/-- Stores kept restrictions with the entry. -/
def write (session : RestrictionSession) (part : Option Nat) (path : Option String)
    (names : List String) : Except AuthorizationError Unit × RestrictionSession :=
  let (outcome, store) :=
    ((session.service part).write path (session.restrictions names)).run.run session.store
  (outcome, { session with store })

/-- Lets the provider on top go. A composite that is a part as well stays. -/
def dropTop (session : RestrictionSession) : RestrictionSession :=
  match session.top.id? with
  | some id =>
    if session.parts.any fun part => part.id? == some id then session
    else { session with enclosures := session.enclosures.leave id }
  | none => session

end RestrictionSession

end Authorization
