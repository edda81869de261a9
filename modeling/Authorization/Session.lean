import Authorization.Console
import Authorization.Decision.Description
import Authorization.Decision.Report
import Authorization.Session.Assembly

/-!
# Sessions

A session asks assembled providers questions, keeps decisions about trees under names, changes the
content and the policies that providers see after their next refresh, and records what uniform
providers are asked.
-/

namespace Authorization

/-- A world with a provider built in it, and the content that callers look at. -/
structure Session where
  world : World
  /-- The content that trees and locations are taken from. -/
  content : NodeState
  top : SessionProvider
  leaves : Dictionary SessionLeaf
  kept : Dictionary SessionPermission := []
  journal : List JournalEntry := []

/-- A computation in a session. -/
abbrev SessionStep := StateM Session

/-- The outcome of a walk from the root down a path. -/
structure WalkReport where
  lines : List String
  granted : List Bool
  last : Option DecisionReport

/-- What a decision says about permissions. -/
structure CheckReport where
  terminal : Bool
  combined : Bool
  granted : Bool
  property : Option (Bool × Bool)

/-- What a decision at repository level says about permissions. -/
structure RepositoryReport where
  combined : Bool
  granted : Bool

namespace Session

/-- A session with the provider of a blueprint, or the reason why that cannot be built. -/
def start (content : NodeState) (blueprint : Blueprint) : Except AuthorizationError Session := do
  let (top, assembly) ←
    blueprint.assemble.run { world := .initial content fun _ => { covers := ∅ } }
  pure
    { world := assembly.world, content := assembly.world.published, top
      leaves := assembly.leaves }

def name (session : Session) : String := session.top.name SessionLeaf.name

/-- The provider on top, or the single provider of a name. -/
def provider (session : Session) (part : Option String) : SessionProvider :=
  match part with
  | some name =>
    match session.leaves.find? name with
    | some leaf => .leaf leaf
    | none => .empty
  | none => session.top

def root (session : Session) : Tree := .root session.content

def tree (session : Session) (path : String) : Tree := session.root.descendant path

/-- What is at a path of the content. -/
def location (session : Session) (path : String) : Location := .resolve session.root path

/-- A property of a name that holds nothing but an empty text. -/
def standIn (name : String) : Property := .single name (.string "")

/-- The property of a name at a path of the session's content, or one that stands in for it. -/
def property (session : Session) (path : Option String) (name : String) : Property :=
  ((path.map session.tree).bind fun tree => tree.property? name).getD (standIn name)

/-- The decision of a name: a terminal one, or one that was kept. -/
def permission (session : Session) (name : String) : SessionPermission :=
  if name = "all" then .all
  else if name = "empty" then .empty
  else if name = "no_recourse" then .noRecourse
  else (session.kept.find? name).getD .empty

/-- What the providers see. -/
def snapshot (session : Session) : SessionSnapshot := session.world.observed

/-- Asks a question. What uniform providers are asked on the way is recorded. -/
def ask {α : Type} (question : SessionSnapshot → Journalled α) : SessionStep α := do
  let session ← get
  let (answer, journal) := (question session.snapshot).run session.journal
  set { session with journal }
  pure answer

/-- Puts a question to a provider about the present. -/
def consult {α : Type} (provider : SessionProvider)
    (question : Provider Journalled → Journalled α) : SessionStep α :=
  ask fun snapshot => question (provider.provider snapshot)

/-- Reports a decision and keeps it under a name, if one is given. -/
def conclude (name : Option String) (permission : SessionPermission) :
    SessionStep DecisionReport := do
  let session ← get
  if let some name := name then
    set { session with
          kept := session.kept.insert name (permission.remember session.snapshot) }
  pure (permission.report session.snapshot)

/-- Decides about a tree, of a type if one is given, from a decision about its parent. -/
def decide (provider : SessionProvider) (tree : Tree) (type : Option TreeType)
    (parent : SessionPermission) : SessionStep SessionPermission :=
  ask fun snapshot =>
    match type with
    | some type => provider.treePermissionTyped snapshot tree type parent
    | none => provider.treePermission snapshot tree parent

/-- Derives the decision about a child. -/
def decideChild (parent : SessionPermission) (name : String) (state : NodeState) :
    SessionStep SessionPermission :=
  ask fun snapshot => parent.child snapshot name state

/-- What a decision says about permissions, and about a property if one is given. -/
def check (session : Session) (permission : SessionPermission) (asked : Permissions)
    (property : Option Property) : CheckReport :=
  let answers := permission.answers session.snapshot
  { terminal := permission.isTerminal, combined := permission.isCombined
    granted := answers.isGranted asked
    property := property.map fun property =>
      (answers.canReadProperty property, answers.isGrantedProperty asked property) }

/-- The part of the permissions that a provider evaluates for a decision. -/
def coverage (session : Session) (provider : SessionProvider) (permission : SessionPermission)
    (property : Option Property) (asked : Permissions) : Permissions :=
  permission.coverage session.snapshot property asked provider

/-- Walks from the root of the session's content down a path. -/
def walk (provider : SessionProvider) (path : String) (asked : Permissions) (console : Console) :
    SessionStep WalkReport := do
  let session ← get
  let places ← ask fun snapshot => provider.walk snapshot session.root path
  pure
    { lines := places.map fun (tree, permission) =>
        permission.renderStep session.snapshot console tree.path
      granted := places.map fun (_, permission) =>
        (permission.answers session.snapshot).isGranted asked
      last := places.getLast?.map fun (_, permission) => permission.report session.snapshot }

/-- What a provider decides about the repository, and whether it grants a request there. -/
def repository (provider : SessionProvider) (asked : Permissions) :
    SessionStep RepositoryReport :=
  ask fun snapshot => do
    let permission ← provider.repository snapshot
    let granted ← permission.isGranted snapshot asked
    pure { combined := permission.isCombined, granted }

/-- A decision with everything that it holds. -/
def describe (permission : SessionPermission) : String :=
  permission.describe fun
    | .policy decision => decision.describe
    | .uniform decision => decision.describe

/-- The decision of a provider at repository level with everything that it holds. -/
def describeRepository (provider : SessionProvider) : SessionStep String :=
  ask fun snapshot => do
    let permission ← provider.repository snapshot
    pure (permission.describe SessionLeaf.name)

/-- Replaces the session's content, and publishes it if wanted. -/
def replaceContent (content : NodeState) (publish : Bool) : SessionStep Unit :=
  modify fun session =>
    { session with
      content
      world := if publish then session.world.publish content else session.world }

def stage (name : String) (policy : Policy) : SessionStep Unit :=
  modify fun session =>
    match session.leaves.find? name with
    | some leaf => { session with world := session.world.stage leaf.id policy }
    | none => session

/-- Refreshes a single provider. A uniform provider records that it was asked, and may fail. -/
def refreshLeaf : SessionLeaf → SessionStep (Except AuthorizationError Unit)
  | .policy leaf => do
    modify fun session => { session with world := session.world.refreshPolicy leaf.id }
    pure (.ok ())
  | .uniform leaf => do
    ask fun _ => Journalled.note leaf.id "refresh"
    pure <| match leaf.refreshError with
      | some reason => .error (.other reason)
      | none => .ok ()

def refreshActions : RefreshActions SessionStep SessionLeaf where
  name := SessionLeaf.name
  republish id := modify fun session => { session with world := session.world.republish id }
  refreshLeaf := refreshLeaf

def refresh (provider : SessionProvider) : SessionStep (Except AuthorizationError Unit) :=
  provider.refresh refreshActions

/-- Takes what the provider of a name was asked out of the journal. -/
def takeLog (name : String) : SessionStep (List String) := do
  let session ← get
  match session.leaves.find? name with
  | some leaf =>
    set { session with
          journal := session.journal.filter fun entry => entry.provider ≠ leaf.id }
    pure ((session.journal.filter fun entry => entry.provider = leaf.id).map JournalEntry.text)
  | none => pure []

end Session

end Authorization
