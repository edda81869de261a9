import Mathlib.Data.List.DropRight
import Authorization.Proofs.Decision.Purity
import Authorization.Proofs.World.Refresh

/-!
# What a refresh makes visible

Between the refreshes of a provider, content is published, policies are staged, questions are asked
and decisions are made. Being asked changes nothing. What is published or staged is kept, but not
seen before the next refresh (`Following`). So at every moment a provider answers as one built anew
from what was published and staged last before its last refresh, and so do the decisions that are
walked to until the next one (`answers_as_last_refreshed`).
-/

namespace Authorization

/-- A question that a provider answers anew whenever it is asked. -/
inductive Query where
  | isGranted (tree : Tree) (property : Option Property) (asked : Permissions)
  | isGrantedAt (location : Location) (asked : Permissions)
  | isGrantedPath (path actions : String)
  | hasPrivileges (tree : Option Tree) (names : List String)
  | privileges (tree : Option Tree)
  /-- The decision at repository level is asked for, and whether it grants permissions. -/
  | isGrantedRepository (asked : Permissions)

namespace Query

/-- What a question may be answered. -/
def Answer : Query → Type
  | isGranted _ _ _ | isGrantedAt _ _ | isGrantedRepository _ => Bool
  | isGrantedPath _ _ | hasPrivileges _ _ => Except AuthorizationError Bool
  | privileges _ => List String

/-- Puts a question to an arrangement of providers. -/
def ask {m : Type → Type} [Monad m] (snapshot : Snapshot m PolicyLeaf PolicyDecision)
    (arrangement : Arrangement PolicyLeaf) : (query : Query) → m query.Answer
  | isGranted tree property asked => (arrangement.provider snapshot).isGranted tree property asked
  | isGrantedAt location asked => (arrangement.provider snapshot).isGrantedAt location asked
  | isGrantedPath path actions =>
    ((arrangement.provider snapshot).isGrantedPath path actions).run
  | hasPrivileges tree names => ((arrangement.provider snapshot).hasPrivileges tree names).run
  | privileges tree => (arrangement.provider snapshot).privileges tree
  | isGrantedRepository asked => do
    let permission ← arrangement.repository snapshot
    permission.isGranted snapshot asked

/-- A composite that sees no difference answers every question alike, and leaves no trace. -/
theorem ask_alike {m : Type → Type} [Monad m] [LawfulMonad m] {first second : World}
    {combination : Combination} {members : List (Arrangement PolicyLeaf)}
    (alike : first.Alike second (.composite combination members)) (query : Query) :
    query.ask (first.snapshot : Snapshot m PolicyLeaf PolicyDecision)
        (.composite combination members) =
      pure (query.ask second.seen (.composite combination members)).run := by
  have mirrors := alike.mirrors_provider (m := m)
  cases query with
  | isGranted tree property asked => exact mirrors.isGranted tree property asked
  | isGrantedAt location asked => exact mirrors.isGrantedAt location asked
  | isGrantedPath path actions => exact alike.isGrantedPath_composite path actions
  | hasPrivileges tree names => exact mirrors.hasPrivileges tree names
  | privileges tree => exact mirrors.privileges tree
  | isGrantedRepository asked =>
      have plain := second.isGranted_repository (m := Id) (.composite combination members) asked
      exact (first.isGranted_repository _ asked).trans
        ((mirrors.isGrantedRepository asked).trans (congrArg pure plain.symm))

end Query

/-- Something that a composite is asked for. -/
inductive Request where
  | answer (query : Query)
  /-- A decision about a tree. -/
  | decide (tree : Tree) (parent : TreePermission PolicyLeaf PolicyDecision)
  /-- A decision derived from one that was made before. -/
  | derive (permission : TreePermission PolicyLeaf PolicyDecision) (name : String)
      (state : NodeState)

/-- Something that happens around a composite. -/
inductive Event where
  | publish (content : NodeState)
  | stage (id : Nat) (policy : Policy)
  | refresh
  | ask (request : Request)

namespace Event

def isRefresh : Event → Bool
  | refresh => true
  | _ => false

/-- The content that an event publishes, if it does. -/
def content? : Event → Option NodeState
  | publish content => some content
  | _ => none

/-- The policy that an event stages for the single provider of a number, if it does. -/
def policy? (id : Nat) : Event → Option Policy
  | stage other policy => if other = id then some policy else none
  | _ => none

/-- What happened up to the last refresh. -/
def settled (events : List Event) : List Event := events.rdropWhile fun event => !event.isRefresh

/-- The content that was published last, after what was published before all events. -/
def lastContent (before : NodeState) (events : List Event) : NodeState :=
  (events.filterMap content?).getLast?.getD before

/-- The policy that was staged last for a provider, after the one that it had before all events. -/
def lastPolicy (id : Nat) (before : Policy) (events : List Event) : Policy :=
  (events.filterMap (policy? id)).getLast?.getD before

variable {events : List Event} {event : Event}

theorem settled_refresh : settled (events ++ [refresh]) = events ++ [refresh] :=
  List.rdropWhile_concat_neg _ _ _ (by simp [isRefresh])

/-- An event that is no refresh settles nothing. -/
theorem settled_calm (calm : event.isRefresh = false) :
    settled (events ++ [event]) = settled events :=
  List.rdropWhile_concat_pos _ _ _ (by simp [calm])

theorem lastContent_concat (before : NodeState) :
    lastContent before (events ++ [event]) = event.content?.getD (lastContent before events) := by
  rw [lastContent, lastContent, List.filterMap_append]
  cases published : event.content? <;> simp [published]

theorem lastPolicy_concat (id : Nat) (before : Policy) :
    lastPolicy id before (events ++ [event]) =
      (event.policy? id).getD (lastPolicy id before events) := by
  rw [lastPolicy, lastPolicy, List.filterMap_append]
  cases staged : event.policy? id <;> simp [staged]

end Event

namespace World

/-- Asks a question about what is seen at the moment. -/
def consult {α : Type}
    (question : Snapshot (StateM World) PolicyLeaf PolicyDecision → StateM World α) :
    StateM World α := do
  question (← get).snapshot

section Composite

variable (arrangement : Arrangement PolicyLeaf)

/-- Puts a question to an arrangement as it is at the moment. -/
def answerNow (query : Query) : StateM World query.Answer :=
  consult fun snapshot => query.ask snapshot arrangement

/-- Asks an arrangement as it is at the moment for a decision about a tree. -/
def decideNow (tree : Tree) (parent : TreePermission PolicyLeaf PolicyDecision) :
    StateM World (TreePermission PolicyLeaf PolicyDecision) :=
  consult fun snapshot => arrangement.treePermission snapshot tree parent

/-- Asks a decision for the one about a child, as providers are at the moment. -/
def deriveNow (permission : TreePermission PolicyLeaf PolicyDecision) (name : String)
    (state : NodeState) : StateM World (TreePermission PolicyLeaf PolicyDecision) :=
  consult fun snapshot => permission.child snapshot name state

/-- What an event does, whatever is answered. -/
def happen : Event → StateM World Unit
  | .publish content => modify (·.publish content)
  | .stage id policy => modify (·.stage id policy)
  | .refresh => discard (arrangement.refresh refreshActions)
  | .ask (.answer query) => discard (answerNow arrangement query)
  | .ask (.decide tree parent) => discard (decideNow arrangement tree parent)
  | .ask (.derive permission name state) => discard (deriveNow permission name state)

/-- The state after events. -/
def following (world : World) (events : List Event) : World :=
  events.foldl (fun world event => ((happen arrangement event).run world).2) world

end Composite

/-- A provider that was just built: its composites see the published content, and no policy is
staged. -/
structure JustBuilt (world : World) (arrangement : Arrangement PolicyLeaf) : Prop where
  roots : ∀ combination ∈ arrangement.combinations,
    world.roots combination.id = world.published
  unstaged : ∀ leaf ∈ arrangement.leaves, (world.policies leaf.id).staged = none

/-- What is kept and seen after events: the content published last and, for every single provider,
the policy staged last are kept; those that were so at the last refresh are seen. -/
structure Following (start : World) (arrangement : Arrangement PolicyLeaf) (events : List Event)
    (now : World) : Prop where
  published : now.published = Event.lastContent start.published events
  roots : ∀ combination ∈ arrangement.combinations,
    now.roots combination.id = Event.lastContent start.published (Event.settled events)
  kept : ∀ leaf ∈ arrangement.leaves,
    (now.policies leaf.id).staged.getD (now.policy leaf) =
      Event.lastPolicy leaf.id (start.policy leaf) events
  inForce : ∀ leaf ∈ arrangement.leaves,
    now.policy leaf = Event.lastPolicy leaf.id (start.policy leaf) (Event.settled events)

section Asking

variable (now : World)

/-- A question that has no effect leaves the world as it is. -/
theorem run_consult {α : Type}
    {question : Snapshot (StateM World) PolicyLeaf PolicyDecision → StateM World α} {value : α}
    (plain : question now.snapshot = pure value) : (consult question).run now = (value, now) :=
  congrFun plain now

/-- Being asked a question changes nothing. -/
theorem run_answerNow {other : World} {combination : Combination}
    {members : List (Arrangement PolicyLeaf)}
    (alike : now.Alike other (.composite combination members)) (query : Query) :
    (answerNow (.composite combination members) query).run now =
      ((query.ask other.seen (.composite combination members)).run, now) :=
  now.run_consult (query.ask_alike alike)

/-- Making a decision changes nothing. -/
theorem run_decideNow (arrangement : Arrangement PolicyLeaf) (tree : Tree)
    (parent : TreePermission PolicyLeaf PolicyDecision) :
    (decideNow arrangement tree parent).run now =
      ((arrangement.treePermission now.seen tree parent).run, now) :=
  now.run_consult (now.treePermission_pure arrangement tree parent)

/-- Deriving a decision changes nothing. -/
theorem run_deriveNow (permission : TreePermission PolicyLeaf PolicyDecision) (name : String)
    (state : NodeState) :
    (deriveNow permission name state).run now = ((permission.child now.seen name state).run, now) :=
  now.run_consult (now.child_pure permission name state)

/-- Whatever is asked, nothing changes. -/
theorem happen_ask (combination : Combination) (members : List (Arrangement PolicyLeaf))
    (request : Request) :
    ((happen (.composite combination members) (.ask request)).run now).2 = now := by
  cases request with
  | answer query => exact congrArg Prod.snd (now.run_answerNow (Agree.refl now _).alike query)
  | decide tree parent =>
      exact congrArg Prod.snd (now.run_decideNow (.composite combination members) tree parent)
  | derive permission name state =>
      exact congrArg Prod.snd (now.run_deriveNow permission name state)

end Asking

variable {start now : World} {combination : Combination} {members : List (Arrangement PolicyLeaf)}
  {events : List Event}

/-- Staging a policy brings none into force. -/
theorem policy_stage (world : World) (id : Nat) (staged : Policy) (leaf : PolicyLeaf) :
    (world.stage id staged).policy leaf = world.policy leaf := by
  by_cases here : leaf.id = id
  · have state : (world.stage id staged).policies leaf.id = (world.policies id).stage staged :=
      if_pos here
    rw [policy, policy, state, here]
    rfl
  · exact congrArg PolicyState.policy (if_neg here)

theorem staged_stage (world : World) (id other : Nat) (staged : Policy) :
    ((world.stage id staged).policies other).staged =
      if id = other then some staged else (world.policies other).staged := by
  split
  · rename_i here
    exact congrArg PolicyState.staged (if_pos here.symm)
  · rename_i elsewhere
    exact congrArg PolicyState.staged (if_neg fun same => elsewhere same.symm)

namespace Following

variable {arrangement : Arrangement PolicyLeaf}

theorem initially (built : start.JustBuilt arrangement) : Following start arrangement [] start where
  published := rfl
  roots := built.roots
  kept leaf present := by rw [built.unstaged leaf present]; rfl
  inForce _ _ := rfl

theorem ask (followed : Following start arrangement events now) (request : Request) :
    Following start arrangement (events ++ [.ask request]) now where
  published := by rw [Event.lastContent_concat]; exact followed.published
  roots := by rw [Event.settled_calm rfl]; exact followed.roots
  kept leaf present := by rw [Event.lastPolicy_concat]; exact followed.kept leaf present
  inForce := by rw [Event.settled_calm rfl]; exact followed.inForce

theorem publish (followed : Following start arrangement events now) (content : NodeState) :
    Following start arrangement (events ++ [.publish content]) (now.publish content) where
  published := by rw [Event.lastContent_concat]; rfl
  roots := by rw [Event.settled_calm rfl]; exact followed.roots
  kept leaf present := by rw [Event.lastPolicy_concat]; exact followed.kept leaf present
  inForce := by rw [Event.settled_calm rfl]; exact followed.inForce

theorem stage (followed : Following start arrangement events now) (id : Nat) (policy : Policy) :
    Following start arrangement (events ++ [.stage id policy]) (now.stage id policy) where
  published := by rw [Event.lastContent_concat]; exact followed.published
  roots := by rw [Event.settled_calm rfl]; exact followed.roots
  kept leaf present := by
    rw [Event.lastPolicy_concat, policy_stage, staged_stage, Event.policy?]
    split
    · rfl
    · exact followed.kept leaf present
  inForce leaf present := by
    rw [Event.settled_calm rfl, policy_stage]
    exact followed.inForce leaf present

theorem refresh (followed : Following start arrangement events now) :
    Following start arrangement (events ++ [.refresh]) (now.refresh arrangement).2 := by
  rw [refresh_eq]
  have renewed {leaf} (present : leaf ∈ arrangement.leaves) :
      (now.refreshed (arrangement.combinations.map Combination.id)
          (arrangement.leaves.map PolicyLeaf.id)).policies leaf.id =
        (now.policies leaf.id).refresh now.published := if_pos (List.mem_map_of_mem present)
  constructor
  · rw [Event.lastContent_concat]
    exact followed.published
  · intro combination present
    rw [Event.settled_refresh, Event.lastContent_concat]
    exact (if_pos (List.mem_map_of_mem present)).trans followed.published
  · intro leaf present
    rw [Event.lastPolicy_concat, World.policy, renewed present]
    exact followed.kept leaf present
  · intro leaf present
    rw [Event.settled_refresh, Event.lastPolicy_concat, World.policy, renewed present]
    exact followed.kept leaf present

/-- What happens is kept, and seen after the next refresh. -/
theorem happen (followed : Following start (.composite combination members) events now)
    (event : Event) :
    Following start (.composite combination members) (events ++ [event])
      ((World.happen (.composite combination members) event).run now).2 := by
  cases event with
  | publish content => exact followed.publish content
  | stage id policy => exact followed.stage id policy
  | refresh => exact followed.refresh
  | ask request => exact (now.happen_ask combination members request).symm ▸ followed.ask request

/-- After any events, what was published and staged last is kept, and what was so at the last
refresh is seen. -/
theorem throughout (built : start.JustBuilt (.composite combination members)) (events : List Event) :
    Following start (.composite combination members) events
      (start.following (.composite combination members) events) := by
  -- From the end, as the last event decides whether the ones before it are settled.
  induction events using List.reverseRecOn with
  | nil => exact initially built
  | append_singleton events event ih =>
      rw [World.following, List.foldl_append]
      exact ih.happen event

/-- A provider sees what one sees that is built anew from what was published and staged last before
the last refresh. -/
theorem agree (followed : Following start arrangement events now) :
    now.Agree (.initial (Event.lastContent start.published (Event.settled events)) fun id =>
      Event.lastPolicy id (start.policies id).policy (Event.settled events)) arrangement :=
  ⟨followed.roots, followed.inForce⟩

end Following

/-- Nothing but a refresh changes what is seen. -/
theorem agree_happen {event : Event} (calm : event.isRefresh = false) (now : World) :
    ((happen (.composite combination members) event).run now).2.Agree now
      (.composite combination members) := by
  cases event with
  | publish content => exact ⟨fun _ _ => rfl, fun _ _ => rfl⟩
  | stage id policy => exact ⟨fun _ _ => rfl, fun leaf _ => now.policy_stage id policy leaf⟩
  | refresh => exact absurd calm (by simp [Event.isRefresh])
  | ask request => exact (now.happen_ask combination members request).symm ▸ Agree.refl now _

/-- The decisions that a composite reaches from the root along names, and the state by then, while
all kinds of things happen but a refresh. -/
inductive WalkedAmid (combination : Combination) (members : List (Arrangement PolicyLeaf))
    (start : World) : World → List String → TreePermission PolicyLeaf PolicyDecision → Prop
  | root {tree : Tree} (top : Path.elements tree.path = [])
      {parent permission : TreePermission PolicyLeaf PolicyDecision} {now : World}
      (decided : (decideNow (.composite combination members) tree parent).run start =
        (permission, now)) :
      WalkedAmid combination members start now [] permission
  | step {names : List String} {name : String}
      {parent permission : TreePermission PolicyLeaf PolicyDecision} {before now : World}
      (walked : WalkedAmid combination members start before names parent) {tree : Tree}
      (here : Path.elements tree.path = names ++ [name])
      (decided : (decideNow (.composite combination members) tree parent).run before =
        (permission, now)) :
      WalkedAmid combination members start now (names ++ [name]) permission
  | child {names : List String} {name : String}
      {parent permission : TreePermission PolicyLeaf PolicyDecision} {before now : World}
      (walked : WalkedAmid combination members start before names parent)
      (named : Path.IsName name) {state : NodeState}
      (derived : (deriveNow parent name state).run before = (permission, now)) :
      WalkedAmid combination members start now (names ++ [name]) permission
  | recalled {names : List String} {permission other : TreePermission PolicyLeaf PolicyDecision}
      {now : World} (walked : WalkedAmid combination members start now names permission)
      (same : other.forget = permission.forget) (truthful : other.Truthful now.seen) :
      WalkedAmid combination members start now names other
  | amid {names : List String} {permission : TreePermission PolicyLeaf PolicyDecision}
      {before : World} (walked : WalkedAmid combination members start before names permission)
      {event : Event} (calm : event.isRefresh = false) :
      WalkedAmid combination members start
        ((happen (.composite combination members) event).run before).2 names permission

/-- While nothing is refreshed, the same is seen, and one walks as if nothing else happened. -/
theorem WalkedAmid.walked {names : List String}
    {permission : TreePermission PolicyLeaf PolicyDecision}
    (amid : WalkedAmid combination members start now names permission) :
    now.Agree start (.composite combination members) ∧
      Walked start combination members names permission := by
  induction amid with
  | @root tree top parent permission now decided =>
      rw [run_decideNow] at decided
      obtain ⟨rfl, rfl⟩ := Prod.mk.inj decided
      exact ⟨Agree.refl _ _, .root top parent⟩
  | step walked here decided ih =>
      obtain ⟨agree, walked⟩ := ih
      rw [run_decideNow] at decided
      obtain ⟨rfl, rfl⟩ := Prod.mk.inj decided
      exact ⟨agree, ((walked.agree agree.symm).step here).agree agree⟩
  | child walked named derived ih =>
      obtain ⟨agree, walked⟩ := ih
      rw [run_deriveNow] at derived
      obtain ⟨rfl, rfl⟩ := Prod.mk.inj derived
      exact ⟨agree, ((walked.agree agree.symm).child named _).agree agree⟩
  | recalled walked same truthful ih =>
      obtain ⟨agree, walked⟩ := ih
      exact ⟨agree, ((walked.agree agree.symm).recalled same truthful).agree agree⟩
  | amid walked calm ih =>
      obtain ⟨agree, walked⟩ := ih
      exact ⟨(agree_happen calm _).trans agree, walked⟩

/-- **Visible from refresh to refresh.** A composite that was just built lives through any sequence
of events: content is published, policies are staged, it is refreshed, and it is asked all kinds of
questions. Afterwards it answers every question as one built anew over the content that was
published last before the last refresh, or before all events, with the policies that were staged
last before it, or those at first; being asked changes nothing. A walk from the root on reaches the
decisions that the composite built anew reaches, and they give the same answers, whatever else
happens on the way but a refresh. -/
theorem answers_as_last_refreshed (built : start.JustBuilt (.composite combination members))
    (events : List Event) :
    let arrangement := Arrangement.composite combination members
    let now := start.following arrangement events
    let settled := Event.settled events
    let anew := World.initial (Event.lastContent start.published settled) fun id =>
      Event.lastPolicy id (start.policies id).policy settled
    (∀ query, (answerNow arrangement query).run now =
      ((query.ask anew.seen arrangement).run, now)) ∧
    ∀ later names permission, WalkedAmid combination members now later names permission →
      Walked anew combination members names permission ∧
        permission.answers later.seen = permission.answers anew.seen := by
  intro arrangement now settled anew
  have agree : now.Agree anew arrangement := (Following.throughout built events).agree
  refine ⟨fun query => now.run_answerNow agree.alike query, fun later names permission amid => ?_⟩
  obtain ⟨still, walked⟩ := amid.walked
  exact ⟨walked.agree agree, answers_congr walked.kept.paired (still.trans agree).covers⟩

/-- Reading is granted by the policy that was staged last before the refresh, at a node of the
content that was published before it. A policy staged earlier is replaced unseen, and neither the
policy nor the content that come after the refresh are seen. -/
theorem reading_granted_as_staged_last :
    let denying : Policy := { covers := .read }
    let granting : Policy := denying.allow "/a" .read
    let start := World.initial none fun _ => denying
    let arrangement := Arrangement.composite (.plain 0 .and) [.leaf (.plain 0)]
    let events : List Event :=
      [.stage 0 (denying.allow "/" .read), .publish (Node.ofContent [{ path := "/a" }]),
        .stage 0 granting, .ask (.answer (.isGrantedPath "/a" "read")), .refresh,
        .stage 0 denying, .publish none]
    let now := start.following arrangement events
    start.JustBuilt arrangement ∧
      (answerNow arrangement (.isGrantedPath "/a" "read")).run now = (.ok true, now) ∧
      (answerNow arrangement (.isGrantedPath "/" "read")).run now = (.ok false, now) := by
  intro denying granting start arrangement events now
  have built : start.JustBuilt arrangement := ⟨fun _ _ => rfl, fun _ _ => rfl⟩
  obtain ⟨answers, -⟩ := answers_as_last_refreshed built events
  refine ⟨built, (answers _).trans (congrArg (·, now) ?_),
    (answers _).trans (congrArg (·, now) ?_)⟩
  · dsimp only [start, arrangement, events, granting, denying]
    rfl
  · dsimp only [start, arrangement, events, granting, denying]
    rfl

end World

end Authorization
