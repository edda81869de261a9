import Mathlib.Data.List.Sort
import Authorization.Actions
import Authorization.Proofs.Text.Pieces

/-!
# What action strings ask for

The names of an action string are taken out in stages. A stage takes names out of those that
remain, so only the first entry for an action counts (`mem_asked_takeEach`), and the stages have an
entry for every action (`lookup_stages`). So an action string asks for what its actions ask for,
each alone, and what remains are the pieces that name no action (`translated_action_by_action`).
-/

namespace Authorization

/-- Only which texts there are counts, and not how often or where. -/
theorem Dictionary.distinct_congr {texts others : List String}
    (same : ∀ text, text ∈ texts ↔ text ∈ others) : distinct texts = distinct others :=
  (sorted_distinct texts).eq_of_mem_iff (sorted_distinct others) fun text => by
    rw [mem_distinct, mem_distinct, same]

namespace Action

def all : List Action :=
  [read, addNode, remove, setProperty, addProperty, modifyProperty, removeProperty, removeNode,
    readAccessControl, modifyAccessControl, locking, nodeTypeManagement, versioning,
    userManagement]

theorem mem_all (action : Action) : action ∈ all := by cases action <;> decide

/-- Different actions have different names. -/
theorem word_inj {action other : Action} : action.word = other.word ↔ action = other := by
  have distinct : (all.map word).Nodup := by decide
  exact ⟨fun same => List.inj_on_of_nodup_map distinct (mem_all action) (mem_all other) same,
    congrArg word⟩

/-- What an action asks for at a location where nothing is access control content. -/
def regularPermissions (location : Location) : Action → Permissions
  | read => toRead location false
  | setProperty => toSetProperty location
  | remove => toRemove location
  | addNode => .addNode
  | removeNode => .removeNode
  | addProperty => .addProperty
  | modifyProperty => .modifyProperty
  | removeProperty => .removeProperty
  | readAccessControl => .readAccessControl
  | modifyAccessControl => .modifyAccessControl
  | locking => .lockManagement
  | nodeTypeManagement => .nodeTypeManagement
  | versioning => .versionManagement
  | userManagement => .userManagement

/-- The permissions that an action asks for at a location. On access control content, reading asks
to read access control and every change asks to modify it. -/
def permissions (location : Location) (accessControl : Bool) (action : Action) : Permissions :=
  if accessControl then
    if action = read then .readAccessControl
    else if action ∈ writes then .modifyAccessControl
    else regularPermissions location action
  else regularPermissions location action

/-- No action asks to read or change anything else on access control content. -/
theorem permissions_accessControl (location : Location) (action : Action) :
    action.permissions location true ∩ (.read ∪ .write) = ∅ := by
  have anywhere : action.permissions location true = action.permissions (.nothing "") true := by
    cases action <;> rfl
  rw [anywhere]
  cases action <;> decide

theorem permissions_of_write (location : Location) {action : Action} (write : action ∈ writes) :
    action.permissions location true = .modifyAccessControl := by
  have different : action ≠ read := by
    rintro rfl
    exact absurd write (by decide)
  simp [permissions, different, write]

/-- The stages in which actions are taken out of an action string, with what they ask for. -/
def stages (location : Location) (accessControl : Bool) : List (Action × Permissions) :=
  (read, toRead location accessControl) ::
    ((if accessControl then writes.map fun action => (action, .modifyAccessControl)
      else [(setProperty, toSetProperty location), (remove, toRemove location)]) ++ plain)

/-- The first entry of the stages for an action has what the action asks for. -/
theorem lookup_stages (location : Location) (accessControl : Bool) (action : Action) :
    (stages location accessControl).lookup action =
      some (action.permissions location accessControl) := by
  cases accessControl <;> cases action <;> rfl

/-- Every action is taken out in some stage. -/
theorem mem_words_stages {location : Location} {accessControl : Bool} {name : String} :
    name ∈ (stages location accessControl).map (fun entry => entry.1.word) ↔
      ∃ action : Action, action.word = name := by
  constructor
  · intro member
    obtain ⟨entry, -, rfl⟩ := List.mem_map.mp member
    exact ⟨entry.1, rfl⟩
  · rintro ⟨action, rfl⟩
    obtain ⟨before, after, split, -⟩ :=
      List.lookup_eq_some_iff.mp (lookup_stages location accessControl action)
    rw [split]
    simp

theorem mem_words_all {name : String} :
    name ∈ all.map word ↔ ∃ action : Action, action.word = name := by
  simp [mem_all]

/-- The pieces of an action string that name no action, ascending. -/
def unknown (actions : String) : List String :=
  (Dictionary.distinct (pieces actions)).filter fun piece => piece ∉ all.map word

/-- The unknown actions of a text are its pieces that name no action. -/
theorem mem_unknown {actions piece : String} :
    piece ∈ unknown actions ↔ piece ∈ pieces actions ∧ ∀ action : Action, action.word ≠ piece := by
  simp [unknown, Dictionary.mem_distinct, mem_words_all]

/-- A piece of an action string is the only piece of itself. -/
theorem pieces_of_mem {actions piece : String} (member : piece ∈ pieces actions) :
    pieces piece = [piece] := by
  obtain ⟨trimmed, filled⟩ := List.mem_filter.mp member
  obtain ⟨_, between, rfl⟩ := List.mem_map.mp trimmed
  obtain ⟨text, cut, rfl⟩ := List.mem_map.mp between
  have whole := Text.isPiece_trimmed cut
  simp only [Text.trim, String.toList_ofList, decide_eq_true_eq] at filled ⊢
  simp [pieces, Text.pieces, Text.trim, Text.split_of_notMem whole.whole, whole.trimmed,
    String.ofList_eq_empty_iff.not.mp filled]

theorem pieces_word (action : Action) : pieces action.word = [action.word] := by
  cases action <;> decide +kernel

end Action

namespace ActionRequest

variable {request : ActionRequest} {table : List (Action × Permissions)} {actions : List Action}
  {permissions : Permissions} {i : Nat}

theorem ext {first second : ActionRequest} (remaining : first.remaining = second.remaining)
    (asked : ∀ i, i ∈ first.asked ↔ i ∈ second.asked) : first = second := by
  obtain ⟨names, mask⟩ := first
  obtain ⟨others, other⟩ := second
  rw [mk.injEq]
  exact ⟨remaining, Mask.ext asked⟩

/-- An action takes its name out of what remains. -/
theorem remaining_take (action : Action) :
    (request.take action permissions).remaining =
      request.remaining.filter fun name => name ≠ action.word := by
  unfold take
  split
  · rfl
  · rename_i absent
    refine (List.filter_eq_self.mpr fun name member => ?_).symm
    simpa using fun same : name = action.word => absent (same ▸ member)

/-- An action that remains adds its permissions to what is asked. -/
theorem mem_asked_take (action : Action) :
    i ∈ (request.take action permissions).asked ↔
      i ∈ request.asked ∨ action.word ∈ request.remaining ∧ i ∈ permissions := by
  unfold take
  split <;> simp_all

theorem takeEach_cons (entry : Action × Permissions) :
    request.takeEach (entry :: table) = (request.take entry.1 entry.2).takeEach table := rfl

theorem takeEach_append (others : List (Action × Permissions)) :
    request.takeEach (table ++ others) = (request.takeEach table).takeEach others :=
  List.foldl_append

/-- A table takes the names of all its actions out of what remains. -/
theorem remaining_takeEach :
    (request.takeEach table).remaining =
      request.remaining.filter fun name => name ∉ table.map fun entry => entry.1.word := by
  induction table generalizing request with
  | nil => simp [takeEach]
  | cons entry table ih =>
      rw [takeEach_cons, ih, remaining_take, List.filter_filter]
      refine List.filter_congr fun name _ => Bool.eq_iff_iff.mpr ?_
      simp [and_comm]

/-- Of several entries for an action the first counts: it takes the name out. -/
theorem mem_asked_takeEach :
    i ∈ (request.takeEach table).asked ↔
      i ∈ request.asked ∨ ∃ action : Action, action.word ∈ request.remaining ∧
        ∃ permissions, table.lookup action = some permissions ∧ i ∈ permissions := by
  induction table generalizing request with
  | nil => simp [takeEach]
  | cons entry table ih =>
      obtain ⟨action, own⟩ := entry
      rw [takeEach_cons, ih, mem_asked_take, remaining_take, or_assoc]
      refine or_congr_right ⟨?_, ?_⟩
      · rintro (⟨member, inside⟩ | ⟨other, member, permissions, found, inside⟩)
        · exact ⟨action, member, own, by simp, inside⟩
        · obtain ⟨member, differs⟩ := List.mem_filter.mp member
          have different : other ≠ action := by simpa [Action.word_inj] using differs
          refine ⟨other, member, permissions, ?_, inside⟩
          rwa [List.lookup_cons, beq_eq_false_iff_ne.mpr different]
      · rintro ⟨other, member, permissions, found, inside⟩
        by_cases same : other = action
        · subst same
          simp only [List.lookup_cons, beq_self_eq_true, Option.some.injEq] at found
          exact .inl ⟨member, found ▸ inside⟩
        · rw [List.lookup_cons, beq_eq_false_iff_ne.mpr same] at found
          refine .inr ⟨other, List.mem_filter.mpr ⟨member, ?_⟩, permissions, found, inside⟩
          simpa [Action.word_inj] using same

/-- Actions that ask for the same take their names out of what remains. -/
theorem remaining_takeAll :
    (request.takeAll actions permissions).remaining =
      request.remaining.filter fun name => name ∉ actions.map Action.word := by
  unfold takeAll
  dsimp only
  split
  · rename_i unchanged
    exact (List.filter_eq_self.mpr (List.length_filter_eq_length_iff.mp unchanged)).symm
  · rfl

/-- Actions that ask for the same add that if one of them remains. -/
theorem mem_asked_takeAll :
    i ∈ (request.takeAll actions permissions).asked ↔
      i ∈ request.asked ∨
        (∃ action ∈ actions, action.word ∈ request.remaining) ∧ i ∈ permissions := by
  have unchanged : (request.remaining.filter fun name =>
      name ∉ actions.map Action.word).length = request.remaining.length ↔
        ¬∃ action ∈ actions, action.word ∈ request.remaining := by
    rw [List.length_filter_eq_length_iff]
    simp only [decide_eq_true_eq, List.mem_map, not_exists, not_and]
    exact ⟨fun absent action listed member => absent _ member action listed rfl,
      fun absent name member action listed same => absent action listed (same ▸ member)⟩
  unfold takeAll
  dsimp only
  split
  · rename_i same
    simp [unchanged.mp same]
  · rename_i shorter
    simp [not_not.mp (mt unchanged.mpr shorter)]

/-- Taking actions out at once is taking them out one after the other. -/
theorem takeAll_eq_takeEach :
    request.takeAll actions permissions =
      request.takeEach (actions.map fun action => (action, permissions)) := by
  have found (action : Action) (other : Permissions) :
      (actions.map fun action => (action, permissions)).lookup action = some other ↔
        action ∈ actions ∧ permissions = other := by
    by_cases listed : action ∈ actions
    · simp [List.lookup_graph (fun _ => permissions) listed, listed]
    · have absent : (actions.map fun action => (action, permissions)).lookup action = none := by
        rw [List.lookup_eq_none_iff]
        rintro _ member
        obtain ⟨other, present, rfl⟩ := List.mem_map.mp member
        exact bne_iff_ne.mpr fun same => listed (same ▸ present)
      simp [absent, listed]
  apply ext
  · rw [remaining_takeAll, remaining_takeEach, List.map_map]
    rfl
  · intro i
    rw [mem_asked_takeAll, mem_asked_takeEach]
    simp only [found]
    grind

end ActionRequest

namespace Permissions

open Authorization.Action

variable {actions : String} {location : Location} {accessControl : Bool}

/-- An action string is understood by taking the actions of all stages out of its names. -/
theorem ofActions_eq_outcome :
    ofActions actions location accessControl =
      (ActionRequest.takeEach { remaining := Dictionary.distinct (pieces actions) }
        (stages location accessControl)).outcome := by
  unfold ofActions
  cases accessControl <;>
    simp [stages, ActionRequest.takeAll_eq_takeEach, ActionRequest.takeEach_cons,
      ActionRequest.takeEach_append]

/-- After all stages the pieces that name no action remain. -/
theorem remaining_stages (asked : Permissions) :
    (ActionRequest.takeEach ⟨Dictionary.distinct (pieces actions), asked⟩
      (stages location accessControl)).remaining = unknown actions := by
  rw [ActionRequest.remaining_takeEach, unknown]
  refine List.filter_congr fun piece _ => decide_eq_decide.mpr (not_congr ?_)
  rw [mem_words_stages, mem_words_all]

/-- An action string fails if some of its pieces name no action, with all of these. -/
theorem ofActions_eq_error_iff {failure : AuthorizationError} :
    ofActions actions location accessControl = .error failure ↔
      unknown actions ≠ [] ∧ failure = .unknownActions (unknown actions) := by
  rw [ofActions_eq_outcome, ActionRequest.outcome, remaining_stages]
  cases unknown actions <;> simp [eq_comm]

/-- If all pieces name actions, they ask for what the actions ask for. -/
theorem ofActions_eq_ok_iff {asked : Permissions} :
    ofActions actions location accessControl = .ok asked ↔
      unknown actions = [] ∧ ∀ i, i ∈ asked ↔ ∃ action : Action,
        action.word ∈ pieces actions ∧ i ∈ action.permissions location accessControl := by
  rw [ofActions_eq_outcome, ActionRequest.outcome, remaining_stages]
  cases unknown actions with
  | cons first others => simp
  | nil =>
      let named : ActionRequest := { remaining := Dictionary.distinct (pieces actions) }
      have each (i : Nat) : i ∈ (named.takeEach (stages location accessControl)).asked ↔
          ∃ action : Action, action.word ∈ pieces actions ∧
            i ∈ action.permissions location accessControl := by
        simp [ActionRequest.mem_asked_takeEach, named, Mask.notMem_empty,
          Dictionary.mem_distinct, lookup_stages]
      simp only [true_and, Except.ok.injEq, ← each]
      exact ⟨fun same i => same ▸ Iff.rfl, fun same => Mask.ext fun i => (same i).symm⟩

/-- The name of an action alone asks for what the action asks for. -/
theorem ofActions_word (action : Action) :
    ofActions action.word location accessControl =
      .ok (action.permissions location accessControl) := by
  refine ofActions_eq_ok_iff.mpr ⟨List.eq_nil_iff_forall_not_mem.mpr fun piece member => ?_, ?_⟩
  · obtain ⟨listed, unnamed⟩ := mem_unknown.mp member
    rw [pieces_word, List.mem_singleton] at listed
    exact unnamed action listed.symm
  · intro i
    simp [pieces_word, word_inj]

/-- What the actions of an action string ask for is what its pieces ask for, each alone. -/
theorem mem_alone_iff {i : Nat} :
    (∃ piece ∈ pieces actions, ∃ own,
      ofActions piece location accessControl = .ok own ∧ i ∈ own) ↔
    ∃ action : Action, action.word ∈ pieces actions ∧
      i ∈ action.permissions location accessControl := by
  constructor
  · rintro ⟨piece, member, own, alone, inside⟩
    obtain ⟨action, named, asks⟩ := ((ofActions_eq_ok_iff.mp alone).2 i).mp inside
    rw [pieces_of_mem member, List.mem_singleton] at named
    exact ⟨action, named ▸ member, asks⟩
  · rintro ⟨action, member, asks⟩
    exact ⟨action.word, member, _, ofActions_word action, asks⟩

/-- **Actions are translated one by one.** An action string fails exactly if one of its pieces names
no action, and then with all such pieces, each once and in ascending order. Otherwise it asks for
what its pieces ask for, each alone, and the name of an action alone for what the action asks for.
On access control content this is nothing that reads or changes content; a change asks to modify
access control there. Which pieces there are is all that matters, not their order, how often they
occur or what is blank around and between them. -/
theorem translated_action_by_action (actions : String) (location : Location)
    (accessControl : Bool) :
    let pieces := Action.pieces actions
    let translate (text : String) := ofActions text location accessControl
    ((∃ failure, translate actions = .error failure) ↔
        ∃ piece ∈ pieces, ∀ action : Action, action.word ≠ piece) ∧
      (∀ failure, translate actions = .error failure →
        ∃ unknown : List String, failure = .unknownActions unknown ∧
          unknown.Pairwise (· < ·) ∧
          ∀ piece, piece ∈ unknown ↔ piece ∈ pieces ∧ ∀ action : Action, action.word ≠ piece) ∧
      (∀ asked, translate actions = .ok asked →
        (∀ i, i ∈ asked ↔
          ∃ piece ∈ pieces, ∃ own, translate piece = .ok own ∧ i ∈ own) ∧
        (accessControl = true →
          asked ∩ (Permissions.read ∪ Permissions.write) = ∅ ∧
            ∀ action ∈ Action.writes, action.word ∈ pieces →
              Permissions.modifyAccessControl ⊆ asked)) ∧
      (∀ action : Action,
        translate action.word = .ok (action.permissions location accessControl)) ∧
      ∀ others, (∀ piece, piece ∈ Action.pieces others ↔ piece ∈ pieces) →
        translate others = translate actions := by
  intro pieces translate
  refine ⟨?_, ?_, ?_, ofActions_word, ?_⟩
  · simp only [translate, ofActions_eq_error_iff, exists_and_left, exists_eq, and_true, ne_eq,
      List.eq_nil_iff_forall_not_mem, mem_unknown, not_forall, not_not]
    exact exists_congr fun piece => Iff.rfl
  · intro failure failed
    obtain ⟨-, rfl⟩ := ofActions_eq_error_iff.mp failed
    exact ⟨unknown actions, rfl, (Dictionary.sorted_distinct _).filter _, fun _ => mem_unknown⟩
  · intro asked translated
    have each := (ofActions_eq_ok_iff.mp translated).2
    refine ⟨fun i => (each i).trans mem_alone_iff.symm, ?_⟩
    rintro rfl
    refine ⟨?_, fun action write member => ?_⟩
    · refine Mask.ext fun i => iff_of_false (fun inside => ?_) (Mask.notMem_empty i)
      obtain ⟨held, regular⟩ := Mask.mem_inter.mp inside
      obtain ⟨action, -, asks⟩ := (each i).mp held
      have both := Mask.mem_inter.mpr ⟨asks, regular⟩
      rw [permissions_accessControl] at both
      exact Mask.notMem_empty i both
    · refine Mask.subset_iff.mpr fun i inside => (each i).mpr ⟨action, member, ?_⟩
      rwa [permissions_of_write location write]
  · intro others same
    change ofActions others _ _ = ofActions actions _ _
    rw [ofActions_eq_outcome, ofActions_eq_outcome, Dictionary.distinct_congr same]

/-- Unknown pieces are listed once each, in ascending order. -/
example : ofActions "fly, read,,crawl ,fly" (.nothing "/docs") false =
    .error (.unknownActions ["crawl", "fly"]) := by cbv

end Permissions

end Authorization
