import Authorization.Proofs.Decision.Hiding
import Authorization.Proofs.Decision.ReadAll
import Authorization.Proofs.Provider.Likeness

/-!
# Decisions of policies that are alike

Whatever single providers or composites with standard types decide on the way from the root follows
from what their policies grant at the place. So where policies are alike, decisions about a place
give the same answers, whichever way they were reached (`Reached.answers_alike`). Only reading
everything below may differ, as it also goes by what is denied at places that do not exist.
-/

namespace Authorization

/-- Answers that are the same as others but for reading everything below, which they grant where the
others do. -/
structure NodeAnswers.Extends (answers before : NodeAnswers) : Prop where
  same : answers = { before with canReadAll := answers.canReadAll }
  canReadAll : before.canReadAll = true → answers.canReadAll = true

/-- A policy that is like another one but may deny less below some places. -/
structure Policy.Relaxes (second first : Policy) : Prop where
  alike : second.Alike first
  denies : ∀ path asked, second.deniesBelow path asked = true → first.deniesBelow path asked = true

/-- Where nothing is granted, every answer is no. -/
theorem NodeAnswers.ofGranted_empty : ofGranted ∅ false = always false := by
  have none (asked : Permissions) : (!asked.isEmpty && decide (asked ⊆ ∅)) = false := by
    rw [Bool.and_eq_false_iff, Bool.not_eq_false', Mask.isEmpty_iff, decide_eq_false_iff_not]
    by_cases bare : asked ⊆ ∅
    · exact .inl fun i member => Mask.notMem_empty i (Mask.subset_iff.mp bare i member)
    · exact .inr bare
  refine NodeAnswers.ext ?_ ?_ rfl ?_ (funext none) (funext fun asked => funext fun _ => none asked)
  · exact none .readNode
  · exact funext fun _ => none .readProperty
  · exact none .readProperty

namespace Policy

variable {first second : Policy} {path : String}

/-- A policy that denies less below reads everything where the other one does. -/
theorem Relaxes.readsAll (relaxes : second.Relaxes first) (all : first.readsAll path = true) :
    second.readsAll path = true := by
  rw [readsAll_iff] at all ⊢
  obtain ⟨within, free⟩ := all
  refine ⟨relaxes.alike.grantedAt path ▸ within, Bool.eq_false_iff.mpr fun denied => ?_⟩
  rw [relaxes.denies path _ denied] at free
  exact Bool.noConfusion free

/-- What a policy decides about a visible place answers by what is granted there. -/
theorem answers_decide (policy : Policy) (path : String) :
    (policy.decide path false).answers =
      .ofGranted (policy.grantedAt path) (policy.readsAll path) := by
  have all := policy.canReadAll_decide path
  rw [decide_visible, PolicyDecision.ofGranted] at all ⊢
  split
  · rename_i hopeless
    have bare : policy.grantedAt path = ∅ := beq_iff_eq.mp ((Bool.and_eq_true ..).mp hopeless).1
    rw [if_pos hopeless] at all
    have never : policy.readsAll path = false := all.symm
    rw [bare, never, NodeAnswers.ofGranted_empty]
    rfl
  · rfl

end Policy

namespace World

/-- The decisions that a provider reaches from the root along names: it is asked about a tree there,
or the last decision for the one about the child. Read flags may be remembered at any time. -/
inductive Reached (world : World) (arrangement : Arrangement PolicyLeaf) :
    List String → TreePermission PolicyLeaf PolicyDecision → Prop
  | root {tree : Tree} (top : tree.path = Path.root)
      (parent : TreePermission PolicyLeaf PolicyDecision) :
      Reached world arrangement [] (arrangement.treePermission world.seen tree parent).run
  | step {names : List String} {name : String}
      {permission : TreePermission PolicyLeaf PolicyDecision}
      (reached : Reached world arrangement names permission) (named : Path.IsName name)
      {tree : Tree} (here : tree.path = Path.ofElements (names ++ [name])) :
      Reached world arrangement (names ++ [name])
        (arrangement.treePermission world.seen tree permission).run
  | child {names : List String} {name : String}
      {permission : TreePermission PolicyLeaf PolicyDecision}
      (reached : Reached world arrangement names permission) (named : Path.IsName name)
      (state : NodeState) :
      Reached world arrangement (names ++ [name]) (permission.child world.seen name state).run
  | recalled {names : List String} {permission other : TreePermission PolicyLeaf PolicyDecision}
      (reached : Reached world arrangement names permission)
      (same : other.forget = permission.forget) (truthful : other.Truthful world.seen) :
      Reached world arrangement names other

/-- A decision of a single provider about the place that names lead to: what its policy decides
there if no name is hidden, or nothing where a name is hidden or the policy grants nothing from
there on downwards. -/
inductive DecidedAt (world : World) (leaf : PolicyLeaf) (names : List String) :
    NodePermission PolicyDecision → Prop
  | decided (shown : names.any Path.isHiddenName = false) :
      DecidedAt world leaf names ((world.policy leaf).decide (Path.ofElements names) false)
  | nothing {permission : NodePermission PolicyDecision}
      (nothing : permission.grantsNothing = true)
      (lost : names.any Path.isHiddenName = true ∨ world.Hopeless names (.leaf leaf)) :
      DecidedAt world leaf names permission

section DecidedAt

variable {world : World} {leaf : PolicyLeaf} {names : List String} {name : String}

/-- A single provider asked about a tree decides there. -/
theorem decidedAt_tree (named : ∀ name ∈ names, Path.IsName name) {tree : Tree}
    (here : tree.path = Path.ofElements names)
    (parent : TreePermission PolicyLeaf PolicyDecision) :
    ∃ single,
      ((Arrangement.leaf leaf).treePermission world.seen tree parent).run = .node single ∧
        world.DecidedAt leaf names single := by
  have hides : Path.isHidden tree.path = names.any Path.isHiddenName := by
    rw [Path.isHidden, here, Path.elements_ofElements named]
  refine ⟨(world.policy leaf).decide tree.path (Path.isHidden tree.path),
    congrArg TreePermission.node (NodePermission.map_id _), ?_⟩
  rw [hides, here]
  cases hidden : names.any Path.isHiddenName with
  | false => exact .decided hidden
  | true => exact .nothing rfl (.inl hidden)

/-- The decision about a child is one that the provider could make there. -/
theorem DecidedAt.child {single : NodePermission PolicyDecision}
    (decided : world.DecidedAt leaf names single)
    (named : ∀ other ∈ names ++ [name], Path.IsName other) (state : NodeState) :
    world.DecidedAt leaf (names ++ [name]) (single.child name state) := by
  have kept {single : NodePermission PolicyDecision} (nothing : single.grantsNothing = true)
      (lost : names.any Path.isHiddenName = true ∨ world.Hopeless names (.leaf leaf)) :
      world.DecidedAt leaf (names ++ [name]) (single.child name state) := by
    rw [NodePermission.child_of_grantsNothing nothing]
    refine .nothing nothing (lost.imp (fun hidden => ?_) fun hopeless => hopeless.append named)
    rw [List.any_append, hidden, Bool.true_or]
  cases decided with
  | nothing nothing lost => exact kept nothing lost
  | decided shown =>
      by_cases stuck : ((world.policy leaf).decide (Path.ofElements names) false).grantsNothing =
          true
      · refine kept stuck (.inr fun other present => ?_)
        rw [List.mem_singleton.mp present]
        exact Policy.decide_eq_noRecourse stuck
      · have above : ∀ other ∈ names, Path.IsName other :=
          fun other member => named other (List.mem_append_left _ member)
        have below := named name (by simp)
        rw [Policy.decide_visible, PolicyDecision.ofGranted] at stuck ⊢
        split at stuck
        · exact absurd rfl stuck
        · rename_i granting
          rw [if_neg granting]
          simp only [NodePermission.child, NodeDecision.child, PolicyDecision.child]
          split
          · rename_i hidden
            exact .nothing rfl (.inl (by simp [hidden]))
          · rename_i visible
            rw [Path.concat_ofElements above below, ← Policy.grantedAt_ofElements above below,
              ← Policy.decide_visible]
            exact .decided (by simp [shown, visible])

/-- What a single provider answers where it decides: nothing on hidden paths, and else what its
policy says. -/
theorem DecidedAt.answers_eq {single : NodePermission PolicyDecision}
    (decided : world.DecidedAt leaf names single) :
    single.answers =
      if names.any Path.isHiddenName then .always false
      else .ofGranted ((world.policy leaf).grantedAt (Path.ofElements names))
        ((world.policy leaf).readsAll (Path.ofElements names)) := by
  rw [← Policy.answers_decide]
  cases decided with
  | decided shown => rw [if_neg (by simp [shown])]
  | nothing nothing lost =>
      rw [NodePermission.answers_of_grantsNothing nothing]
      split
      · rfl
      · rename_i shown
        rw [lost.resolve_left shown leaf (List.mem_singleton_self leaf)]
        rfl

end DecidedAt

namespace Reached

variable {world : World} {arrangement : Arrangement PolicyLeaf} {names : List String}
  {permission : TreePermission PolicyLeaf PolicyDecision}

theorem isName (reached : Reached world arrangement names permission) :
    ∀ name ∈ names, Path.IsName name := by
  induction reached with
  | root => simp
  | step _ named _ ih | child _ named _ ih => exact Path.isName_append_singleton ih named
  | recalled _ _ _ ih => exact ih

/-- What a composite reaches in this way, it reaches by walking. -/
theorem walked {combination : Combination} {members : List (Arrangement PolicyLeaf)}
    (reached : Reached world (.composite combination members) names permission) :
    Walked world combination members names permission := by
  induction reached with
  | root top parent => exact .root (by rw [top]; decide) parent
  | step reached named here ih =>
      have elements := Path.elements_ofElements
        (Path.isName_append_singleton reached.isName named)
      exact ih.step (by rw [here, elements])
  | child reached named state ih => exact ih.child named state
  | recalled reached same truthful ih => exact ih.recalled same truthful

/-- The provider that has no opinions decides that nothing is granted. -/
theorem eq_empty (reached : Reached world .empty names permission) :
    permission = TreePermission.empty := by
  induction reached with
  | root top parent => cases parent <;> rfl
  | @step names name permission reached named tree here ih => rw [ih]; rfl
  | child reached named state ih => rw [ih]; rfl
  | recalled reached same truthful ih =>
      rw [ih] at same
      exact TreePermission.eq_node_of_forget same

/-- What a single provider reaches is decided at the place. -/
theorem decidedAt {leaf : PolicyLeaf} (reached : Reached world (.leaf leaf) names permission) :
    ∃ single, permission = .node single ∧ world.DecidedAt leaf names single := by
  induction reached with
  | root top parent => exact decidedAt_tree (by simp) top parent
  | step reached named here ih =>
      exact decidedAt_tree (Path.isName_append_singleton reached.isName named) here _
  | child reached named state ih =>
      obtain ⟨single, rfl, decided⟩ := ih
      exact ⟨_, rfl, decided.child (Path.isName_append_singleton reached.isName named) state⟩
  | recalled reached same truthful ih =>
      obtain ⟨single, rfl, decided⟩ := ih
      exact ⟨single, TreePermission.eq_node_of_forget same, decided⟩

end Reached

section Alike

variable {world later : World} {names : List String}
  {permission other : TreePermission PolicyLeaf PolicyDecision}

/-- A single provider whose policy denies less below reads everything in more places. -/
theorem extends_leaf {leaf : PolicyLeaf} (relaxes : (later.policy leaf).Relaxes (world.policy leaf))
    {single again : NodePermission PolicyDecision} (decided : world.DecidedAt leaf names single)
    (anew : later.DecidedAt leaf names again) : again.answers.Extends single.answers := by
  rw [decided.answers_eq, anew.answers_eq]
  split
  · exact ⟨rfl, id⟩
  · rw [relaxes.alike.grantedAt]
    exact ⟨rfl, relaxes.readsAll⟩

/-- A composite whose policies deny less below reads everything in more places. -/
theorem extends_composite {combination : Combination} {members : List (Arrangement PolicyLeaf)}
    (standard : Standard (.composite combination members))
    (relaxes : ∀ leaf ∈ (Arrangement.composite combination members).leaves,
      (later.policy leaf).Relaxes (world.policy leaf))
    (walked : Walked world combination members names permission)
    (again : Walked later combination members names other) :
    (other.answers later.seen).Extends (permission.answers world.seen) := by
  -- Only decisions about places that are not concealed follow from what the policies grant there.
  by_cases concealed : Path.Concealed names
  · rw [walked.answers_of_concealed standard concealed,
      again.answers_of_concealed standard concealed]
    exact ⟨rfl, id⟩
  · have afresh := walked.within.afresh (standard.looks world)
      (TreeType.shown_of_not_concealed concealed)
    have anew := again.within.afresh (standard.looks later)
      (TreeType.shown_of_not_concealed concealed)
    have opinion (i : Nat) : other.opinion later.covers i (.composite combination members) =
        permission.opinion world.covers i (.composite combination members) := by
      rw [afresh.opinion_eq, anew.opinion_eq]
      refine Arrangement.opinion_congr fun leaf present => ?_
      have alike := (relaxes leaf present).alike
      rw [covers, covers, alike.covers, alike.grantedAt]
    refine ⟨world.answers_of_opinion walked.kept.paired walked.kept.truthful again.kept.paired
      again.kept.truthful opinion, ?_⟩
    rw [afresh.canReadAll_iff walked.isName walked.kept.truthful,
      anew.canReadAll_iff again.isName again.kept.truthful]
    refine (Arrangement.opinion_stricter fun leaf present => ⟨?_, ?_⟩).grants
    · rw [readAllOpinion_isSome, readAllOpinion_isSome, covers, covers,
        (relaxes leaf present).alike.covers]
      exact id
    · rw [readAllOpinion_eq_true, readAllOpinion_eq_true]
      exact (relaxes leaf present).readsAll

/-- Policies that are alike, and deny no more below, decide alike about every place, up to reading
everything below it. -/
theorem Reached.answers_alike {arrangement : Arrangement PolicyLeaf}
    (standard : Standard arrangement)
    (relaxes : ∀ leaf ∈ arrangement.leaves, (later.policy leaf).Relaxes (world.policy leaf))
    (reached : Reached world arrangement names permission)
    (again : Reached later arrangement names other) :
    (other.answers later.seen).Extends (permission.answers world.seen) := by
  cases arrangement with
  | empty =>
      rw [reached.eq_empty, again.eq_empty]
      exact ⟨rfl, id⟩
  | leaf provider =>
      obtain ⟨single, rfl, decided⟩ := reached.decidedAt
      obtain ⟨more, rfl, anew⟩ := again.decidedAt
      exact extends_leaf (relaxes provider (List.mem_singleton_self provider)) decided anew
  | composite combination members =>
      exact extends_composite standard relaxes reached.walked again.walked

end Alike

end World

end Authorization
