import Authorization.Proofs.Decision.Lifetime
import Authorization.Proofs.Provider.Likeness

/-!
# Decisions leave no trace

Deciding about the root and deriving decisions from parent to child give the same in every monad in
which providers may be asked, and leave no trace in it (`treePermission_pure`, `child_pure`). What
comes out depends on nothing but the content that composites see and the policies in force, so it
can be walked to wherever these are the same (`Walked.agree`).
-/

namespace Authorization

namespace World

variable {m : Type → Type} [Monad m] [LawfulMonad m] (world : World)

omit [LawfulMonad m] in
/-- A choice between what leaves no trace leaves none. -/
theorem ite_pure {c : Prop} [Decidable c] {α : Type} {first second : m α} {plain other : Id α}
    (left : first = pure plain.run) (right : second = pure other.run) :
    (if c then first else second) = pure (if c then plain else other).run := by
  split
  · exact left
  · exact right

theorem decideRoots_pure {members : List (Arrangement PolicyLeaf)} {tree : Tree}
    (each : ∀ member ∈ members,
      member.decideRoot (world.snapshot : Snapshot m PolicyLeaf PolicyDecision) tree =
        pure (member.decideRoot world.seen tree).run) :
    Arrangement.decideRoots (world.snapshot : Snapshot m PolicyLeaf PolicyDecision) members tree =
      pure (Arrangement.decideRoots world.seen members tree).run := by
  induction members with
  | nil => rfl
  | cons member members ih =>
      obtain ⟨here, later⟩ := List.forall_mem_cons.mp each
      simp only [Arrangement.decideRoots, here, ih later, pure_bind]
      rfl

/-- Deciding about the root has no effect. -/
theorem decideRoot_pure (arrangement : Arrangement PolicyLeaf) (tree : Tree) :
    arrangement.decideRoot (world.snapshot : Snapshot m PolicyLeaf PolicyDecision) tree =
      pure (arrangement.decideRoot world.seen tree).run := by
  induction arrangement generalizing tree with
  | empty => rfl
  | leaf provider =>
      simp only [Arrangement.decideRoot, snapshot, PolicyLeaf.provider, pure_bind, Id.run_pure]
  | composite combination members ih =>
      cases members with
      | nil => rfl
      | cons member members =>
          simp only [Arrangement.decideRoot,
            world.decideRoots_pure fun other present => ih other present _, pure_bind]
          rfl

theorem deriveParts_pure
    {parts : List (Arrangement PolicyLeaf × TreePermission PolicyLeaf PolicyDecision)} {tree : Tree}
    {type : TreeType}
    (each : ∀ part ∈ parts,
      part.2.derive (world.snapshot : Snapshot m PolicyLeaf PolicyDecision) part.1 tree type =
        pure (part.2.derive world.seen part.1 tree type).run) :
    TreePermission.deriveParts (world.snapshot : Snapshot m PolicyLeaf PolicyDecision) parts tree
        type =
      pure (TreePermission.deriveParts world.seen parts tree type).run := by
  induction parts with
  | nil => rfl
  | cons part parts ih =>
      obtain ⟨here, later⟩ := List.forall_mem_cons.mp each
      simp only [TreePermission.deriveParts, here, ih later, pure_bind]
      split <;> rfl

/-- Deriving a decision has no effect. -/
theorem derive_pure (permission : TreePermission PolicyLeaf PolicyDecision)
    (arrangement : Arrangement PolicyLeaf) (tree : Tree) (type : TreeType) :
    permission.derive (world.snapshot : Snapshot m PolicyLeaf PolicyDecision) arrangement tree
        type =
      pure (permission.derive world.seen arrangement tree type).run := by
  have root (arrangement : Arrangement PolicyLeaf) (tree : Tree) :
      arrangement.decideRoot (world.snapshot : Snapshot m PolicyLeaf PolicyDecision) tree = _ :=
    world.decideRoot_pure arrangement tree
  induction permission generalizing arrangement tree type with
  | node permission =>
      cases arrangement with
      | empty => rfl
      | leaf provider =>
          simp only [TreePermission.derive, snapshot, PolicyLeaf.provider, pure_bind, Id.run_pure]
      | composite combination members =>
          exact ite_pure (root _ _) rfl
  | combined site parts ih =>
      -- Each part is derived in its own arrangement, whatever the arrangement of the whole is.
      cases arrangement with
      | empty => rfl
      | leaf provider =>
          simp only [TreePermission.derive, snapshot, PolicyLeaf.provider, pure_bind, Id.run_pure]
      | composite combination members =>
          have derived := world.deriveParts_pure fun part present => ih part present part.1
            (world.place combination tree) (site.classify (world.place combination tree) site.type)
          exact ite_pure (root _ _) ((congrArg (· >>= _) derived).trans (pure_bind _ _))

/-- Asking a decision for the one about a child has no effect. -/
theorem child_pure (permission : TreePermission PolicyLeaf PolicyDecision) (name : String)
    (state : NodeState) :
    permission.child (world.snapshot : Snapshot m PolicyLeaf PolicyDecision) name state =
      pure (permission.child world.seen name state).run := by
  cases permission with
  | node permission => rfl
  | combined site parts =>
      have derived (tree : Tree) (type : TreeType) : TreePermission.deriveParts
          (world.snapshot : Snapshot m PolicyLeaf PolicyDecision) parts tree type = _ :=
        world.deriveParts_pure fun part _ => world.derive_pure part.2 part.1 tree type
      simp only [TreePermission.child, derived, pure_bind]
      rfl

/-- Deciding about a tree has no effect. -/
theorem treePermission_pure (arrangement : Arrangement PolicyLeaf) (tree : Tree)
    (parent : TreePermission PolicyLeaf PolicyDecision) :
    arrangement.treePermission (world.snapshot : Snapshot m PolicyLeaf PolicyDecision) tree parent =
      pure (arrangement.treePermission world.seen tree parent).run := by
  cases arrangement with
  | leaf provider =>
      simp only [Arrangement.treePermission, snapshot, PolicyLeaf.provider, pure_bind, Id.run_pure]
  | empty | composite => exact world.derive_pure parent _ tree .default

section Agree

omit [Monad m] [LawfulMonad m]

/-- Worlds in which an arrangement sees the same content and has the same policies in force. -/
structure Agree (first second : World) (arrangement : Arrangement PolicyLeaf) : Prop where
  roots : ∀ combination ∈ arrangement.combinations,
    first.roots combination.id = second.roots combination.id
  policies : ∀ leaf ∈ arrangement.leaves, first.policy leaf = second.policy leaf

variable {first second third : World} {arrangement : Arrangement PolicyLeaf}
  {combination : Combination} {members : List (Arrangement PolicyLeaf)}

theorem Agree.alike (agree : first.Agree second arrangement) : first.Alike second arrangement where
  roots := agree.roots
  policies leaf present := agree.policies leaf present ▸ ⟨rfl, fun _ => rfl, rfl⟩

theorem Agree.refl (world : World) (arrangement : Arrangement PolicyLeaf) :
    world.Agree world arrangement :=
  ⟨fun _ _ => rfl, fun _ _ => rfl⟩

theorem Agree.symm (agree : first.Agree second arrangement) : second.Agree first arrangement where
  roots combination listed := (agree.roots combination listed).symm
  policies leaf present := (agree.policies leaf present).symm

theorem Agree.trans (agree : first.Agree second arrangement)
    (again : second.Agree third arrangement) : first.Agree third arrangement where
  roots combination listed :=
    (agree.roots combination listed).trans (again.roots combination listed)
  policies leaf present := (agree.policies leaf present).trans (again.policies leaf present)

theorem Agree.member (agree : first.Agree second (.composite combination members))
    {member : Arrangement PolicyLeaf} (present : member ∈ members) :
    first.Agree second member where
  roots := (agree.alike.member present).roots
  policies leaf inside :=
    agree.policies leaf (Arrangement.mem_leavesOfAll.mpr ⟨member, present, inside⟩)

theorem Agree.place (agree : first.Agree second (.composite combination members)) (tree : Tree) :
    first.place combination tree = second.place combination tree := by
  rw [World.place, World.place, agree.roots combination List.mem_cons_self]

/-- Worlds that agree give the same decision about the root. -/
theorem Agree.decideRoot (agree : first.Agree second arrangement) (tree : Tree) :
    (arrangement.decideRoot first.seen tree).run =
      (arrangement.decideRoot second.seen tree).run := by
  induction arrangement generalizing tree with
  | empty => rfl
  | leaf provider =>
      rw [decideRoot_leaf, decideRoot_leaf, agree.policies provider (List.mem_singleton_self _)]
  | composite combination members ih =>
      cases members with
      | nil => rfl
      | cons member members =>
          rw [decideRoot_composite, decideRoot_composite,
            agree.roots combination List.mem_cons_self]
          refine congrArg _ (List.map_congr_left fun other present => ?_)
          rw [ih other present (agree.member present)]

theorem Agree.derive_leaf {leaf : PolicyLeaf} (agree : first.Agree second (.leaf leaf))
    (permission : TreePermission PolicyLeaf PolicyDecision) (tree : Tree) (type : TreeType) :
    (permission.derive first.seen (.leaf leaf) tree type).run =
      (permission.derive second.seen (.leaf leaf) tree type).run := by
  rw [World.derive_leaf, World.derive_leaf, agree.policies leaf (List.mem_singleton_self _)]

theorem Agree.derive_root (agree : first.Agree second (.composite combination members))
    {tree : Tree} (atRoot : Path.elements tree.path = [])
    (permission : TreePermission PolicyLeaf PolicyDecision) (type : TreeType) :
    (permission.derive first.seen (.composite combination members) tree type).run =
      (permission.derive second.seen (.composite combination members) tree type).run := by
  rw [World.derive_root atRoot, World.derive_root atRoot, agree.place, agree.decideRoot]

theorem nextParts_congr {tree : Tree} {type : TreeType}
    {parts : List (Arrangement PolicyLeaf × TreePermission PolicyLeaf PolicyDecision)}
    (same : ∀ part ∈ parts, (part.2.derive first.seen part.1 tree type).run =
      (part.2.derive second.seen part.1 tree type).run) :
    first.nextParts tree type parts = second.nextParts tree type parts := by
  refine List.map_congr_left fun part present => ?_
  rw [nextPart, nextPart, same part present]

variable {fits : PolicyLeaf → NodePermission PolicyDecision → Prop}
  {permission : TreePermission PolicyLeaf PolicyDecision}

theorem Agree.derive (paired : permission.Paired fits arrangement)
    (agree : first.Agree second arrangement) (tree : Tree) (type : TreeType) :
    (permission.derive first.seen arrangement tree type).run =
      (permission.derive second.seen arrangement tree type).run := by
  induction paired generalizing tree type with
  | leaf => exact agree.derive_leaf _ tree type
  | @nothing arrangement permission nothing =>
      cases arrangement with
      | empty => rfl
      | leaf provider => exact agree.derive_leaf _ tree type
      | composite combination members =>
          by_cases atRoot : Path.elements tree.path = []
          · exact agree.derive_root atRoot _ type
          · rw [derive_node_composite atRoot, derive_node_composite atRoot, agree.place]
  | @combined combination members site parts lined paired ih =>
      by_cases atRoot : Path.elements tree.path = []
      · exact agree.derive_root atRoot _ type
      · have same (tree : Tree) (type : TreeType) :
            first.nextParts tree type parts = second.nextParts tree type parts :=
          nextParts_congr fun part present =>
            ih part present (agree.member (lined ▸ List.mem_map_of_mem present)) tree type
        rw [derive_combined_composite atRoot, derive_combined_composite atRoot, agree.place]
        simp only [same]

theorem Agree.child (paired : permission.Paired fits (.composite combination members))
    (agree : first.Agree second (.composite combination members)) (name : String)
    (state : NodeState) :
    (permission.child first.seen name state).run =
      (permission.child second.seen name state).run := by
  cases paired with
  | nothing => rfl
  | @combined _ _ site parts lined paired =>
      have same (tree : Tree) (type : TreeType) :
          first.nextParts tree type parts = second.nextParts tree type parts :=
        nextParts_congr fun part present => Agree.derive (paired part present)
          (agree.member (lined ▸ List.mem_map_of_mem present)) tree type
      simp only [child_combined, same]

theorem Agree.covers (agree : first.Agree second arrangement) :
    ∀ leaf ∈ arrangement.leaves, first.covers leaf = second.covers leaf := by
  intro leaf present
  rw [World.covers, World.covers, agree.policies leaf present]

/-- What is remembered is as true in a world that agrees. -/
theorem Agree.truthful (paired : permission.Paired fits arrangement)
    (agree : first.Agree second arrangement) (truthful : permission.Truthful first.seen) :
    permission.Truthful second.seen := by
  induction paired with
  | leaf | nothing => exact .node
  | @combined combination members site parts lined paired ih =>
      cases truthful with
      | combined here within =>
          have inside {part} (present : part ∈ parts) : first.Agree second part.1 :=
            agree.member (lined ▸ List.mem_map_of_mem present)
          have same : TreePermission.decisionParts first.seen parts =
              TreePermission.decisionParts second.seen parts := by
            rw [TreePermission.decisionParts_eq_map, TreePermission.decisionParts_eq_map]
            refine List.map_congr_left fun part present => ?_
            simp only [coverage_congr (paired part present) (inside present).covers,
              answers_congr (paired part present) (inside present).covers]
          refine .combined (same ▸ here) fun part present => ?_
          exact ih part present (inside present) (within part present)

/-- Where an arrangement sees the same, the same decisions are walked to. -/
theorem Walked.agree {names : List String}
    (walked : Walked first combination members names permission)
    (agree : first.Agree second (.composite combination members)) :
    Walked second combination members names permission := by
  induction walked with
  | @root tree top parent =>
      change Walked second combination members []
        (parent.derive first.seen (.composite combination members) tree .default).run
      rw [agree.derive_root top]
      exact .root top parent
  | @step names name permission walked tree here ih =>
      change Walked second combination members (names ++ [name])
        (permission.derive first.seen (.composite combination members) tree .default).run
      rw [Agree.derive walked.kept.paired agree]
      exact ih.step here
  | child walked named state ih =>
      rw [Agree.child walked.kept.paired agree]
      exact ih.child named state
  | recalled walked same truthful ih =>
      exact ih.recalled same (agree.truthful (walked.kept.paired.of_forget same) truthful)

end Agree

end World

end Authorization
