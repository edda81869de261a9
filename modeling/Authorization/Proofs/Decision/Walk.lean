import Authorization.Proofs.Decision.ReadFlags

/-!
# Decisions reached by walking

A decision is reached by walking (`Walked`) if it was given for the root and then derived from
parent to child, one name at a time, by the provider or by the decision itself; read flags may be
asked for on the way. Such decisions keep no grants beyond what their providers covered and remember
nothing stale (`Walked.kept`).
-/

namespace Authorization

namespace NodePermission

variable {D : Type}

theorem map_id (permission : NodePermission D) : permission.map id = permission := by
  cases permission <;> rfl

theorem isTerminal_of_grantsNothing {permission : NodePermission D}
    (nothing : permission.grantsNothing = true) : permission.isTerminal = true := by
  cases permission with
  | all | empty | noRecourse => rfl
  | decided => exact nothing

theorem child_of_isTerminal [NodeDecision D] {permission : NodePermission D}
    (terminal : permission.isTerminal = true) (name : String) (state : NodeState) :
    permission.child name state = permission := by
  cases permission with
  | all | empty | noRecourse => rfl
  | decided => exact absurd terminal (by simp [isTerminal])

theorem child_of_grantsNothing [NodeDecision D] {permission : NodePermission D}
    (nothing : permission.grantsNothing = true) (name : String) (state : NodeState) :
    permission.child name state = permission :=
  child_of_isTerminal (isTerminal_of_grantsNothing nothing) name state

end NodePermission

theorem TreePermission.grantsNothing_of_isNoRecourse {L D : Type} {permission : TreePermission L D}
    (passed : permission.isNoRecourse = true) : permission.grantsNothing = true := by
  cases permission with
  | combined => exact absurd passed (by simp [isNoRecourse])
  | node permission =>
      cases permission with
      | noRecourse => rfl
      | all | empty | decided => exact absurd passed (by simp [isNoRecourse])

namespace TreePermission

variable {m : Type → Type} [Monad m] {L D : Type} [NodeDecision D] {snapshot : Snapshot m L D}
  {combination : Combination} {members : List (Arrangement L)} {tree : Tree}

/-- A composite is asked about a tree by deriving from the decision about its parent. -/
theorem treePermission_composite (parent : TreePermission L D) :
    (Arrangement.composite combination members).treePermission snapshot tree parent =
      parent.derive snapshot (.composite combination members) tree .default :=
  rfl

/-- About the root a composite decides afresh. -/
theorem derive_composite_of_root (top : Path.elements tree.path = [])
    (permission : TreePermission L D) (type : TreeType) :
    permission.derive snapshot (.composite combination members) tree type =
      (Arrangement.composite combination members).decideRoot snapshot
        ((Tree.root (snapshot.root combination.id)).descendant tree.path) := by
  have root : ((Tree.root (snapshot.root combination.id)).descendant tree.path).isRoot = true := by
    rw [Tree.isRoot_descendant_root, top]
    rfl
  cases permission <;> exact if_pos root

variable (below : Path.elements tree.path ≠ [])

include below

/-- A composite that goes on from a single decision asks it about the child at its own place. -/
theorem derive_composite_of_node (permission : NodePermission D) (type : TreeType) :
    (TreePermission.node permission).derive snapshot (.composite combination members) tree type =
      let place := (Tree.root (snapshot.root combination.id)).descendant tree.path
      pure (.node (permission.child place.name place.state)) := by
  refine if_neg ?_
  simpa [Tree.isRoot_descendant_root] using below

/-- A composite that goes on from a combined decision finds the type and derives all parts. -/
theorem derive_composite_of_combined (site : Site)
    (parts : List (Arrangement L × TreePermission L D)) (type : TreeType) :
    (TreePermission.combined site parts).derive snapshot (.composite combination members) tree
        type = (do
      let place := (Tree.root (snapshot.root combination.id)).descendant tree.path
      let type := site.classify place site.type
      let derived ← deriveParts snapshot parts place type
      pure ({ site with tree := place, type, memo := {} }.combine derived)) := by
  refine if_neg ?_
  simpa [Tree.isRoot_descendant_root] using below

section Terminal

variable {permission : NodePermission D} (terminal : permission.isTerminal = true)

include terminal

/-- A composite passes a decision that is the same for a whole subtree on without asking anyone. -/
theorem treePermission_of_isTerminal :
    (Arrangement.composite combination members).treePermission snapshot tree (.node permission) =
      pure (.node permission) := by
  rw [treePermission_composite, derive_composite_of_node below]
  dsimp only
  rw [NodePermission.child_of_isTerminal terminal]

omit below in
theorem child_of_isTerminal (name : String) (state : NodeState) :
    (TreePermission.node permission).child snapshot name state = pure (.node permission) := by
  rw [child, NodePermission.child_of_isTerminal terminal]

end Terminal

end TreePermission

namespace World

variable (world : World)

/-- A decision that holds nothing beyond what the provider covers. -/
def Confined (leaf : PolicyLeaf) (permission : NodePermission PolicyDecision) : Prop :=
  ∀ i, permission.holds i = true → i ∈ world.covers leaf

/-- A policy's decision holds only what the policy covers. -/
theorem confined_decide (leaf : PolicyLeaf) (path : String) (hidden : Bool) :
    world.Confined leaf ((world.policy leaf).decide path hidden) := by
  intro i held
  unfold Policy.decide PolicyDecision.ofGranted at held
  split at held
  · exact absurd held (by simp [NodePermission.holds])
  · split at held
    · exact absurd held (by simp [NodePermission.holds])
    · have within := (world.policy leaf).grantedAt_subset_covers path
      exact Mask.subset_iff.mp within i (of_decide_eq_true held)

section Equations

theorem decideRoots_eq_map (members : List (Arrangement PolicyLeaf)) (tree : Tree) :
    (Arrangement.decideRoots world.seen members tree).run =
      members.map fun member => (member, (member.decideRoot world.seen tree).run) := by
  induction members with
  | nil => rfl
  | cons member members ih =>
      rw [Arrangement.decideRoots, List.map_cons, ← ih]
      rfl

/-- The decision of a part about a child: a part without recourse stays so. -/
def nextPart (tree : Tree) (type : TreeType)
    (part : Arrangement PolicyLeaf × TreePermission PolicyLeaf PolicyDecision) :
    TreePermission PolicyLeaf PolicyDecision :=
  if part.2.isNoRecourse then part.2 else (part.2.derive world.seen part.1 tree type).run

/-- The parts with their decisions about a child. -/
def nextParts (tree : Tree) (type : TreeType)
    (parts : List (Arrangement PolicyLeaf × TreePermission PolicyLeaf PolicyDecision)) :
    List (Arrangement PolicyLeaf × TreePermission PolicyLeaf PolicyDecision) :=
  parts.map fun part => (part.1, world.nextPart tree type part)

theorem map_fst_nextParts (tree : Tree) (type : TreeType)
    (parts : List (Arrangement PolicyLeaf × TreePermission PolicyLeaf PolicyDecision)) :
    (world.nextParts tree type parts).map Prod.fst = parts.map Prod.fst := by
  rw [nextParts, List.map_map]
  rfl

theorem deriveParts_eq (tree : Tree) (type : TreeType)
    (parts : List (Arrangement PolicyLeaf × TreePermission PolicyLeaf PolicyDecision)) :
    (TreePermission.deriveParts world.seen parts tree type).run =
      world.nextParts tree type parts := by
  unfold nextParts
  induction parts with
  | nil => rfl
  | cons part parts ih =>
      rw [TreePermission.deriveParts, List.map_cons, ← ih, nextPart]
      split <;> rfl

theorem decideRoot_leaf (leaf : PolicyLeaf) (tree : Tree) :
    ((Arrangement.leaf leaf).decideRoot world.seen tree).run =
      .node ((world.policy leaf).decide tree.path false) := by
  have visible : decide (TreeType.default = .hidden) = false := rfl
  simp only [Arrangement.decideRoot, seen, snapshot, PolicyLeaf.provider, pure_bind, Id.run_pure,
    visible]
  exact congrArg _ (NodePermission.map_id _)

/-- The decision of a composite about the root. -/
theorem decideRoot_composite (combination : Combination) (member : Arrangement PolicyLeaf)
    (members : List (Arrangement PolicyLeaf)) (tree : Tree) :
    ((Arrangement.composite combination (member :: members)).decideRoot world.seen tree).run =
      .combined
        { tree := Tree.root (world.roots combination.id), type := .default
          classify := combination.classify, composition := combination.composition }
        ((member :: members).map fun member =>
          (member, (member.decideRoot world.seen (Tree.root (world.roots combination.id))).run)) := by
  rw [← decideRoots_eq_map]
  rfl

theorem derive_leaf (permission : TreePermission PolicyLeaf PolicyDecision) (leaf : PolicyLeaf)
    (tree : Tree) (type : TreeType) :
    (permission.derive world.seen (.leaf leaf) tree type).run =
      .node ((world.policy leaf).decide tree.path (type = .hidden)) := by
  rw [← NodePermission.map_id ((world.policy leaf).decide tree.path (type = .hidden))]
  cases permission <;> rfl

/-- The place of a tree in the content that a composite sees. -/
def place (combination : Combination) (tree : Tree) : Tree :=
  (Tree.root (world.roots combination.id)).descendant tree.path

variable {world} {combination : Combination} {tree : Tree}

/-- A composite sees a tree under the usual spelling of its path. -/
theorem path_place :
    (world.place combination tree).path = Path.ofElements (Path.elements tree.path) :=
  Tree.path_descendant_root _ _

variable {members : List (Arrangement PolicyLeaf)}

/-- About the root a composite decides afresh. -/
theorem derive_root (atRoot : Path.elements tree.path = [])
    (permission : TreePermission PolicyLeaf PolicyDecision) (type : TreeType) :
    (permission.derive world.seen (.composite combination members) tree type).run =
      ((Arrangement.composite combination members).decideRoot world.seen
        (world.place combination tree)).run :=
  congrArg Id.run (TreePermission.derive_composite_of_root atRoot permission type)

variable (below : Path.elements tree.path ≠ [])

include below

/-- A composite passes decisions that are not combined on as they are. -/
theorem derive_node_composite (permission : NodePermission PolicyDecision) (type : TreeType) :
    ((TreePermission.node permission).derive world.seen (.composite combination members) tree
        type).run =
      .node (permission.child (world.place combination tree).name
        (world.place combination tree).state) :=
  congrArg Id.run (TreePermission.derive_composite_of_node below permission type)

/-- A composite derives a combined decision from the parts, about the place in its own content. -/
theorem derive_combined_composite (site : Site)
    (parts : List (Arrangement PolicyLeaf × TreePermission PolicyLeaf PolicyDecision))
    (type : TreeType) :
    ((TreePermission.combined site parts).derive world.seen (.composite combination members) tree
        type).run =
      let place := world.place combination tree
      let type := site.classify place site.type
      { site with tree := place, type, memo := {} }.combine (world.nextParts place type parts) := by
  simp only [← deriveParts_eq]
  exact congrArg Id.run (TreePermission.derive_composite_of_combined below site parts type)

omit below in
/-- A decision that grants nothing answers for every child with itself. -/
theorem child_node_of_grantsNothing {permission : NodePermission PolicyDecision}
    (nothing : permission.grantsNothing = true) (name : String) (state : NodeState) :
    ((TreePermission.node (L := PolicyLeaf) permission).child world.seen name state).run =
      .node permission :=
  congrArg Id.run (TreePermission.child_of_isTerminal
    (NodePermission.isTerminal_of_grantsNothing nothing) name state)

omit below in
/-- A combined decision derives the one about a child from the parts. -/
theorem child_combined (site : Site)
    (parts : List (Arrangement PolicyLeaf × TreePermission PolicyLeaf PolicyDecision))
    (name : String) (state : NodeState) :
    ((TreePermission.combined site parts).child world.seen name state).run =
      let place : Tree := ⟨Path.concat site.tree.path name, state⟩
      let type := site.classify place site.type
      { site with tree := place, type, memo := {} }.combine (world.nextParts place type parts) := by
  simp only [← deriveParts_eq]
  rfl

end Equations

/-- What deriving keeps: decisions fit their providers, and nothing stale is remembered. -/
structure Kept (world : World) (arrangement : Arrangement PolicyLeaf)
    (permission : TreePermission PolicyLeaf PolicyDecision) : Prop where
  paired : permission.Paired world.Confined arrangement
  truthful : permission.Truthful world.seen

section Kept

variable {world : World}

theorem kept_nothing {permission : NodePermission PolicyDecision}
    (nothing : permission.grantsNothing = true) (arrangement : Arrangement PolicyLeaf) :
    world.Kept arrangement (.node permission) :=
  ⟨.nothing nothing, .node⟩

theorem kept_decide (leaf : PolicyLeaf) (path : String) (hidden : Bool) :
    world.Kept (.leaf leaf) (.node ((world.policy leaf).decide path hidden)) :=
  ⟨.leaf (world.confined_decide leaf path hidden), .node⟩

/-- Parts that fit their providers make a decision that fits the composite. -/
theorem kept_combined {site : Site} (fresh : site.memo = {})
    {members : List (Arrangement PolicyLeaf)}
    {parts : List (Arrangement PolicyLeaf × TreePermission PolicyLeaf PolicyDecision)}
    (lined : parts.map Prod.fst = members) (kept : ∀ part ∈ parts, world.Kept part.1 part.2)
    (combination : Combination) :
    world.Kept (.composite combination members) (.combined site parts) where
  paired := .combined lined fun part present => (kept part present).paired
  truthful := .combined (Site.truthful_of_memo fresh) fun part present =>
    (kept part present).truthful

theorem kept_combine {site : Site} (fresh : site.memo = {})
    {members : List (Arrangement PolicyLeaf)}
    {parts : List (Arrangement PolicyLeaf × TreePermission PolicyLeaf PolicyDecision)}
    (lined : parts.map Prod.fst = members) (kept : ∀ part ∈ parts, world.Kept part.1 part.2)
    (combination : Combination) :
    world.Kept (.composite combination members) (site.combine parts) := by
  unfold Site.combine
  split
  · exact kept_nothing rfl _
  · exact kept_combined fresh lined kept combination

/-- What is decided about the root fits the provider. -/
theorem kept_decideRoot (arrangement : Arrangement PolicyLeaf) (tree : Tree) :
    world.Kept arrangement (arrangement.decideRoot world.seen tree).run := by
  induction arrangement generalizing tree with
  | empty => exact kept_nothing rfl _
  | leaf provider =>
      rw [decideRoot_leaf]
      exact kept_decide provider _ _
  | composite combination members ih =>
      cases members with
      | nil => exact kept_nothing rfl _
      | cons member members =>
          rw [decideRoot_composite]
          apply kept_combined rfl (by simp [Function.comp_def])
          rw [List.forall_mem_map]
          exact fun member present => ih member present _

theorem kept_nextPart {tree : Tree} {type : TreeType}
    {part : Arrangement PolicyLeaf × TreePermission PolicyLeaf PolicyDecision}
    (derived : world.Kept part.1 (part.2.derive world.seen part.1 tree type).run) :
    world.Kept part.1 (world.nextPart tree type part) := by
  unfold nextPart
  split
  · obtain ⟨arrangement, permission⟩ := part
    rename_i passed
    have nothing := TreePermission.grantsNothing_of_isNoRecourse passed
    cases permission with
    | node permission => exact kept_nothing nothing arrangement
    | combined => exact absurd passed (by simp [TreePermission.isNoRecourse])
  · exact derived

/-- What is derived from a fitting decision fits. -/
theorem Kept.derive {arrangement : Arrangement PolicyLeaf}
    {permission : TreePermission PolicyLeaf PolicyDecision}
    (kept : world.Kept arrangement permission) (tree : Tree) (type : TreeType) :
    world.Kept arrangement (permission.derive world.seen arrangement tree type).run := by
  obtain ⟨paired, -⟩ := kept
  induction paired generalizing tree type with
  | leaf fit =>
      rw [derive_leaf]
      exact kept_decide _ _ _
  | @nothing arrangement permission nothing =>
      -- A collapsed decision may belong to any provider, and a single one decides anew from it.
      cases arrangement with
      | empty => exact kept_nothing rfl _
      | leaf provider =>
          rw [derive_leaf]
          exact kept_decide provider _ _
      | composite combination members =>
          by_cases atRoot : Path.elements tree.path = []
          · rw [derive_root atRoot]
            exact kept_decideRoot _ _
          · rw [derive_node_composite atRoot, NodePermission.child_of_grantsNothing nothing]
            exact kept_nothing nothing _
  | @combined combination members site parts lined paired ih =>
      by_cases atRoot : Path.elements tree.path = []
      · rw [derive_root atRoot]
        exact kept_decideRoot _ _
      · rw [derive_combined_composite atRoot]
        apply kept_combine rfl ((world.map_fst_nextParts _ _ parts).trans lined)
        rw [nextParts, List.forall_mem_map]
        exact fun part present => kept_nextPart (ih part present _ _)

theorem Kept.child {combination : Combination} {members : List (Arrangement PolicyLeaf)}
    {permission : TreePermission PolicyLeaf PolicyDecision}
    (kept : world.Kept (.composite combination members) permission) (name : String)
    (state : NodeState) :
    world.Kept (.composite combination members) (permission.child world.seen name state).run := by
  obtain ⟨paired, truthful⟩ := kept
  cases paired with
  | @nothing _ permission nothing =>
      rw [child_node_of_grantsNothing nothing]
      exact kept_nothing nothing _
  | @combined _ _ site parts lined paired =>
      cases truthful with
      | combined here within =>
          rw [child_combined]
          apply kept_combine rfl ((world.map_fst_nextParts _ _ parts).trans lined)
          rw [nextParts, List.forall_mem_map]
          intro part present
          have kept : world.Kept part.1 part.2 := ⟨paired part present, within part present⟩
          exact kept_nextPart (kept.derive _ _)

end Kept

/-- The decisions that a composite reaches from the root along names: it decides about the root
whatever decision is given for a parent, and each further name is taken by asking the composite
about a tree there or by asking the last decision for the one about the child. Read flags may be
remembered at any time. -/
inductive Walked (world : World) (combination : Combination)
    (members : List (Arrangement PolicyLeaf)) :
    List String → TreePermission PolicyLeaf PolicyDecision → Prop
  | root {tree : Tree} (top : Path.elements tree.path = [])
      (parent : TreePermission PolicyLeaf PolicyDecision) :
      Walked world combination members []
        ((Arrangement.composite combination members).treePermission world.seen tree parent).run
  | step {names : List String} {name : String}
      {permission : TreePermission PolicyLeaf PolicyDecision}
      (walked : Walked world combination members names permission) {tree : Tree}
      (here : Path.elements tree.path = names ++ [name]) :
      Walked world combination members (names ++ [name])
        ((Arrangement.composite combination members).treePermission world.seen tree permission).run
  | child {names : List String} {name : String}
      {permission : TreePermission PolicyLeaf PolicyDecision}
      (walked : Walked world combination members names permission) (named : Path.IsName name)
      (state : NodeState) :
      Walked world combination members (names ++ [name])
        (permission.child world.seen name state).run
  | recalled {names : List String} {permission other : TreePermission PolicyLeaf PolicyDecision}
      (walked : Walked world combination members names permission)
      (same : other.forget = permission.forget) (truthful : other.Truthful world.seen) :
      Walked world combination members names other

namespace Walked

variable {world : World} {combination : Combination} {members : List (Arrangement PolicyLeaf)}
  {names : List String} {permission : TreePermission PolicyLeaf PolicyDecision}

theorem isName (walked : Walked world combination members names permission) :
    ∀ name ∈ names, Path.IsName name := by
  induction walked with
  | root => simp
  | step walked here ih =>
      rw [← here]
      exact fun _ member => Path.isName_of_mem_elements member
  | child walked named state ih =>
      exact Path.isName_append_singleton ih named
  | recalled walked same truthful ih => exact ih

/-- Every walked decision fits its composite, with nothing stale remembered. -/
theorem kept (walked : Walked world combination members names permission) :
    world.Kept (.composite combination members) permission := by
  induction walked with
  | @root tree top parent =>
      have decided : world.Kept (.composite combination members) _ :=
        kept_decideRoot _ (world.place combination tree)
      rw [← derive_root top parent .default] at decided
      exact decided
  | step walked here ih => exact ih.derive _ _
  | child walked named state ih => exact ih.child _ state
  | recalled walked same truthful ih => exact ⟨ih.paired.of_forget same, truthful⟩

/-- Asking for the read flags on the way does not end a walk. -/
theorem remember (walked : Walked world combination members names permission) :
    Walked world combination members names (permission.remember world.seen) :=
  .recalled walked TreePermission.forget_remember walked.kept.truthful.remember

end Walked

/-- The decisions met on the way from a place on are reached by walking if the one about the place
is. -/
theorem walked_of_mem_walkFrom {world : World} {combination : Combination}
    {members : List (Arrangement PolicyLeaf)} {names above : List String}
    (named : ∀ name ∈ above ++ names, Path.IsName name) {tree : Tree}
    (here : tree.path = Path.ofElements above)
    {permission : TreePermission PolicyLeaf PolicyDecision}
    (walked : Walked world combination members above permission) :
    ∀ entry ∈ ((Arrangement.composite combination members).walkFrom world.seen names tree
        permission).run,
      Walked world combination members (Path.elements entry.1.path) entry.2 := by
  induction names generalizing above tree permission with
  | nil => exact fun entry listed => absurd listed List.not_mem_nil
  | cons name names ih =>
      have front : ∀ name ∈ above, Path.IsName name :=
        fun name member => named name (List.mem_append_left _ member)
      have longer : ∀ other ∈ above ++ [name] ++ names, Path.IsName other := by simpa using named
      have path : (tree.child name).path = Path.ofElements (above ++ [name]) := by
        rw [Tree.child, here, Path.concat_ofElements front (named name (by simp))]
      have elements : Path.elements (tree.child name).path = above ++ [name] := by
        rw [path, Path.elements_ofElements]
        exact fun other member => longer other (List.mem_append_left _ member)
      have next := walked.step elements
      intro entry listed
      rcases List.mem_cons.mp listed with rfl | later
      · rw [elements]
        exact next
      · exact ih longer path next entry later

/-- All decisions met on the way from the root down a path are reached by walking. -/
theorem walked_of_mem_walk (world : World) (combination : Combination)
    (members : List (Arrangement PolicyLeaf)) (state : NodeState) (path : String) :
    ∀ entry ∈ ((Arrangement.composite combination members).walk world.seen (Tree.root state)
        path).run,
      Walked world combination members (Path.elements entry.1.path) entry.2 := by
  have top : Path.elements (Tree.root state).path = [] := Path.elements_root
  have start : Walked world combination members [] _ := .root top .empty
  simp only [Arrangement.walk, Id.run_bind, Id.run_pure, List.forall_mem_cons, top]
  refine ⟨start, walked_of_mem_walkFrom ?_ rfl start⟩
  exact fun name member => Path.isName_of_mem_elements member

end World

end Authorization
