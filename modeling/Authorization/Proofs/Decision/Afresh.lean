import Authorization.Proofs.Content.Finding
import Authorization.Proofs.Decision.Walk

/-!
# Decisions as made afresh

While decisions are derived from parent to child, parts are skipped for good and whole places are
collapsed. As long as no place on the way is found hidden, this loses nothing: the decision derived
for a place is the one that the providers would make afresh there (`Afresh`), save that parts
without recourse may have been collapsed. Its opinions follow from what the policies grant at the
place (`Afresh.opinion_eq`), whatever was met on the way. Deriving keeps decisions afresh
(`Afresh.next`), and leaves nothing granted where a place is found hidden (`Afresh.next_hidden`).
-/

namespace Authorization

/-- A decision holds what the policy grants at the path. -/
theorem NodePermission.holds_decide {policy : Policy} {path : String} {i : Nat} :
    (policy.decide path false).holds i = decide (i ∈ policy.grantedAt path) := by
  rw [Policy.decide_visible, PolicyDecision.ofGranted]
  split
  · rename_i hopeless
    have bare : policy.grantedAt path = ∅ := beq_iff_eq.mp ((Bool.and_eq_true ..).mp hopeless).1
    rw [bare]
    exact (decide_eq_false (Mask.notMem_empty i)).symm
  · rfl

theorem TreePermission.answers_of_grantsNothing {m : Type → Type} {L : Type}
    {snapshot : Snapshot m L PolicyDecision} {permission : TreePermission L PolicyDecision}
    (nothing : permission.grantsNothing = true) : permission.answers snapshot = .always false := by
  cases permission with
  | node permission => exact NodePermission.answers_of_grantsNothing nothing
  | combined => exact absurd nothing (by simp [grantsNothing])

theorem TreePermission.grantsNothing_forget {L D : Type} {permission : TreePermission L D} :
    permission.forget.grantsNothing = permission.grantsNothing := by
  cases permission with
  | node permission => rw [forget]
  | combined site parts => rfl

namespace World

variable {world : World} {classifies : Classifier → Prop} {seen : Tree → Prop}
  {names : List String} {name : String} {arrangement : Arrangement PolicyLeaf}
  {permission : TreePermission PolicyLeaf PolicyDecision}

/-- Every composite of an arrangement classifies in one of several ways, and finds only trees that
are seen. -/
def Looks (world : World) (classifies : Classifier → Prop) (seen : Tree → Prop)
    (arrangement : Arrangement PolicyLeaf) : Prop :=
  ∀ combination ∈ arrangement.combinations,
    classifies combination.classify ∧ ∀ tree, seen (world.place combination tree)

/-- No policy of an arrangement has recourse at or below the place that names lead to. -/
def Hopeless (world : World) (names : List String) (arrangement : Arrangement PolicyLeaf) : Prop :=
  ∀ leaf ∈ arrangement.leaves,
    (world.policy leaf).decide (Path.ofElements names) false = .noRecourse

/-- Where no policy has recourse there is none further below either. -/
theorem Hopeless.append (hopeless : world.Hopeless names arrangement) {below : List String}
    (named : ∀ name ∈ names ++ below, Path.IsName name) :
    world.Hopeless (names ++ below) arrangement :=
  fun leaf present => Policy.noRecourse_below named (hopeless leaf present)

/-- Without recourse nothing is granted. -/
theorem Hopeless.grantedAt (hopeless : world.Hopeless names arrangement) {leaf : PolicyLeaf}
    (present : leaf ∈ arrangement.leaves) :
    (world.policy leaf).grantedAt (Path.ofElements names) = ∅ :=
  (Policy.decide_eq_noRecourse_iff.mp (hopeless leaf present)).1

/-- A decision about the place that names lead to, as the providers of an arrangement make it afresh
when no place on the way is hidden. Providers without recourse may be collapsed. -/
inductive Afresh (world : World) (classifies : Classifier → Prop) (seen : Tree → Prop)
    (names : List String) :
    Arrangement PolicyLeaf → TreePermission PolicyLeaf PolicyDecision → Prop
  | leaf (provider : PolicyLeaf) :
      Afresh world classifies seen names (.leaf provider)
        (.node ((world.policy provider).decide (Path.ofElements names) false))
  | collapsed {arrangement : Arrangement PolicyLeaf} {permission : NodePermission PolicyDecision}
      (nothing : permission.grantsNothing = true) (hopeless : world.Hopeless names arrangement) :
      Afresh world classifies seen names arrangement (.node permission)
  | combined {combination : Combination} {members : List (Arrangement PolicyLeaf)} {site : Site}
      {parts : List (Arrangement PolicyLeaf × TreePermission PolicyLeaf PolicyDecision)}
      (here : site.tree.path = Path.ofElements names)
      (found : TreeType.Found classifies seen names site.type)
      (way : classifies site.classify) (agreed : site.composition = combination.composition)
      (lined : parts.map Prod.fst = members)
      (afresh : ∀ part ∈ parts, Afresh world classifies seen names part.1 part.2) :
      Afresh world classifies seen names (.composite combination members) (.combined site parts)

theorem afresh_empty (classifies : Classifier → Prop) (seen : Tree → Prop) (names : List String) :
    Afresh world classifies seen names .empty TreePermission.empty :=
  .collapsed rfl fun _ present => absurd present List.not_mem_nil

theorem afresh_decideRoot (world : World) (arrangement : Arrangement PolicyLeaf)
    (looks : world.Looks classifies seen arrangement) {tree : Tree} (top : tree.path = Path.root) :
    Afresh world classifies seen [] arrangement (arrangement.decideRoot world.seen tree).run := by
  induction arrangement generalizing tree with
  | empty => exact afresh_empty classifies seen []
  | leaf provider =>
      rw [decideRoot_leaf, top]
      exact .leaf provider
  | composite combination members ih =>
      cases members with
      | nil => exact .collapsed rfl fun _ present => absurd present List.not_mem_nil
      | cons member members =>
          obtain ⟨⟨way, -⟩, within⟩ := Arrangement.forall_combinations.mp looks
          rw [decideRoot_composite]
          refine .combined rfl .root way rfl (by simp [Function.comp_def]) ?_
          rw [List.forall_mem_map]
          exact fun member present => ih member present (within member present) rfl

namespace Afresh

/-- A decision grants nothing only if no policy has recourse. -/
theorem hopeless (afresh : Afresh world classifies seen names arrangement permission)
    (nothing : permission.grantsNothing = true) : world.Hopeless names arrangement := by
  cases afresh with
  | leaf provider =>
      intro leaf present
      rw [List.mem_singleton.mp present]
      exact Policy.decide_eq_noRecourse nothing
  | collapsed _ hopeless => exact hopeless
  | combined => exact absurd nothing (by simp [TreePermission.grantsNothing])

/-- A decision that grants nothing may be kept for the places below. -/
theorem append_singleton (afresh : Afresh world classifies seen names arrangement permission)
    (nothing : permission.grantsNothing = true)
    (named : ∀ other ∈ names ++ [name], Path.IsName other) :
    Afresh world classifies seen (names ++ [name]) arrangement permission := by
  have hopeless := (afresh.hopeless nothing).append named
  cases permission with
  | node permission => exact .collapsed nothing hopeless
  | combined => exact absurd nothing (by simp [TreePermission.grantsNothing])

/-- The opinion of a decision is the one that follows from what the policies grant at the place,
whatever they cover. -/
theorem opinion_eq (afresh : Afresh world classifies seen names arrangement permission)
    (covers : PolicyLeaf → Permissions) (i : Nat) :
    permission.opinion covers i arrangement =
      arrangement.opinion fun leaf =>
        Mask.opinion (covers leaf) ((world.policy leaf).grantedAt (Path.ofElements names)) i := by
  induction afresh with
  | leaf provider =>
      simp only [TreePermission.opinion, Arrangement.opinion, Arrangement.leaves, Mask.opinion,
        NodePermission.holds_decide, List.any_cons, List.any_nil, Bool.or_false, decide_eq_true_eq]
  | @collapsed arrangement permission nothing hopeless =>
      have denied : ∀ leaf ∈ arrangement.leaves, Mask.opinion (covers leaf)
          ((world.policy leaf).grantedAt (Path.ofElements names)) i ≠ some true := by
        intro leaf present
        rw [hopeless.grantedAt present]
        exact Mask.opinion_empty_ne_true
      rw [Arrangement.opinion_eq_of_denied denied, TreePermission.opinion,
        NodePermission.holds_of_grantsNothing nothing]
      simp only [Mask.isSome_opinion]
  | combined here found way agreed lined afresh ih =>
      rw [TreePermission.opinion_combined, Arrangement.opinion_composite, ← lined, List.map_map,
        agreed]
      exact congrArg _ (List.map_congr_left ih)

theorem paired (afresh : Afresh world classifies seen names arrangement permission) :
    permission.Paired (fun _ _ => True) arrangement := by
  induction afresh with
  | leaf provider => exact .leaf trivial
  | collapsed nothing hopeless => exact .nothing nothing
  | combined here found way agreed lined afresh ih => exact .combined lined ih

/-- Memories do not matter. -/
theorem of_forget {other : TreePermission PolicyLeaf PolicyDecision}
    (afresh : Afresh world classifies seen names arrangement permission)
    (same : other.forget = permission.forget) :
    Afresh world classifies seen names arrangement other := by
  induction afresh generalizing other with
  | leaf provider =>
      rw [TreePermission.eq_node_of_forget same]
      exact .leaf provider
  | collapsed nothing hopeless =>
      rw [TreePermission.eq_node_of_forget same]
      exact .collapsed nothing hopeless
  | @combined combination members site parts here found way agreed lined afresh ih =>
      obtain ⟨remembering, others, rfl, sited, parted⟩ := TreePermission.eq_combined_of_forget same
      obtain ⟨trees, types, classifiers, compositions, -⟩ := Site.mk.inj sited
      refine .combined (trees ▸ here) (types ▸ found) (classifiers ▸ way) (compositions ▸ agreed)
        ((TreePermission.map_fst_of_forgetParts parted).trans lined) fun other present => ?_
      obtain ⟨part, member, arranged, equal⟩ := TreePermission.exists_counterpart parted present
      rw [← arranged]
      exact ih part member equal

end Afresh

/-- Parts made afresh make up a decision that is made afresh, collapsed or not. -/
theorem afresh_combine {combination : Combination} {site : Site}
    {parts : List (Arrangement PolicyLeaf × TreePermission PolicyLeaf PolicyDecision)}
    (here : site.tree.path = Path.ofElements names)
    (found : TreeType.Found classifies seen names site.type) (way : classifies site.classify)
    (agreed : site.composition = combination.composition)
    (afresh : ∀ part ∈ parts, Afresh world classifies seen names part.1 part.2) :
    Afresh world classifies seen names (.composite combination (parts.map Prod.fst))
      (site.combine parts) := by
  unfold Site.combine
  split
  · rename_i nothing
    refine .collapsed rfl fun leaf present => ?_
    rw [Arrangement.leaves, Arrangement.mem_leavesOfAll] at present
    obtain ⟨member, listed, inside⟩ := present
    obtain ⟨part, taken, rfl⟩ := List.mem_map.mp listed
    exact (afresh part taken).hopeless (List.all_eq_true.mp nothing part taken) leaf inside
  · exact .combined here found way agreed rfl afresh

/-- How the decision of a composite becomes one about a place below: a decision that grants nothing
is kept, and a combined decision is derived from its parts. -/
inductive Descends (world : World) (place : Tree) :
    TreePermission PolicyLeaf PolicyDecision → TreePermission PolicyLeaf PolicyDecision → Prop
  | kept {permission : NodePermission PolicyDecision} (nothing : permission.grantsNothing = true) :
      Descends world place (.node permission) (.node permission)
  | derived (site : Site)
      (parts : List (Arrangement PolicyLeaf × TreePermission PolicyLeaf PolicyDecision)) :
      Descends world place (.combined site parts)
        (Site.combine
          { site with tree := place, type := site.classify place site.type, memo := {} }
          (world.nextParts place (site.classify place site.type) parts))

section Descends

variable {combination : Combination} {members : List (Arrangement PolicyLeaf)}

/-- A composite keeps a decision that grants nothing for the places below. -/
theorem derive_of_nothing {tree : Tree} (below : Path.elements tree.path ≠ [])
    (nothing : permission.grantsNothing = true) (type : TreeType) :
    (permission.derive world.seen (.composite combination members) tree type).run =
      permission := by
  cases permission with
  | node permission =>
      rw [derive_node_composite below]
      exact congrArg TreePermission.node (NodePermission.child_of_grantsNothing nothing _ _)
  | combined => exact absurd nothing (by simp [TreePermission.grantsNothing])

theorem child_of_nothing (nothing : permission.grantsNothing = true) (name : String)
    (state : NodeState) : (permission.child world.seen name state).run = permission := by
  cases permission with
  | node permission => exact child_node_of_grantsNothing nothing name state
  | combined => exact absurd nothing (by simp [TreePermission.grantsNothing])

/-- Asking a composite about a tree below goes down from the last decision. -/
theorem Afresh.descends_derive
    (afresh : Afresh world classifies seen names (.composite combination members) permission)
    {tree : Tree} (below : Path.elements tree.path ≠ []) (type : TreeType) :
    Descends world (world.place combination tree) permission
      (permission.derive world.seen (.composite combination members) tree type).run := by
  cases afresh with
  | collapsed nothing hopeless =>
      rw [derive_node_composite below, NodePermission.child_of_grantsNothing nothing]
      exact .kept nothing
  | combined =>
      rw [derive_combined_composite below]
      exact .derived _ _

/-- Asking the last decision for the one about a child goes down from it. -/
theorem Afresh.descends_child
    (afresh : Afresh world classifies seen names (.composite combination members) permission)
    (above : ∀ other ∈ names, Path.IsName other) (last : Path.IsName name) (state : NodeState) :
    Descends world ⟨Path.ofElements (names ++ [name]), state⟩ permission
      (permission.child world.seen name state).run := by
  cases afresh with
  | collapsed nothing hopeless =>
      rw [child_node_of_grantsNothing nothing]
      exact .kept nothing
  | combined here =>
      rw [child_combined, here, Path.concat_ofElements above last]
      exact .derived _ _

/-- A place is collapsed if no part grants anything about it. -/
theorem Descends.nothing {place : Tree} {next : TreePermission PolicyLeaf PolicyDecision}
    (descends : Descends world place permission next)
    (parts : ∀ site parts, permission = .combined site parts → ∀ part ∈ parts,
      (part.2.derive world.seen part.1 place
        (site.classify place site.type)).run.grantsNothing = true) :
    next.grantsNothing = true := by
  cases descends with
  | kept nothing => exact nothing
  | derived site inner =>
      have all : ∀ part ∈ world.nextParts place (site.classify place site.type) inner,
          part.2.grantsNothing = true := by
        rw [nextParts, List.forall_mem_map]
        intro part present
        simp only [nextPart]
        split
        · rename_i passed
          exact TreePermission.grantsNothing_of_isNoRecourse passed
        · exact parts site inner rfl part present
      rw [Site.combine, if_pos (List.all_eq_true.mpr all)]
      rfl

end Descends

section Step

variable (named : ∀ other ∈ names ++ [name], Path.IsName other)

include named

theorem elements_below {tree : Tree} (there : tree.path = Path.ofElements (names ++ [name])) :
    Path.elements tree.path = names ++ [name] := by
  rw [there, Path.elements_ofElements named]

/-- A composite decides afresh about a place below if all of its parts do. -/
theorem Afresh.descend {combination : Combination} {members : List (Arrangement PolicyLeaf)}
    (afresh : Afresh world classifies seen names (.composite combination members) permission)
    {place : Tree} (looked : seen place) (there : place.path = Path.ofElements (names ++ [name]))
    {next : TreePermission PolicyLeaf PolicyDecision}
    (descends : Descends world place permission next)
    (parts : ∀ site parts, permission = .combined site parts → ∀ part ∈ parts, ∀ type,
      TreeType.Found classifies seen (names ++ [name]) type →
        Afresh world classifies seen (names ++ [name]) part.1
          (part.2.derive world.seen part.1 place type).run) :
    Afresh world classifies seen (names ++ [name]) (.composite combination members) next := by
  cases descends with
  | kept nothing => exact afresh.append_singleton nothing named
  | derived site inner =>
      cases afresh with
      | combined here found way agreed lined afresh =>
          have type := found.step (named name (by simp)) way looked there
          rw [← lined, ← map_fst_nextParts]
          refine afresh_combine there type way agreed ?_
          rw [nextParts, List.forall_mem_map]
          intro part present
          simp only [nextPart]
          split
          · rename_i passed
            have nothing := TreePermission.grantsNothing_of_isNoRecourse passed
            exact (afresh part present).append_singleton nothing named
          · exact parts site inner rfl part present _ type

/-- Where a place is found not hidden, deriving decides afresh. -/
theorem Afresh.derive (afresh : Afresh world classifies seen names arrangement permission)
    (looks : world.Looks classifies seen arrangement)
    (visible : ¬ TreeType.Found classifies seen (names ++ [name]) .hidden) {tree : Tree}
    (there : tree.path = Path.ofElements (names ++ [name])) {type : TreeType}
    (found : TreeType.Found classifies seen (names ++ [name]) type) :
    Afresh world classifies seen (names ++ [name]) arrangement
      (permission.derive world.seen arrangement tree type).run := by
  have single (provider : PolicyLeaf) (permission : TreePermission PolicyLeaf PolicyDecision)
      {tree : Tree} (there : tree.path = Path.ofElements (names ++ [name])) {type : TreeType}
      (found : TreeType.Found classifies seen (names ++ [name]) type) :
      Afresh world classifies seen (names ++ [name]) (.leaf provider)
        (permission.derive world.seen (.leaf provider) tree type).run := by
    have shown : type ≠ .hidden := by
      rintro rfl
      exact visible found
    rw [derive_leaf, there, decide_eq_false shown]
    exact .leaf provider
  have below {tree : Tree} (there : tree.path = Path.ofElements (names ++ [name])) :
      Path.elements tree.path ≠ [] := by
    simp [elements_below named there]
  induction afresh generalizing tree type with
  | leaf provider => exact single provider _ there found
  | @collapsed arrangement permission nothing hopeless =>
      cases arrangement with
      | empty => exact afresh_empty ..
      | leaf provider => exact single provider _ there found
      | composite combination members =>
          rw [derive_node_composite (below there), NodePermission.child_of_grantsNothing nothing]
          exact .collapsed nothing (hopeless.append named)
  | @combined combination members site parts here typed way agreed lined afresh ih =>
      obtain ⟨⟨-, looked⟩, within⟩ := Arrangement.forall_combinations.mp looks
      have whole : Afresh world classifies seen names (.composite combination members)
          (.combined site parts) := .combined here typed way agreed lined afresh
      have place : (world.place combination tree).path = Path.ofElements (names ++ [name]) := by
        rw [path_place, elements_below named there]
      refine whole.descend named (looked tree) place (whole.descends_derive (below there) type) ?_
      rintro site parts ⟨⟩ part present type found
      refine ih part present (within part.1 ?_) place found
      rw [← lined]
      exact List.mem_map_of_mem present

/-- Where a place is found hidden, deriving grants nothing. -/
theorem Afresh.derive_hidden
    (afresh : Afresh world classifies seen names arrangement permission)
    (looks : world.Looks classifies seen arrangement)
    (hidden : ∀ type, TreeType.Found classifies seen (names ++ [name]) type → type = .hidden)
    {tree : Tree} (there : tree.path = Path.ofElements (names ++ [name])) {type : TreeType}
    (found : TreeType.Found classifies seen (names ++ [name]) type) :
    (permission.derive world.seen arrangement tree type).run.grantsNothing = true := by
  have single (provider : PolicyLeaf) (permission : TreePermission PolicyLeaf PolicyDecision)
      (tree : Tree) {type : TreeType}
      (found : TreeType.Found classifies seen (names ++ [name]) type) :
      (permission.derive world.seen (.leaf provider) tree type).run.grantsNothing = true := by
    rw [derive_leaf, decide_eq_true (hidden type found), Policy.decide, if_pos rfl]
    rfl
  induction afresh generalizing tree type with
  | leaf provider => exact single provider _ tree found
  | @collapsed arrangement permission nothing hopeless =>
      cases arrangement with
      | empty => rfl
      | leaf provider => exact single provider _ tree found
      | composite combination members =>
          have below : Path.elements tree.path ≠ [] := by simp [elements_below named there]
          rw [derive_node_composite below, NodePermission.child_of_grantsNothing nothing]
          exact nothing
  | @combined combination members site parts here typed way agreed lined afresh ih =>
      obtain ⟨⟨-, looked⟩, within⟩ := Arrangement.forall_combinations.mp looks
      have whole : Afresh world classifies seen names (.composite combination members)
          (.combined site parts) := .combined here typed way agreed lined afresh
      have elements := elements_below named there
      have place : (world.place combination tree).path = Path.ofElements (names ++ [name]) := by
        rw [path_place, elements]
      refine (whole.descends_derive (by simp [elements]) type).nothing ?_
      rintro site parts ⟨⟩ part present
      have type := typed.step (named name (by simp)) way (looked tree) place
      refine ih part present (within part.1 ?_) place type
      rw [← lined]
      exact List.mem_map_of_mem present

namespace Afresh

variable {combination : Combination} {members : List (Arrangement PolicyLeaf)}
  (afresh : Afresh world classifies seen names (.composite combination members) permission)
  (looks : world.Looks classifies seen (.composite combination members)) {place : Tree}
  (looked : seen place) (there : place.path = Path.ofElements (names ++ [name]))
  {lower : TreePermission PolicyLeaf PolicyDecision}
  (descends : Descends world place permission lower)

include afresh looks looked there descends

/-- Where a place below is found not hidden, the decision about it is made afresh. -/
theorem next (visible : ¬ TreeType.Found classifies seen (names ++ [name]) .hidden) :
    Afresh world classifies seen (names ++ [name]) (.composite combination members) lower := by
  refine afresh.descend named looked there descends ?_
  rintro site parts rfl part present type found
  cases afresh with
  | combined here typed way agreed lined afresh =>
      have within : world.Looks classifies seen part.1 :=
        (Arrangement.forall_combinations.mp looks).2 part.1 (lined ▸ List.mem_map_of_mem present)
      exact (afresh part present).derive named within visible there found

/-- Where a place below is found hidden, nothing is granted there. -/
theorem next_hidden
    (hidden : ∀ type, TreeType.Found classifies seen (names ++ [name]) type → type = .hidden) :
    lower.grantsNothing = true := by
  refine descends.nothing ?_
  rintro site parts rfl part present
  cases afresh with
  | combined here typed way agreed lined afresh =>
      have within : world.Looks classifies seen part.1 :=
        (Arrangement.forall_combinations.mp looks).2 part.1 (lined ▸ List.mem_map_of_mem present)
      exact (afresh part present).derive_hidden named within hidden there
        (typed.step (named name (by simp)) way looked there)

end Afresh

end Step

end World

end Authorization
