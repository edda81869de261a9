import Authorization.Proofs.Composition.Opinion
import Authorization.Proofs.Policy.Evaluation
import Authorization.World

/-!
# Opinions of arrangements

About one permission an arrangement of policy providers has an opinion that follows from those of
its single providers (`Arrangement.opinion`). Direct questions to the arrangement are answered
permission by permission according to it, whatever content the composites see
(`isGranted_iff`, `isGrantedAt_iff`).
-/

namespace Authorization

/-- The opinion about one bit of a party that covers some bits and grants some. -/
def Mask.opinion {v : Vocabulary} (covers granted : Mask v) (i : Nat) : Option Bool :=
  if i ∈ covers then some (decide (i ∈ granted)) else none

namespace Mask

variable {v : Vocabulary} {covers granted : Mask v} {i : Nat}

theorem isSome_opinion : (opinion covers granted i).isSome = decide (i ∈ covers) := by
  unfold opinion
  split <;> simp [*]

theorem opinion_isSome : (opinion covers granted i).isSome ↔ i ∈ covers := by
  rw [isSome_opinion, decide_eq_true_iff]

/-- A provider grants what it covers and grants. -/
theorem opinion_eq_true : opinion covers granted i = some true ↔ i ∈ covers ∧ i ∈ granted := by
  unfold opinion
  split <;> simp [*]

theorem opinion_empty_ne_true : opinion covers ∅ i ≠ some true := by
  rw [Ne, opinion_eq_true]
  exact fun granted => notMem_empty i granted.2

/-- A voter that grants what is within a mask follows the opinion of this mask. -/
theorem follows_opinion (covers granted : Mask v) :
    ({ covers := fun asked => asked ∩ covers
       grants := fun asked => pure (!asked.isEmpty && asked ⊆ granted) } :
      Voter Id v).Follows (opinion covers granted) where
  covers := by
    intro asked i
    rw [Mask.mem_inter, opinion_isSome]
  grants := by
    intro asked filled all
    rw [← Mask.isEmpty_eq_false_iff] at filled
    simp only [Id.run_pure, filled, Bool.not_false, Bool.true_and, decide_eq_true_eq,
      Mask.subset_iff]
    refine forall₂_congr fun i member => ?_
    have covered := opinion_isSome.mp (all i member)
    rw [opinion_eq_true]
    exact (and_iff_right covered).symm

theorem mem_foldl_union {α : Type} {items : List α} {part : α → Mask v} {i : Nat} :
    i ∈ items.foldl (fun covered item => covered ∪ part item) ∅ ↔
      ∃ item ∈ items, i ∈ part item := by
  suffices general : ∀ start : Mask v,
      i ∈ items.foldl (fun covered item => covered ∪ part item) start ↔
        i ∈ start ∨ ∃ item ∈ items, i ∈ part item by
    simpa using general ∅
  induction items with
  | nil => simp
  | cons item items ih =>
      intro start
      rw [List.foldl_cons, ih, Mask.mem_union, List.exists_mem_cons_iff, or_assoc]

end Mask

namespace Arrangement

variable {L : Type}

/-- Something holds of all composites of a composite if it holds of itself and of all composites
of its members. -/
theorem forall_combinations {holds : Combination → Prop} {combination : Combination}
    {members : List (Arrangement L)} :
    (∀ inner ∈ (composite combination members).combinations, holds inner) ↔
      holds combination ∧ ∀ member ∈ members, ∀ inner ∈ member.combinations, holds inner := by
  rw [combinations, List.forall_mem_cons]
  refine and_congr_right fun _ => ?_
  simp only [mem_combinationsOfAll]
  constructor
  · exact fun all member present inner inside => all inner ⟨member, present, inside⟩
  · rintro all inner ⟨member, present, inside⟩
    exact all member present inner inside

mutual

/-- The opinion of an arrangement about one capability, given those of its single providers. -/
def opinion (single : L → Option Bool) : Arrangement L → Option Bool
  | empty => none
  | leaf provider => single provider
  | composite combination members => combination.composition.verdict (opinions single members)

/-- The opinions of several arrangements. -/
def opinions (single : L → Option Bool) : List (Arrangement L) → List (Option Bool)
  | [] => []
  | member :: members => opinion single member :: opinions single members

end

variable {single : L → Option Bool}

theorem opinions_eq_map (members : List (Arrangement L)) :
    opinions single members = members.map (opinion single) := by
  induction members with
  | nil => rfl
  | cons member members ih => rw [opinions, ih, List.map_cons]

/-- The opinion of a composite is the verdict on those of its members. -/
theorem opinion_composite (combination : Combination) (members : List (Arrangement L)) :
    (composite combination members).opinion single =
      combination.composition.verdict (members.map (opinion single)) := by
  rw [opinion, opinions_eq_map]

/-- The opinion of an arrangement depends on those of its single providers only. -/
theorem opinion_congr {other : L → Option Bool} {arrangement : Arrangement L}
    (same : ∀ leaf ∈ arrangement.leaves, single leaf = other leaf) :
    arrangement.opinion single = arrangement.opinion other := by
  induction arrangement with
  | empty => rfl
  | leaf provider => exact same provider (List.mem_singleton_self provider)
  | composite combination members ih =>
      rw [opinion_composite, opinion_composite]
      refine congrArg _ (List.map_congr_left fun member present => ih member present ?_)
      exact fun leaf inside => same leaf (mem_leavesOfAll.mpr ⟨member, present, inside⟩)

/-- An arrangement has an opinion where one of its single providers does. -/
theorem opinion_isSome {arrangement : Arrangement L} :
    (arrangement.opinion single).isSome ↔ ∃ leaf ∈ arrangement.leaves, (single leaf).isSome := by
  induction arrangement with
  | empty => simp [opinion, leaves]
  | leaf provider => simp [opinion, leaves]
  | composite combination members ih =>
      rw [opinion_composite, Composition.verdict_isSome, leaves]
      constructor
      · rintro ⟨member, present, some⟩
        obtain ⟨leaf, below, known⟩ := (ih member present).mp some
        exact ⟨leaf, mem_leavesOfAll.mpr ⟨member, present, below⟩, known⟩
      · rintro ⟨leaf, below, known⟩
        obtain ⟨member, present, inside⟩ := mem_leavesOfAll.mp below
        exact ⟨member, present, (ih member present).mpr ⟨leaf, inside, known⟩⟩

/-- What no single provider grants, the arrangement does not grant. -/
theorem opinion_ne_true {arrangement : Arrangement L}
    (denied : ∀ leaf ∈ arrangement.leaves, single leaf ≠ some true) :
    arrangement.opinion single ≠ some true := by
  induction arrangement with
  | empty => simp [opinion]
  | leaf provider => simpa [opinion] using denied provider (by simp [leaves])
  | composite combination members ih =>
      rw [opinion_composite]
      refine Composition.verdict_ne_true fun member present => ?_
      refine ih member present fun leaf inside => denied leaf ?_
      rw [leaves, mem_leavesOfAll]
      exact ⟨member, present, inside⟩

/-- Where no single provider grants, an arrangement denies or has no opinion. -/
theorem opinion_eq_of_denied {arrangement : Arrangement L}
    (denied : ∀ leaf ∈ arrangement.leaves, single leaf ≠ some true) :
    arrangement.opinion single =
      if arrangement.leaves.any fun leaf => (single leaf).isSome then some false else none := by
  have never := opinion_ne_true denied
  have known : (arrangement.opinion single).isSome ↔ _ := opinion_isSome
  split
  · rename_i listed
    obtain ⟨held, equal⟩ := Option.isSome_iff_exists.mp (known.mpr (List.any_eq_true.mp listed))
    cases held with
    | true => exact absurd equal never
    | false => exact equal
  · rename_i absent
    rw [← Option.not_isSome_iff_eq_none, known]
    exact fun listed => absent (List.any_eq_true.mpr listed)

end Arrangement

/-- A policy provider of a number, to which no content is access control content. -/
def PolicyLeaf.plain (id : Nat) : PolicyLeaf := { id, name := "policy", context := .plain }

/-- How a composite of a number combines its members, with the standard types. -/
def Combination.plain (id : Nat) (composition : Composition) : Combination :=
  { id, composition, context := .plain, classify := Context.plain.classify
    catalogue := .builtin }

namespace World

/-- What all providers see, with pure answers. -/
abbrev seen (world : World) : Snapshot Id PolicyLeaf PolicyDecision := world.snapshot

variable (world : World)

/-- The policy of a provider that is in force. -/
def policy (leaf : PolicyLeaf) : Policy := (world.policies leaf.id).policy

/-- What a provider grants at a path when it is asked directly: nothing on hidden paths. -/
def grantedAt (path : String) (leaf : PolicyLeaf) : Permissions :=
  if Path.isHidden path then ∅ else (world.policy leaf).grantedAt path

/-- The opinion of a provider about a permission at a path when it is asked directly. -/
def opinionAt (path : String) (i : Nat) (leaf : PolicyLeaf) : Option Bool :=
  Mask.opinion (world.policy leaf).covers (world.grantedAt path leaf) i

/-- Opinions about a path do not depend on its spelling. -/
theorem opinionAt_congr {path other : String} (same : Path.elements path = Path.elements other)
    (i : Nat) : world.opinionAt path i = world.opinionAt other i := by
  funext leaf
  rw [opinionAt, opinionAt, grantedAt, grantedAt, Path.isHidden_congr same,
    Policy.grantedAt_congr same]

/-- On a hidden path nothing is granted. -/
theorem opinion_ne_true_of_isHidden {path : String} (hidden : Path.isHidden path = true) (i : Nat)
    (arrangement : Arrangement PolicyLeaf) :
    arrangement.opinion (world.opinionAt path i) ≠ some true := by
  apply Arrangement.opinion_ne_true
  intro leaf _
  rw [opinionAt, grantedAt, if_pos hidden]
  exact Mask.opinion_empty_ne_true

/-- A provider as a party to the decision about a tree or a property of it. -/
def asksTree (tree : Tree) (property : Option Property) (arrangement : Arrangement PolicyLeaf) :
    Voter Id .permission where
  covers := (arrangement.provider world.seen).covers (some tree) property
  grants := (arrangement.provider world.seen).isGranted tree property

/-- A provider as a party to the decision about a location. -/
def asksLocation (location : Location) (arrangement : Arrangement PolicyLeaf) :
    Voter Id .permission where
  covers := (arrangement.provider world.seen).coversAt location
  grants := (arrangement.provider world.seen).isGrantedAt location

theorem follows_none {v : Vocabulary} {voter : Voter Id v}
    (bare : ∀ asked, voter.covers asked = ∅) : voter.Follows fun _ => none where
  covers := by simp [bare]
  grants := by
    intro asked filled all
    obtain ⟨i, member⟩ := Mask.ne_empty_iff.mp filled
    exact absurd (all i member) (by simp)

/-- A composite puts a question about a tree to its members, who are told the place in its own
content. -/
theorem asksTree_composite (tree : Tree) (property : Option Property) (combination : Combination)
    (members : List (Arrangement PolicyLeaf)) :
    world.asksTree tree property (.composite combination members) =
      { covers := fun asked => members.foldl
          (fun covered member => covered ∪ (world.asksTree tree property member).covers asked) ∅
        grants := fun asked => combination.composition.grants asked
          (members.map (world.asksTree
            ((Tree.root (world.roots combination.id)).descendant tree.path) property)) } := by
  simp only [asksTree, Arrangement.provider, Arrangement.providers_eq_map, Combination.provider,
    List.map_map, List.foldl_map]
  rfl

theorem asksLocation_composite (location : Location) (combination : Combination)
    (members : List (Arrangement PolicyLeaf)) :
    world.asksLocation location (.composite combination members) =
      { covers := fun asked => members.foldl
          (fun covered member => covered ∪ (world.asksLocation location member).covers asked) ∅
        grants := fun asked => combination.composition.grants asked
          (members.map (world.asksLocation location)) } := by
  simp only [asksLocation, Arrangement.provider, Arrangement.providers_eq_map,
    Combination.provider, Combination.grantsAt, List.map_map, List.foldl_map]
  rfl

/-- What an arrangement grants at a tree follows its opinion. -/
theorem follows_asksTree (arrangement : Arrangement PolicyLeaf) (tree : Tree)
    (property : Option Property) :
    (world.asksTree tree property arrangement).Follows fun i =>
      arrangement.opinion (world.opinionAt tree.path i) := by
  induction arrangement generalizing tree with
  | empty => exact follows_none fun asked => rfl
  | leaf provider => exact Mask.follows_opinion _ _
  | composite combination members ih =>
      have found := Tree.elements_descendant_root (world.roots combination.id) tree.path
      have elsewhere : ∀ member ∈ members, (world.asksTree
          ((Tree.root (world.roots combination.id)).descendant tree.path) property
            member).Follows fun i => member.opinion (world.opinionAt tree.path i) := by
        intro member present
        simpa only [world.opinionAt_congr found] using ih member present
          ((Tree.root (world.roots combination.id)).descendant tree.path)
      simp only [Arrangement.opinion_composite, asksTree_composite]
      apply combination.composition.follows_combined elsewhere
      intro asked i
      rw [Mask.mem_foldl_union]
      refine exists_congr fun member => and_congr_right fun present => ?_
      rw [(ih member present tree).covers, (elsewhere member present).covers]

/-- A composite grants permissions on a tree or a property of it exactly if it has some to grant
and its opinion grants each of them. -/
theorem isGranted_iff (combination : Combination) (members : List (Arrangement PolicyLeaf))
    (tree : Tree) (property : Option Property) (asked : Permissions) :
    (((Arrangement.composite combination members).provider world.seen).isGranted
        tree property asked).run = true ↔
      asked ≠ ∅ ∧ ∀ i ∈ asked,
        (Arrangement.composite combination members).opinion (world.opinionAt tree.path i) =
          some true := by
  have found := Tree.elements_descendant_root (world.roots combination.id) tree.path
  have granted := congrArg (fun voter => (voter.grants asked).run)
    (world.asksTree_composite tree property combination members)
  simp only [Arrangement.opinion_composite, ← world.opinionAt_congr found]
  exact (congrArg (· = true) granted).to_iff.trans
    (combination.composition.grants_of_follows fun member _ =>
      world.follows_asksTree member _ property)

/-- A single permission is granted exactly if the opinion is to grant it. -/
theorem isGranted_single_iff (combination : Combination) (members : List (Arrangement PolicyLeaf))
    (tree : Tree) (property : Option Property) {i : Nat} (bit : i < 64) :
    (((Arrangement.composite combination members).provider world.seen).isGranted
        tree property (.single i)).run = true ↔
      (Arrangement.composite combination members).opinion (world.opinionAt tree.path i) =
        some true := by
  rw [isGranted_iff]
  exact Mask.single_forall_iff bit

/-- A policy provider answers about a location as about the path of its node. -/
theorem grantsAt_eq (leaf : PolicyLeaf) (location : Location) (asked : Permissions) :
    (world.policies leaf.id).grantsAt location asked =
      (!asked.isEmpty && asked ⊆ world.grantedAt location.nodePath leaf) := by
  unfold PolicyState.grantsAt grantedAt
  cases hidden : Path.isHidden location.nodePath with
  | false => simp [policy]
  | true =>
      rw [Bool.eq_iff_iff]
      simp only [Bool.not_true, Bool.and_false, Bool.false_and, Bool.false_eq_true, false_iff,
        Bool.and_eq_true, Bool.not_eq_true', if_true, decide_eq_true_eq, Mask.subset_iff]
      rintro ⟨filled, within⟩
      obtain ⟨i, member⟩ := Mask.ne_empty_iff.mp (Mask.isEmpty_eq_false_iff.mp filled)
      exact Mask.notMem_empty i (within i member)

theorem follows_asksLocation (arrangement : Arrangement PolicyLeaf) (location : Location) :
    (world.asksLocation location arrangement).Follows fun i =>
      arrangement.opinion (world.opinionAt location.nodePath i) := by
  induction arrangement with
  | empty => exact follows_none fun asked => rfl
  | leaf provider =>
      have answers : world.asksLocation location (.leaf provider) =
          { covers := fun asked => asked ∩ (world.policy provider).covers
            grants := fun asked =>
              pure (!asked.isEmpty && asked ⊆ world.grantedAt location.nodePath provider) } := by
        simp only [← world.grantsAt_eq]
        rfl
      rw [answers]
      exact Mask.follows_opinion _ _
  | composite combination members ih =>
      simp only [Arrangement.opinion_composite, asksLocation_composite]
      apply combination.composition.follows_combined ih
      intro asked i
      exact Mask.mem_foldl_union

/-- A composite grants permissions at a location exactly if it has some to grant and its opinion
grants each of them. -/
theorem isGrantedAt_iff (combination : Combination) (members : List (Arrangement PolicyLeaf))
    (location : Location) (asked : Permissions) :
    (((Arrangement.composite combination members).provider world.seen).isGrantedAt
        location asked).run = true ↔
      asked ≠ ∅ ∧ ∀ i ∈ asked,
        (Arrangement.composite combination members).opinion
          (world.opinionAt location.nodePath i) = some true := by
  have granted := congrArg (fun voter => (voter.grants asked).run)
    (world.asksLocation_composite location combination members)
  simp only [Arrangement.opinion_composite]
  exact (congrArg (· = true) granted).to_iff.trans
    (combination.composition.grants_of_follows fun member _ =>
      world.follows_asksLocation member location)

theorem run_bind_lift (outcome : Except AuthorizationError Permissions)
    (answer : Permissions → Id Bool) :
    (liftM outcome >>= fun asked => ExceptT.lift (answer asked) :
      ExceptT AuthorizationError Id Bool).run.run =
        outcome.map fun asked => (answer asked).run := by
  cases outcome <;> rfl

/-- For a path a composite answers as for the location that the path denotes in its own content. -/
theorem isGrantedPath_run (combination : Combination) (members : List (Arrangement PolicyLeaf))
    (text actions : String) :
    let provider := (Arrangement.composite combination members).provider world.seen
    let location := Location.resolve (.root (world.roots combination.id)) text
    (provider.isGrantedPath text actions).run.run =
      (Permissions.ofActions actions location
        (combination.context.definesLocation location)).map fun asked =>
          (provider.isGrantedAt location asked).run :=
  run_bind_lift _ _

end World

end Authorization
