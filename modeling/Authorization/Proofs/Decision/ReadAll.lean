import Authorization.Proofs.Decision.Agreement

/-!
# Reading everything below

A decision that lets everything be read says so for all places below at once. What it says follows
from the policies (`canReadAll_iff`): each of them that covers reading at all says whether it grants
reading at the place and denies it nowhere below. So wherever the flag is set, reading is granted at
every place below that is not hidden, to whoever walks on and to whoever asks directly
(`readable_below`).
-/

namespace Authorization

open Authorization.Composition (Stricter)

/-- Whether reading is granted at a path and denied nowhere below. -/
def Policy.readsAll (policy : Policy) (path : String) : Bool :=
  Permissions.read ⊆ policy.grantedAt path && !policy.deniesBelow path .read

/-- A policy's decision reads everything where the policy does. -/
theorem Policy.canReadAll_decide (policy : Policy) (path : String) :
    (policy.decide path false).answers.canReadAll = policy.readsAll path := by
  rw [decide_visible, PolicyDecision.ofGranted]
  split
  · rename_i hopeless
    have bare : policy.grantedAt path = ∅ := beq_iff_eq.mp ((Bool.and_eq_true ..).mp hopeless).1
    rw [readsAll, bare]
    rfl
  · rfl

/-- A policy reads everything where it grants reading and denies none of it below. -/
theorem Policy.readsAll_iff {policy : Policy} {path : String} :
    policy.readsAll path = true ↔
      Permissions.read ⊆ policy.grantedAt path ∧ policy.deniesBelow path .read = false := by
  rw [readsAll, Bool.and_eq_true, decide_eq_true_iff, Bool.not_eq_true']

/-- Where single providers are stricter, the whole arrangement is. -/
theorem Arrangement.opinion_stricter {L : Type} {first second : L → Option Bool}
    {arrangement : Arrangement L}
    (stricter : ∀ leaf ∈ arrangement.leaves, Stricter (first leaf) (second leaf)) :
    Stricter (arrangement.opinion first) (arrangement.opinion second) := by
  induction arrangement with
  | empty => exact ⟨id, id⟩
  | leaf provider => exact stricter provider (List.mem_singleton_self provider)
  | composite combination members ih =>
      rw [opinion_composite, opinion_composite]
      refine Stricter.verdict _ fun member present => ih member present fun leaf inside => ?_
      exact stricter leaf (mem_leavesOfAll.mpr ⟨member, present, inside⟩)

namespace World

variable (world : World)

/-- The opinion of a policy on reading everything at and below a path, if it covers reading. -/
def readAllOpinion (path : String) (leaf : PolicyLeaf) : Option Bool :=
  if (world.covers leaf ∩ Permissions.read).isEmpty then none
  else some ((world.policy leaf).readsAll path)

variable {world} {classifies : Classifier → Prop} {seen : Tree → Prop} {names : List String}
  {arrangement : Arrangement PolicyLeaf} {permission : TreePermission PolicyLeaf PolicyDecision}

/-- A policy has an opinion on reading everything if it covers some part of reading. -/
theorem readAllOpinion_isSome {path : String} {leaf : PolicyLeaf} :
    (world.readAllOpinion path leaf).isSome ↔ ∃ i ∈ Permissions.read, i ∈ world.covers leaf := by
  rw [readAllOpinion]
  split
  · rename_i bare
    simp only [Option.isSome_none, Bool.false_eq_true, false_iff, not_exists, not_and]
    exact fun i member covered => Mask.isEmpty_iff.mp bare i (Mask.mem_inter.mpr ⟨covered, member⟩)
  · rename_i filled
    obtain ⟨i, inside⟩ := Mask.ne_empty_iff.mp
      (Mask.isEmpty_eq_false_iff.mp (Bool.eq_false_iff.mpr filled))
    obtain ⟨covered, member⟩ := Mask.mem_inter.mp inside
    simpa using ⟨i, member, covered⟩

/-- A policy that lets everything be read covers reading. -/
theorem readAllOpinion_eq_true {path : String} {leaf : PolicyLeaf} :
    world.readAllOpinion path leaf = some true ↔ (world.policy leaf).readsAll path = true := by
  constructor
  · intro granted
    rw [readAllOpinion] at granted
    split at granted
    · exact absurd granted (by simp)
    · exact Option.some.inj granted
  · intro all
    have known : (world.readAllOpinion path leaf).isSome := by
      obtain ⟨within, -⟩ := Policy.readsAll_iff.mp all
      have granted := Mask.subset_iff.mp within 0 (by decide)
      have covers := (world.policy leaf).grantedAt_subset_covers path
      exact readAllOpinion_isSome.mpr ⟨0, by decide, Mask.subset_iff.mp covers 0 granted⟩
    rw [readAllOpinion] at known ⊢
    split at known
    · exact absurd known (by simp)
    · rename_i covered
      rw [if_neg covered, all]

/-- Who lets everything be read at a place grants reading at every place below. -/
theorem stricter_readAll {above below : List String}
    (named : ∀ name ∈ above ++ below, Path.IsName name) {i : Nat} (member : i ∈ Permissions.read)
    (leaf : PolicyLeaf) :
    Stricter (world.readAllOpinion (Path.ofElements above) leaf)
      (world.keptOpinion (Path.ofElements (above ++ below)) i leaf) where
  known covered := readAllOpinion_isSome.mpr ⟨i, member, Mask.opinion_isSome.mp covered⟩
  grants all := by
    obtain ⟨within, free⟩ := Policy.readsAll_iff.mp (readAllOpinion_eq_true.mp all)
    have reads := Policy.subset_grantedAt_below named (by decide) within free
    have granted := Mask.subset_iff.mp reads i member
    have covered := Mask.subset_iff.mp ((world.policy leaf).grantedAt_subset_covers _) i granted
    exact Mask.opinion_eq_true.mpr ⟨covered, granted⟩

/-- About whom there is an opinion on some reading, there is one on reading everything. -/
theorem opinion_readAll_isSome {path : String} :
    (arrangement.opinion (world.readAllOpinion path)).isSome ↔
      ∃ i ∈ Permissions.read, (arrangement.opinion (world.keptOpinion path i)).isSome := by
  simp only [Arrangement.opinion_isSome, readAllOpinion_isSome, keptOpinion, Mask.opinion_isSome]
  constructor
  · rintro ⟨leaf, present, i, member, covered⟩
    exact ⟨i, member, leaf, present, covered⟩
  · rintro ⟨i, member, leaf, present, covered⟩
    exact ⟨leaf, present, i, member, covered⟩

section Combined

variable {ι : Type} {parts : List ι} {all : ι → Option Bool} {opinion : Nat → ι → Option Bool}
  {flag : ι → Bool}

/-- Flags that say what opinions on a whole say, wherever there are opinions on its parts, make up
the opinion on the whole. -/
theorem verdict_flags_iff (composition : Composition) {request : Permissions}
    (filled : request ≠ ∅)
    (known : ∀ part ∈ parts, (all part).isSome ↔ ∃ i ∈ request, (opinion i part).isSome)
    (stricter : ∀ part ∈ parts, ∀ i ∈ request, Stricter (all part) (opinion i part))
    (flags : ∀ part ∈ parts, flag part = true ↔ all part = some true) :
    (∀ i ∈ request, composition.verdict (parts.map fun part =>
        if (opinion i part).isSome then some (flag part) else none) = some true) ↔
      composition.verdict (parts.map all) = some true := by
  have held {part : ι} (present : part ∈ parts) {i : Nat} (member : i ∈ request) :
      (if (opinion i part).isSome then some (flag part) else none) = some true →
        all part = some true := by
    intro flagged
    split at flagged
    · exact (flags part present).mp (Option.some.inj flagged)
    · exact absurd flagged (by simp)
  constructor
  · intro granted
    obtain ⟨i, member⟩ := Mask.ne_empty_iff.mp filled
    obtain ⟨⟨part, present, flagged⟩, -⟩ := Composition.verdict_eq_true_iff.mp (granted i member)
    rw [Composition.verdict_eq_true_iff]
    refine ⟨⟨part, present, held present member flagged⟩, ?_⟩
    rintro ⟨unanimous, other, inside, some, denied⟩
    obtain ⟨j, within, covered⟩ := (known other inside).mp some
    obtain ⟨-, agreed⟩ := Composition.verdict_eq_true_iff.mp (granted j within)
    refine agreed ⟨unanimous, other, inside, by simp [covered], fun flagged => ?_⟩
    exact denied (held inside within flagged)
  · intro granted i member
    refine (Stricter.verdict composition fun part present => ?_).grants granted
    constructor
    · intro covered
      refine (known part present).mpr ⟨i, member, ?_⟩
      by_contra uncovered
      simp [uncovered] at covered
    · intro whole
      have covered : (opinion i part).isSome := by
        rw [(stricter part present i member).grants whole]
        rfl
      rw [if_pos covered, (flags part present).mpr whole]

end Combined

section Flag

variable (named : ∀ name ∈ names, Path.IsName name)

include named

/-- The flag of a combined decision on reading everything below is what its providers think of it
together, if the flags of the parts are. -/
theorem canReadAll_combined_iff {site : Site}
    {parts : List (Arrangement PolicyLeaf × TreePermission PolicyLeaf PolicyDecision)}
    (afresh : ∀ part ∈ parts, Afresh world classifies seen names part.1 part.2)
    (truthful : (TreePermission.combined site parts).Truthful world.seen)
    (flags : ∀ part ∈ parts, (part.2.answers world.seen).canReadAll = true ↔
      part.1.opinion (world.readAllOpinion (Path.ofElements names)) = some true) :
    ((TreePermission.combined site parts).answers world.seen).canReadAll = true ↔
      site.composition.verdict (parts.map fun part =>
        part.1.opinion (world.readAllOpinion (Path.ofElements names))) = some true := by
  have paired : ∀ part ∈ parts, part.2.Paired (fun _ _ => True) part.1 :=
    fun part present => (afresh part present).paired
  have opinions : ∀ part ∈ parts, ∀ i, part.2.opinion world.covers i part.1 =
      part.1.opinion (world.keptOpinion (Path.ofElements names) i) :=
    fun part present i => (afresh part present).opinion_eq world.covers i
  have folded : ((TreePermission.combined site parts).answers world.seen).canReadAll =
      site.fold (TreePermission.decisionParts world.seen parts) .read none
        fun answers _ => answers.canReadAll := by
    cases truthful with
    | combined here within =>
        rw [TreePermission.answers, ← here.answers_forget]
        rfl
  have filled : Permissions.read ≠ ∅ := by decide
  have stricter : ∀ part ∈ parts, ∀ i ∈ Permissions.read,
      Stricter (part.1.opinion (world.readAllOpinion (Path.ofElements names)))
        (part.1.opinion (world.keptOpinion (Path.ofElements names) i)) := by
    intro part present i member
    have here : ∀ name ∈ names ++ [], Path.IsName name := by simpa using named
    refine Arrangement.opinion_stricter fun leaf _ => ?_
    simpa using stricter_readAll here member leaf
  rw [folded, world.fold_flag_iff paired, and_iff_right filled, ← verdict_flags_iff
    site.composition filled (fun part _ => opinion_readAll_isSome) stricter flags]
  refine forall₂_congr fun i _ => ?_
  rw [List.map_congr_left fun part present => by rw [opinions part present i]]

omit named in
/-- A collapsed decision reads nothing, as do the policies there. -/
theorem canReadAll_collapsed_iff {permission : NodePermission PolicyDecision}
    (nothing : permission.grantsNothing = true) (hopeless : world.Hopeless names arrangement) :
    permission.answers.canReadAll = true ↔
      arrangement.opinion (world.readAllOpinion (Path.ofElements names)) = some true := by
  have denied : arrangement.opinion (world.readAllOpinion (Path.ofElements names)) ≠ some true := by
    refine Arrangement.opinion_ne_true fun leaf present all => ?_
    obtain ⟨within, -⟩ := Policy.readsAll_iff.mp (readAllOpinion_eq_true.mp all)
    rw [hopeless.grantedAt present] at within
    exact absurd within (by decide)
  rw [NodePermission.answers_of_grantsNothing nothing]
  simp [NodeAnswers.always, denied]

/-- The flag of a decision made afresh on reading everything below says what the opinion of its
providers says. -/
theorem Afresh.canReadAll_iff
    (afresh : Afresh world classifies seen names arrangement permission)
    (truthful : permission.Truthful world.seen) :
    (permission.answers world.seen).canReadAll = true ↔
      arrangement.opinion (world.readAllOpinion (Path.ofElements names)) = some true := by
  induction afresh with
  | leaf provider =>
      rw [Arrangement.opinion, readAllOpinion_eq_true, ← Policy.canReadAll_decide]
      rfl
  | collapsed nothing hopeless => exact canReadAll_collapsed_iff nothing hopeless
  | combined here found way agreed lined afresh ih =>
      rw [Arrangement.opinion_composite, ← lined, List.map_map, ← agreed]
      refine canReadAll_combined_iff named afresh truthful ?_
      cases truthful with
      | combined _ within => exact fun part present => ih part present (within part present)

end Flag

section Below

variable {combination : Combination} {members : List (Arrangement PolicyLeaf)}

/-- A composite by whose ways to find types only hidden names are hidden. -/
def HidesNames (arrangement : Arrangement PolicyLeaf) : Prop :=
  ∀ combination ∈ arrangement.combinations, combination.classify.HidesNames

/-- Where types are found in the standard way only hidden names are hidden. -/
theorem Standard.hidesNames {arrangement : Arrangement PolicyLeaf}
    (standard : Standard arrangement) : HidesNames arrangement := by
  intro combination listed
  obtain ⟨defines, classify⟩ := standard combination listed
  rw [classify]
  exact Classifier.standard_hidesNames defines

/-- Where no hidden name stands on the path, a walk down it decides afresh all the way. -/
theorem Walked.afresh (hides : HidesNames (.composite combination members)) {path : String}
    (visible : Path.isHidden path = false) {below : List String}
    (split : Path.elements path = names ++ below)
    (walked : Walked world combination members names permission) :
    Afresh world Classifier.HidesNames (fun _ => True) names (.composite combination members)
      permission :=
  walked.within.afresh (fun inner listed => ⟨hides inner listed, fun _ => trivial⟩)
    (TreeType.shown_of_not_isHidden (fun _ hides => hides) visible split)

/-- **Reading everything below.** If a decision reached by walking lets everything be read, and no
hidden name stands on a path through its place or further down, then reading is granted on the path
to whoever asks directly, and every decision reached by walking on lets the node and all of its
properties be read. -/
theorem readable_below (hides : HidesNames (.composite combination members))
    (walked : Walked world combination members names permission)
    (all : (permission.answers world.seen).canReadAll = true) {path : String}
    {below : List String} (split : Path.elements path = names ++ below)
    (visible : Path.isHidden path = false) :
    (∀ tree : Tree, Path.elements tree.path = Path.elements path →
      (((Arrangement.composite combination members).provider world.seen).isGranted tree none
        .read).run = true) ∧
    ∀ reached, Walked world combination members (Path.elements path) reached →
      let answers := reached.answers world.seen
      answers.canRead = true ∧ answers.canReadProperties = true ∧
        ∀ property, answers.canReadProperty property = true := by
  have named : ∀ name ∈ names ++ below, Path.IsName name := by
    rw [← split]
    exact fun _ member => Path.isName_of_mem_elements member
  -- The flag is the verdict on what policies say of everything below, and this includes `path`.
  have whole := ((walked.afresh hides visible split).canReadAll_iff walked.isName
    walked.kept.truthful).mp all
  have granted {i : Nat} (member : i ∈ Permissions.read) :
      (Arrangement.composite combination members).opinion
        (world.keptOpinion (Path.ofElements (names ++ below)) i) = some true :=
    (Arrangement.opinion_stricter fun leaf _ => stricter_readAll named member leaf).grants whole
  constructor
  · intro tree there
    have elements : Path.elements tree.path = Path.elements (Path.ofElements (names ++ below)) := by
      rw [there, split, Path.elements_ofElements named]
    have shown : Path.isHidden (Path.ofElements (names ++ below)) = false := by
      rw [← Path.isHidden_congr elements, Path.isHidden_congr there, visible]
    rw [world.isGranted_iff]
    refine ⟨by decide, fun i member => ?_⟩
    rw [world.opinionAt_congr elements, ← keptOpinion_eq_opinionAt world shown, granted member]
  · intro reached further answers
    have afresh := further.afresh hides visible (List.append_nil _).symm
    have reads := world.reads_of_composite further.kept.paired further.kept.truthful
    have opinion {i : Nat} (member : i ∈ Permissions.read) :
        reached.opinion world.covers i (.composite combination members) = some true := by
      rw [afresh.opinion_eq, split]
      exact granted member
    exact ⟨(reads.canRead trivial).mpr (opinion (by decide)),
      (reads.canReadProperties trivial).mpr (opinion (by decide)),
      fun property => (reads.canReadProperty property trivial).mpr (opinion (by decide))⟩

/-- A composite of two that must agree, one of them composed of a policy that lets everything be
read and one that has nothing to say: the root lets everything be read, so what lies two names below
can be read, walked to or asked about. -/
theorem reading_found_far_below :
    let world := World.initial none fun
      | 0 => ({ covers := .read } : Policy).allow "/" .read
      | _ => { covers := .removeNode }
    let combination := Combination.plain 0 .and
    let members : List (Arrangement PolicyLeaf) :=
      [.leaf (.plain 0), .composite (.plain 1 .or) [.leaf (.plain 0), .leaf (.plain 1)]]
    let arrangement := Arrangement.composite combination members
    let top := (arrangement.treePermission world.seen (.root none) .empty).run
    let reached := ((top.child world.seen "a" none).run.child world.seen "b" none).run
    (top.answers world.seen).canReadAll = true ∧
      ((arrangement.provider world.seen).isGranted ⟨"/a/b", none⟩ none .read).run = true ∧
      (reached.answers world.seen).canRead = true := by
  intro world combination members arrangement top reached
  have standard : Standard arrangement := by
    refine standard_plain 0 .and fun member present => ?_
    rcases List.mem_pair.mp present with rfl | rfl
    · exact standard_leaf _
    · exact standard_plain_leaves 1 .or [.plain 0, .plain 1]
  have start : Walked world combination members [] top := .root (by decide) .empty
  have walked : Walked world combination members (Path.elements "/a/b") reached := by
    have split : Path.elements "/a/b" = [] ++ ["a"] ++ ["b"] := by decide
    rw [split]
    exact (start.child (by decide) none).child (by decide) none
  have all : (top.answers world.seen).canReadAll = true := by decide
  obtain ⟨direct, further⟩ := readable_below standard.hidesNames start all
    (List.nil_append (Path.elements "/a/b")).symm (by decide)
  exact ⟨all, direct ⟨"/a/b", none⟩ rfl, (further reached walked).1⟩

/-- Where the flag says too much. If types are found in a way that hides a place without a hidden
name, the root lets everything be read and this place still may not be. And for a child that is
asked for with a slash behind its name, the policy overlooks what it denies below. -/
theorem flag_without_reading_below :
    let members : List (Arrangement PolicyLeaf) := [.leaf (.plain 0)]
    let standard := Combination.plain 0 .or
    let veiling : Combination :=
      { standard with classify := fun tree parent => if tree.name = "a" then .hidden else parent }
    let world := World.initial none fun _ => ({ covers := .read } : Policy).allow "/" .read
    let partly := World.initial none fun _ =>
      (({ covers := .read } : Policy).allow "/" .read).deny "/a/b" .read
    let root (world : World) (combination : Combination) :=
      ((Arrangement.composite combination members).treePermission world.seen (.root none) .empty).run
    let hidden := ((root world veiling).child world.seen "a" none).run
    let spelled := ((root partly standard).child partly.seen "a/" none).run
    Path.isHidden "/a" = false ∧ Path.isHidden "/a/b" = false ∧
      (Walked world veiling members [] (root world veiling) ∧
        Walked world veiling members ["a"] hidden ∧
        ((root world veiling).answers world.seen).canReadAll = true ∧
        (hidden.answers world.seen).canRead = false) ∧
      ((spelled.answers partly.seen).canReadAll = true ∧
        ((spelled.child partly.seen "b" none).run.answers partly.seen).canRead = false) := by
  intro members standard veiling world partly root hidden spelled
  have start : Walked world veiling members [] (root world veiling) := .root (by decide) .empty
  exact ⟨by decide, by decide, ⟨start, start.child (by decide) none, by decide, by decide⟩,
    by decide, by decide⟩

end Below

end World

end Authorization
