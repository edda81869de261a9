import Authorization.Proofs.Decision.Opinion

/-!
# Remembered read flags

A decision may remember read flags that it was asked for. As long as every flag remembered is the
one that would be found now, remembering shows in no answer (`Truthful.answers_forget`), and asking
for all flags keeps it so (`Truthful.remember`).
-/

namespace Authorization

namespace Site

/-- The site with no read flag remembered. -/
def forget (site : Site) : Site := { site with memo := {} }

/-- Every read flag that is remembered is the one found from the parts. -/
structure Truthful (site : Site) (parts : List DecisionPart) : Prop where
  read : ∀ flag ∈ site.memo.read, site.forget.canRead parts = flag
  readAll : ∀ flag ∈ site.memo.readAll, site.forget.canReadAll parts = flag
  readProperties : ∀ flag ∈ site.memo.readProperties, site.forget.canReadProperties parts = flag

variable {site : Site} {parts : List DecisionPart}

theorem canRead_of_memo {flag : Bool} (known : site.memo.read = some flag) :
    (site.answers parts).canRead = flag := by
  rw [answers, canRead, known, Option.getD_some]

theorem canReadAll_of_memo {flag : Bool} (known : site.memo.readAll = some flag) :
    (site.answers parts).canReadAll = flag := by
  rw [answers, canReadAll, known, Option.getD_some]

theorem canReadProperties_of_memo {flag : Bool} (known : site.memo.readProperties = some flag) :
    (site.answers parts).canReadProperties = flag := by
  rw [answers, canReadProperties, known, Option.getD_some]

/-- What remembers nothing remembers nothing stale. -/
theorem truthful_of_memo (bare : site.memo = {}) : site.Truthful parts where
  read := by simp [bare]
  readAll := by simp [bare]
  readProperties := by simp [bare]

namespace Truthful

variable (truthful : site.Truthful parts)

include truthful

theorem canRead_forget : site.forget.canRead parts = site.canRead parts := by
  cases known : site.memo.read with
  | none => rw [canRead, canRead, known]; rfl
  | some flag => rw [truthful.read flag known, canRead, known, Option.getD_some]

theorem canReadAll_forget : site.forget.canReadAll parts = site.canReadAll parts := by
  cases known : site.memo.readAll with
  | none => rw [canReadAll, canReadAll, known]; rfl
  | some flag => rw [truthful.readAll flag known, canReadAll, known, Option.getD_some]

theorem canReadProperties_forget :
    site.forget.canReadProperties parts = site.canReadProperties parts := by
  cases known : site.memo.readProperties with
  | none => rw [canReadProperties, canReadProperties, known]; rfl
  | some flag =>
      rw [truthful.readProperties flag known, canReadProperties, known, Option.getD_some]

/-- What is remembered truthfully shows in no answer. -/
theorem answers_forget : site.forget.answers parts = site.answers parts := by
  have single (property : Property) :
      site.forget.canReadProperty parts property = site.canReadProperty parts property := by
    rw [canReadProperty, canReadProperty, truthful.canReadProperties_forget]
    rfl
  unfold answers
  rw [truthful.canRead_forget, truthful.canReadAll_forget, truthful.canReadProperties_forget,
    funext single]
  rfl

end Truthful

end Site

namespace TreePermission

variable {m : Type → Type} {L D : Type}

mutual

/-- The decision with no read flag remembered, by none of its parts either. -/
def forget : TreePermission L D → TreePermission L D
  | .node permission => .node permission
  | .combined site parts => .combined site.forget (forgetParts parts)

/-- The parts with no read flag remembered. -/
def forgetParts :
    List (Arrangement L × TreePermission L D) → List (Arrangement L × TreePermission L D)
  | [] => []
  | (arrangement, permission) :: parts => (arrangement, forget permission) :: forgetParts parts

end

theorem forgetParts_eq_map (parts : List (Arrangement L × TreePermission L D)) :
    forgetParts parts = parts.map fun part => (part.1, part.2.forget) := by
  induction parts with
  | nil => rfl
  | cons part parts ih => rw [forgetParts, ih, List.map_cons]

theorem rememberParts_eq_map [NodeDecision D] (snapshot : Snapshot m L D)
    (parts : List (Arrangement L × TreePermission L D)) :
    rememberParts snapshot parts = parts.map fun part => (part.1, part.2.remember snapshot) := by
  induction parts with
  | nil => rfl
  | cons part parts ih => rw [rememberParts, ih, List.map_cons]

theorem map_fst_of_forgetParts {parts others : List (Arrangement L × TreePermission L D)}
    (same : forgetParts others = forgetParts parts) :
    others.map Prod.fst = parts.map Prod.fst := by
  have arranged := congrArg (List.map Prod.fst) same
  simpa only [forgetParts_eq_map, List.map_map, Function.comp_def] using arranged

/-- A part of one of two decisions that differ in their memories only has a counterpart in the
other. -/
theorem exists_counterpart {parts others : List (Arrangement L × TreePermission L D)}
    (same : forgetParts others = forgetParts parts) {other : Arrangement L × TreePermission L D}
    (present : other ∈ others) :
    ∃ part ∈ parts, part.1 = other.1 ∧ other.2.forget = part.2.forget := by
  rw [forgetParts_eq_map, forgetParts_eq_map] at same
  have listed := List.mem_map_of_mem (f := fun part => (part.1, part.2.forget)) present
  rw [same] at listed
  obtain ⟨part, member, equal⟩ := List.mem_map.mp listed
  obtain ⟨first, second⟩ := Prod.mk.inj equal
  exact ⟨part, member, first, second.symm⟩

variable {permission other : TreePermission L D}

theorem eq_node_of_forget {permission : NodePermission D} (same : other.forget = .node permission) :
    other = .node permission := by
  cases other with
  | node => rwa [forget] at same
  | combined => exact absurd same (by simp [forget])

/-- What is a combined decision but for what is remembered combines the same parts. -/
theorem eq_combined_of_forget {site : Site} {parts : List (Arrangement L × TreePermission L D)}
    (same : other.forget = (combined site parts).forget) :
    ∃ remembering others, other = .combined remembering others ∧
      remembering.forget = site.forget ∧ forgetParts others = forgetParts parts := by
  cases other with
  | node => exact absurd same (by simp [forget])
  | combined remembering others =>
      rw [forget, forget] at same
      obtain ⟨sites, parted⟩ := TreePermission.combined.inj same
      exact ⟨remembering, others, rfl, sites, parted⟩

/-- Every read flag that is remembered somewhere in the decision is the one found at the moment. -/
inductive Truthful [NodeDecision D] (snapshot : Snapshot m L D) : TreePermission L D → Prop
  | node {permission : NodePermission D} : Truthful snapshot (.node permission)
  | combined {site : Site} {parts : List (Arrangement L × TreePermission L D)}
      (here : site.Truthful (decisionParts snapshot parts))
      (within : ∀ part ∈ parts, Truthful snapshot part.2) :
      Truthful snapshot (.combined site parts)

theorem forget_forget (permission : TreePermission L D) :
    permission.forget.forget = permission.forget := by
  induction permission with
  | node permission => rfl
  | combined site parts ih =>
      rw [forget, forget, forgetParts_eq_map, forgetParts_eq_map, List.map_map]
      refine congrArg (combined site.forget) (List.map_congr_left fun part present => ?_)
      simp only [Function.comp_apply, ih part present]

/-- A decision that remembers nothing remembers nothing stale. -/
theorem truthful_forget [NodeDecision D] (snapshot : Snapshot m L D)
    (permission : TreePermission L D) : permission.forget.Truthful snapshot := by
  induction permission with
  | node permission => exact .node
  | combined site parts ih =>
      refine .combined (Site.truthful_of_memo rfl) ?_
      rw [forgetParts_eq_map, List.forall_mem_map]
      exact ih

/-- Opinions do not depend on what is remembered. -/
theorem opinion_forget (covers : PolicyLeaf → Permissions) (i : Nat)
    {permission : TreePermission PolicyLeaf PolicyDecision} {arrangement : Arrangement PolicyLeaf} :
    permission.forget.opinion covers i arrangement = permission.opinion covers i arrangement := by
  induction permission generalizing arrangement with
  | node permission => rw [forget]
  | combined site parts ih =>
      rw [forget, opinion_combined, opinion_combined, forgetParts_eq_map, List.map_map]
      refine congrArg site.composition.verdict (List.map_congr_left fun part present => ?_)
      exact ih part present

/-- Memories do not matter for opinions. -/
theorem opinion_of_forget {permission other : TreePermission PolicyLeaf PolicyDecision}
    (same : other.forget = permission.forget) (covers : PolicyLeaf → Permissions) (i : Nat)
    (arrangement : Arrangement PolicyLeaf) :
    other.opinion covers i arrangement = permission.opinion covers i arrangement := by
  rw [← opinion_forget, same, opinion_forget]

/-- Memories do not matter for which providers gave a decision. -/
theorem Paired.of_forget {fits : PolicyLeaf → NodePermission PolicyDecision → Prop}
    {arrangement : Arrangement PolicyLeaf}
    {permission other : TreePermission PolicyLeaf PolicyDecision}
    (paired : permission.Paired fits arrangement) (same : other.forget = permission.forget) :
    other.Paired fits arrangement := by
  induction paired generalizing other with
  | leaf fit =>
      rw [eq_node_of_forget same]
      exact .leaf fit
  | nothing nothing =>
      rw [eq_node_of_forget same]
      exact .nothing nothing
  | combined lined paired ih =>
      obtain ⟨remembering, others, rfl, -, parted⟩ := eq_combined_of_forget same
      refine .combined ((map_fst_of_forgetParts parted).trans lined) fun other present => ?_
      obtain ⟨part, member, arranged, equal⟩ := exists_counterpart parted present
      rw [← arranged]
      exact ih part member equal

section Moment

variable (world : World)

/-- What providers cover does not depend on what is remembered. -/
theorem coverage_forget (property : Option Property) (asked : Permissions)
    (permission : TreePermission PolicyLeaf PolicyDecision) (arrangement : Arrangement PolicyLeaf) :
    permission.forget.coverage world.seen property asked arrangement =
      permission.coverage world.seen property asked arrangement := by
  induction permission generalizing arrangement with
  | node permission => rw [forget]
  | combined site parts ih =>
      cases arrangement with
      | empty | leaf => rfl
      | composite combination members =>
          apply Mask.ext
          intro i
          simp only [forget, coverage, mem_coverageParts, forgetParts_eq_map, List.mem_map,
            exists_exists_and_eq_and]
          refine exists_congr fun part => and_congr_right fun present => ?_
          rw [ih part present]

theorem decisionParts_forget {parts : List (Arrangement PolicyLeaf × TreePermission PolicyLeaf
    PolicyDecision)}
    (same : ∀ part ∈ parts, part.2.forget.answers world.seen = part.2.answers world.seen) :
    decisionParts world.seen (forgetParts parts) = decisionParts world.seen parts := by
  rw [decisionParts_eq_map, decisionParts_eq_map, forgetParts_eq_map, List.map_map]
  refine List.map_congr_left fun part present => ?_
  simp only [Function.comp_apply, coverage_forget, same part present]

variable {world} {permission other : TreePermission PolicyLeaf PolicyDecision}

/-- What is remembered truthfully shows in no answer. -/
theorem Truthful.answers_forget (truthful : permission.Truthful world.seen) :
    permission.forget.answers world.seen = permission.answers world.seen := by
  induction truthful with
  | node => rw [forget]
  | combined here within ih =>
      rw [forget, answers, answers, decisionParts_forget world ih, here.answers_forget]

/-- Decisions that differ in truthful memories only give the same answers. -/
theorem Truthful.answers_congr (truthful : permission.Truthful world.seen)
    (recalling : other.Truthful world.seen) (same : other.forget = permission.forget) :
    other.answers world.seen = permission.answers world.seen := by
  rw [← truthful.answers_forget, ← recalling.answers_forget, same]

/-- Remembering changes nothing but what is remembered. -/
theorem forget_remember : (permission.remember world.seen).forget = permission.forget := by
  induction permission with
  | node permission => rw [remember]
  | combined site parts ih =>
      rw [remember, forget, forget, rememberParts_eq_map, forgetParts_eq_map, forgetParts_eq_map,
        List.map_map]
      refine congrArg (combined site.forget) (List.map_congr_left fun part present => ?_)
      simp only [Function.comp_apply, ih part present]

/-- Asking a decision for all its read flags keeps its memory truthful. -/
theorem Truthful.remember (truthful : permission.Truthful world.seen) :
    (permission.remember world.seen).Truthful world.seen := by
  induction truthful with
  | node => exact .node
  | @combined site parts here within ih =>
      have kept : decisionParts world.seen (rememberParts world.seen parts) =
          decisionParts world.seen parts := by
        rw [decisionParts_eq_map, decisionParts_eq_map, rememberParts_eq_map, List.map_map]
        refine List.map_congr_left fun part present => ?_
        simp only [Function.comp_apply, ← coverage_forget world _ _ (part.2.remember world.seen),
          forget_remember, coverage_forget,
          (within part present).answers_congr (ih part present) forget_remember]
      refine .combined ⟨?_, ?_, ?_⟩ ?_
      · rintro flag ⟨⟩
        rw [kept]
        exact here.canRead_forget
      · rintro flag ⟨⟩
        rw [kept]
        exact here.canReadAll_forget
      · rintro flag ⟨⟩
        rw [kept]
        exact here.canReadProperties_forget
      · rw [rememberParts_eq_map, List.forall_mem_map]
        exact ih

section Remembered

variable (later : World)

/-- Read flags that were asked for once are answered so ever after. -/
theorem canRead_remember :
    ((permission.remember world.seen).answers later.seen).canRead =
      (permission.answers world.seen).canRead := by
  cases permission with
  | node permission => rfl
  | combined site parts =>
      rw [remember, answers]
      exact Site.canRead_of_memo rfl

/-- A remembered flag for reading everything stays, whatever happens to the world. -/
theorem canReadAll_remember :
    ((permission.remember world.seen).answers later.seen).canReadAll =
      (permission.answers world.seen).canReadAll := by
  cases permission with
  | node permission => rfl
  | combined site parts =>
      rw [remember, answers]
      exact Site.canReadAll_of_memo rfl

theorem canReadProperties_remember :
    ((permission.remember world.seen).answers later.seen).canReadProperties =
      (permission.answers world.seen).canReadProperties := by
  cases permission with
  | node permission => rfl
  | combined site parts =>
      rw [remember, answers]
      exact Site.canReadProperties_of_memo rfl

end Remembered

end Moment

end TreePermission

end Authorization
