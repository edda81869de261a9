import Authorization.Proofs.Decision.Agreement

/-!
# Hidden places

Asked directly, a composite grants nothing at a path with a hidden name on it. Decisions reached by
walking go by the types found on the way, and a hidden name below a store of versions or permissions
makes no hidden type there: what such decisions grant is what the policies grant, hidden or not
(`hidden_denied_iff`).
-/

namespace Authorization

namespace World

section Direct

variable (world : World) (combination : Combination) (members : List (Arrangement PolicyLeaf))

/-- Nothing is granted at a tree with a hidden name on its path. -/
theorem isGranted_of_isHidden {tree : Tree} (hidden : Path.isHidden tree.path = true)
    (property : Option Property) (asked : Permissions) :
    (((Arrangement.composite combination members).provider world.seen).isGranted
      tree property asked).run = false := by
  rw [← Bool.not_eq_true, world.isGranted_iff]
  exact Mask.not_forall_mem fun i _ => world.opinion_ne_true_of_isHidden hidden i _

theorem isGrantedAt_of_isHidden {location : Location}
    (hidden : Path.isHidden location.nodePath = true) (asked : Permissions) :
    (((Arrangement.composite combination members).provider world.seen).isGrantedAt
      location asked).run = false := by
  rw [← Bool.not_eq_true, world.isGrantedAt_iff]
  exact Mask.not_forall_mem fun i _ => world.opinion_ne_true_of_isHidden hidden i _

/-- Actions at a hidden location are denied unless they are unknown. -/
theorem isGrantedPath_of_isHidden (text actions : String) :
    let location := Location.resolve (.root (world.roots combination.id)) text
    Path.isHidden location.nodePath = true →
      (((Arrangement.composite combination members).provider world.seen).isGrantedPath
          text actions).run.run =
        (Permissions.ofActions actions location
          (combination.context.definesLocation location)).map fun _ => false := by
  intro location hidden
  have denied : (fun asked => (((Arrangement.composite combination members).provider
      world.seen).isGrantedAt location asked).run) = fun _ => false :=
    funext (world.isGrantedAt_of_isHidden combination members hidden)
  rw [isGrantedPath_run, denied]

end Direct

variable {world : World} {combination : Combination} {members : List (Arrangement PolicyLeaf)}
  {names : List String} {path : String} {permission : TreePermission PolicyLeaf PolicyDecision}

/-- A concealed place is denied to every decision reached by walking. -/
theorem Walked.answers_of_concealed (standard : Standard (.composite combination members))
    (walked : Walked world combination members names permission)
    (concealed : Path.Concealed names) : permission.answers world.seen = .always false := by
  have nothing : permission.grantsNothing = true :=
    walked.within.nothing_of_veiled (standard.looks world) (TreeType.settled_standard _)
      (TreeType.veiled_of_concealed concealed)
  exact TreePermission.answers_of_grantsNothing nothing

/-- A walked decision says no to everything exactly if its place is concealed or no permission is
granted there. -/
theorem Walked.answers_eq_always_false_iff (standard : Standard (.composite combination members))
    (walked : Walked world combination members (Path.elements path) permission) :
    permission.answers world.seen = .always false ↔
      Path.Concealed (Path.elements path) ∨ ∀ i,
        (Arrangement.composite combination members).opinion (world.keptOpinion path i) ≠
          some true := by
  by_cases concealed : Path.Concealed (Path.elements path)
  · simp only [walked.answers_of_concealed standard concealed, concealed, true_or]
  · have beyond {i : Nat} (high : ¬ i < 64) : (Arrangement.composite combination members).opinion
        (world.keptOpinion path i) ≠ some true := by
      apply Arrangement.opinion_ne_true
      intro leaf _ granted
      exact high (Mask.lt_of_mem (Mask.opinion_eq_true.mp granted).1)
    rw [world.answers_eq_always_false_iff walked.kept.paired walked.kept.truthful]
    simp only [walked.opinion_eq standard concealed, concealed, false_or]
    refine forall_congr' fun i => ⟨fun denied => ?_, fun denied _ => denied⟩
    by_cases bit : i < 64
    · exact denied bit
    · exact beyond bit

/-- What a walked decision grants where nothing is concealed: every permission asked for, and at
least one. -/
theorem Walked.grants_iff (standard : Standard (.composite combination members))
    (walked : Walked world combination members (Path.elements path) permission)
    (shown : ¬ Path.Concealed (Path.elements path)) (property : Option Property)
    (asked : Permissions) :
    (permission.answers world.seen).grants property asked = true ↔
      asked ≠ ∅ ∧ ∀ i ∈ asked,
        (Arrangement.composite combination members).opinion (world.keptOpinion path i) =
          some true := by
  rw [world.grants_iff walked.kept.paired]
  simp only [walked.opinion_eq standard shown]

/-- **Hidden places.** Asked about a tree, a location or a path, a composite with standard types
grants nothing at a place with a hidden name on its path. A decision reached by walking there denies
everything exactly if the place is concealed, or if the policies grant nothing there even when it is
not taken to be hidden; below a store of versions or permissions it grants what they grant. -/
theorem hidden_denied_iff (world : World) (standard : Standard (.composite combination members))
    (hidden : Path.isHidden path = true) :
    let arrangement := Arrangement.composite combination members
    let provider := arrangement.provider world.seen
    (∀ tree : Tree, Path.elements tree.path = Path.elements path → ∀ property asked,
      (provider.isGranted tree property asked).run = false) ∧
    (∀ location : Location, Path.elements location.nodePath = Path.elements path → ∀ asked,
      (provider.isGrantedAt location asked).run = false) ∧
    (∀ text actions, let location := Location.resolve (.root (world.roots combination.id)) text
      Path.elements location.nodePath = Path.elements path →
        (provider.isGrantedPath text actions).run.run =
          (Permissions.ofActions actions location
            (combination.context.definesLocation location)).map fun _ => false) ∧
    ∀ permission, Walked world combination members (Path.elements path) permission →
      (permission.answers world.seen = .always false ↔
        Path.Concealed (Path.elements path) ∨
          ∀ i, arrangement.opinion (world.keptOpinion path i) ≠ some true) ∧
      (¬ Path.Concealed (Path.elements path) → ∀ property asked,
        ((permission.answers world.seen).grants property asked = true ↔
          asked ≠ ∅ ∧ ∀ i ∈ asked,
            arrangement.opinion (world.keptOpinion path i) = some true)) := by
  intro arrangement provider
  refine ⟨?_, ?_, ?_, ?_⟩
  · intro tree there property asked
    exact world.isGranted_of_isHidden combination members
      ((Path.isHidden_congr there).trans hidden) property asked
  · intro location there asked
    exact world.isGrantedAt_of_isHidden combination members
      ((Path.isHidden_congr there).trans hidden) asked
  · intro text actions location there
    exact world.isGrantedPath_of_isHidden combination members text actions
      ((Path.isHidden_congr there).trans hidden)
  · intro permission walked
    exact ⟨walked.answers_eq_always_false_iff standard, walked.grants_iff standard⟩

/-- Below a hidden node a store conceals nothing less: reading is denied there, though the policy
allows it everywhere. -/
theorem reading_denied_below_hidden_node :
    let world := World.initial none fun _ => ({ covers := .read } : Policy).allow "/" .read
    let combination := Combination.plain 0 .or
    let members : List (Arrangement PolicyLeaf) := [.leaf (.plain 0)]
    let arrangement := Arrangement.composite combination members
    let top := (arrangement.treePermission world.seen (.root none) .empty).run
    let above := (arrangement.treePermission world.seen ⟨"/:x", none⟩ top).run
    let permission := (above.child world.seen "rep:permissionStore" none).run
    ((arrangement.provider world.seen).isGranted ⟨"/:x/rep:permissionStore", none⟩ none .read).run =
        false ∧
      permission.answers world.seen = .always false := by
  intro world combination members arrangement top above permission
  have standard : Standard arrangement := standard_plain_leaves 0 .or [.plain 0]
  have start : Walked world combination members [] top := .root (by decide) .empty
  have split : Path.elements "/:x/rep:permissionStore" =
      [] ++ [":x"] ++ ["rep:permissionStore"] := by decide
  have walked : Walked world combination members (Path.elements "/:x/rep:permissionStore")
      permission := by
    rw [split]
    exact (start.step (by decide)).child (by decide) none
  have concealed : Path.Concealed (Path.elements "/:x/rep:permissionStore") := by
    rw [split]
    exact ⟨[], ":x", ["rep:permissionStore"], rfl, by decide, Path.storeless_nil⟩
  have hidden : Path.isHidden "/:x/rep:permissionStore" = true := by decide
  obtain ⟨direct, -, -, decisions⟩ := hidden_denied_iff world standard hidden
  exact ⟨direct ⟨"/:x/rep:permissionStore", none⟩ rfl none .read,
    (decisions permission walked).1.mpr (.inl concealed)⟩

/-- A hidden node in the permission store is denied when a composite is asked about it directly, but
a decision reached by walking there lets everything be read that the policy allows at the root. -/
theorem hidden_node_granted_in_store :
    let world := World.initial none fun _ => ({ covers := .read } : Policy).allow "/" .read
    let combination := Combination.plain 0 .or
    let members : List (Arrangement PolicyLeaf) := [.leaf (.plain 0)]
    let arrangement := Arrangement.composite combination members
    let top := (arrangement.treePermission world.seen (.root none) .empty).run
    let above := (arrangement.treePermission world.seen ⟨"/rep:permissionStore", none⟩ top).run
    let permission :=
      (arrangement.treePermission world.seen ⟨"/rep:permissionStore/:x", none⟩ above).run
    Standard arrangement ∧ Path.isHidden "/rep:permissionStore/:x" = true ∧
      Walked world combination members (Path.elements "/rep:permissionStore/:x") permission ∧
      ((arrangement.provider world.seen).isGranted ⟨"/rep:permissionStore/:x", none⟩ none
        .read).run = false ∧
      (permission.answers world.seen).isGranted .read = true ∧
      (permission.answers world.seen).canReadAll = true := by
  intro world combination members arrangement top above permission
  have walked : Walked world combination members (Path.elements "/rep:permissionStore/:x")
      permission := by
    have start : Walked world combination members [] top := .root (by decide) .empty
    have split : Path.elements "/rep:permissionStore/:x" =
        [] ++ ["rep:permissionStore"] ++ [":x"] := by decide
    rw [split]
    exact (start.step (by decide)).step (by decide)
  exact ⟨standard_plain_leaves 0 .or [.plain 0], by decide, walked, by decide, by decide, by decide⟩

end World

end Authorization
