import Authorization.Proofs.Actions.Translation
import Authorization.Proofs.Provider.Opinion

/-!
# Spellings of paths

Paths that differ in redundant slashes have the same elements and denote the same location
(`Location.resolve_alike`), as long as no slash ends them. A path with a slash at its end has no
name, so it never denotes a property. A composite decides about actions at a path by the location
that the path denotes, hence it answers for every spelling as for the canonical one, except for
properties with a slash behind them (`isGrantedPath_canonical`).
-/

namespace Authorization

namespace Location

/-- Locations that differ in nothing but the spelling of a path at which nothing is. -/
inductive Alike : Location → Location → Prop
  | same (location : Location) : Alike location location
  | nothing {path other : String} (same : Path.elements path = Path.elements other) :
      Alike (.nothing path) (.nothing other)

variable {root : Tree} {path other : String}

/-- The location of a path at which there is a node. -/
theorem resolve_present (present : (root.descendant path).present = true) :
    resolve root path = .node (root.descendant path) := by
  rw [resolve, if_pos present]

/-- The location of a path at which there is no node: a property of the parent, or nothing. -/
theorem resolve_absent (absent : (root.descendant path).present = false) {above : String}
    (parent : Path.parent? path = some above) :
    resolve root path = (((root.descendant above).property? (Path.name path)).map
      (property (root.descendant above))).getD (.nothing path) := by
  rw [resolve, if_neg (by simp [absent]), parent]
  rfl

theorem resolve_eq_nothing (absent : (root.descendant path).present = false)
    (unowned : (resolve root path).property? = none) : resolve root path = .nothing path := by
  cases parent : Path.parent? path with
  | none => rw [resolve, if_neg (by simp [absent]), parent]; rfl
  | some above =>
      rw [resolve_absent absent parent] at unowned ⊢
      cases found : (root.descendant above).property? (Path.name path) with
      | none => rfl
      | some item =>
          rw [found] at unowned
          exact absurd unowned (Option.some_ne_none item)

/-- A path that a slash ends denotes no property. -/
theorem resolve_of_isClosed (closed : Path.isClosed path = true)
    (absent : (root.descendant path).present = false) : resolve root path = .nothing path := by
  obtain ⟨unnamed, parents⟩ := Path.elements_parent?_of_isClosed closed
  cases parent : Path.parent? path with
  | none => rw [resolve, if_neg (by simp [absent]), parent]; rfl
  | some above =>
      have there : root.descendant above = root.descendant path := by
        rw [Tree.descendant, Tree.descendant, parents above parent]
      have bare : (root.descendant path).state = none := by
        simpa [Tree.present] using absent
      rw [resolve_absent absent parent, there, Tree.property?, bare]
      rfl

/-- Paths of the same elements that no slash ends denote the same. -/
theorem resolve_alike (same : Path.elements path = Path.elements other)
    (absolute : Path.isAbsolute path = true) (opened : Path.isClosed path = false)
    (anchored : Path.isAbsolute other = true) (ajar : Path.isClosed other = false) :
    (resolve root path).Alike (resolve root other) := by
  have there : root.descendant path = root.descendant other := by
    rw [Tree.descendant, Tree.descendant, same]
  obtain ⟨above, parent, -, split⟩ := Path.elements_eq_concat absolute opened
  obtain ⟨place, found, -, cut⟩ := Path.elements_eq_concat anchored ajar
  rw [split, cut] at same
  obtain ⟨front, last⟩ := List.append_inj' same rfl
  have higher : root.descendant above = root.descendant place := by
    rw [Tree.descendant, Tree.descendant, front]
  cases present : (root.descendant path).present with
  | true =>
      have standing := (congrArg Tree.present there).symm.trans present
      rw [resolve_present present, resolve_present standing, there]
      exact .same _
  | false =>
      have bare := (congrArg Tree.present there).symm.trans present
      rw [resolve_absent present parent, resolve_absent bare found, higher,
        List.singleton_inj.mp last]
      cases (root.descendant place).property? (Path.name other) with
      | none => exact .nothing (by rw [split, cut, front, last])
      | some item => exact .same _

/-- The tree at a path does not depend on how this is spelled. -/
theorem descendant_canonical (root : Tree) (path : String) :
    root.descendant (Path.canonical path) = root.descendant path := by
  rw [Tree.descendant, Tree.descendant, Path.elements_canonical]

/-- A path denotes what its canonical spelling denotes, unless a slash ends it and the canonical
spelling denotes a property. -/
theorem resolve_canonical (absolute : Path.isAbsolute path = true)
    (plain : Path.isClosed path = false ∨
      (resolve root (Path.canonical path)).property? = none) :
    (resolve root path).Alike (resolve root (Path.canonical path)) := by
  have same := Path.elements_canonical path
  have there := descendant_canonical root path
  cases closed : Path.isClosed path with
  | false =>
      obtain ⟨above, -, -, split⟩ := Path.elements_eq_concat absolute closed
      refine resolve_alike same.symm absolute closed (Path.isAbsolute_canonical path) ?_
      rw [Path.isClosed_canonical, split]
      simp
  | true =>
      have unowned := plain.resolve_left (by simp [closed])
      cases present : (root.descendant path).present with
      | true =>
          have found := (congrArg Tree.present there).trans present
          rw [resolve_present present, resolve_present found, there]
          exact .same _
      | false =>
          have bare := (congrArg Tree.present there).trans present
          rw [resolve_of_isClosed closed present, resolve_eq_nothing bare unowned]
          exact .nothing same.symm

/-- Where the canonical spelling denotes a property, a path that a slash ends denotes nothing. -/
theorem resolve_closed_of_property (closed : Path.isClosed path = true)
    (owned : (resolve root (Path.canonical path)).property? ≠ none) :
    resolve root path = .nothing path := by
  refine resolve_of_isClosed closed (Bool.eq_false_iff.mpr fun present => owned ?_)
  rw [← descendant_canonical] at present
  rw [resolve_present present]
  rfl

end Location

theorem Permissions.ofActions_error_iff {actions : String} {location other : Location}
    {defined different : Bool} {failure : AuthorizationError} :
    ofActions actions location defined = .error failure ↔
      ofActions actions other different = .error failure := by
  rw [ofActions_eq_error_iff, ofActions_eq_error_iff]

theorem Permissions.ofActions_nothing (actions path other : String) (defined : Bool) :
    ofActions actions (.nothing path) defined = ofActions actions (.nothing other) defined := by
  have read : Action.toRead (.nothing path) = Action.toRead (.nothing other) := rfl
  have set : Action.toSetProperty (.nothing path) = Action.toSetProperty (.nothing other) := rfl
  have remove : Action.toRemove (.nothing path) = Action.toRemove (.nothing other) := rfl
  rw [ofActions, ofActions, read, set, remove]

/-- Where nothing is, the context goes by the elements of the path and not by its slashes. -/
def Context.IgnoresSlashes (context : Context) : Prop :=
  ∀ path other, Path.elements path = Path.elements other →
    context.definesLocation (.nothing path) = context.definesLocation (.nothing other)

/-- Contexts that recognise content by names ignore slashes. -/
theorem Context.ignoresSlashes_ofNames (recognised : String → Bool) :
    (ofNames recognised).IgnoresSlashes :=
  fun _ _ same => congrArg (List.any · recognised) same

namespace World

variable (world : World) (combination : Combination) (members : List (Arrangement PolicyLeaf))

/-- Locations are decided about by the elements of the paths of their nodes. -/
theorem isGrantedAt_congr {location other : Location}
    (same : Path.elements location.nodePath = Path.elements other.nodePath) :
    (((Arrangement.composite combination members).provider world.seen).isGrantedAt location) =
      ((Arrangement.composite combination members).provider world.seen).isGrantedAt other := by
  funext asked
  apply Id.ext
  rw [Bool.eq_iff_iff, world.isGrantedAt_iff, world.isGrantedAt_iff]
  simp only [world.opinionAt_congr same]

/-- Actions where nothing is are decided about by the elements of the path. -/
theorem actions_nothing_congr (context : combination.context.IgnoresSlashes) {path other : String}
    (same : Path.elements path = Path.elements other) (actions : String) :
    let provider := (Arrangement.composite combination members).provider world.seen
    ((Permissions.ofActions actions (.nothing path)
        (combination.context.definesLocation (.nothing path))).map fun asked =>
          (provider.isGrantedAt (.nothing path) asked).run) =
      (Permissions.ofActions actions (.nothing other)
        (combination.context.definesLocation (.nothing other))).map fun asked =>
          (provider.isGrantedAt (.nothing other) asked).run := by
  intro provider
  have defined : combination.context.definesLocation (.nothing path) =
      combination.context.definesLocation (.nothing other) := context path other same
  have decided : provider.isGrantedAt (.nothing path) = provider.isGrantedAt (.nothing other) :=
    world.isGrantedAt_congr combination members same
  rw [Permissions.ofActions_nothing actions path other, defined, decided]

/-- Paths whose locations are alike are granted the same. -/
theorem isGrantedPath_alike (context : combination.context.IgnoresSlashes) {text other : String}
    (alike : (Location.resolve (.root (world.roots combination.id)) text).Alike
      (Location.resolve (.root (world.roots combination.id)) other)) (actions : String) :
    let provider := (Arrangement.composite combination members).provider world.seen
    (provider.isGrantedPath text actions).run.run =
      (provider.isGrantedPath other actions).run.run := by
  intro provider
  rw [world.isGrantedPath_run combination members text actions,
    world.isGrantedPath_run combination members other actions]
  generalize Location.resolve (.root (world.roots combination.id)) text = first at alike
  generalize Location.resolve (.root (world.roots combination.id)) other = second at alike
  cases alike with
  | same => rfl
  | nothing same => exact world.actions_nothing_congr combination members context same actions

theorem isGrantedPath_error_iff {text other : String} (actions : String)
    (failure : AuthorizationError) :
    let provider := (Arrangement.composite combination members).provider world.seen
    (provider.isGrantedPath text actions).run.run = .error failure ↔
      (provider.isGrantedPath other actions).run.run = .error failure := by
  intro provider
  have mapped {outcome : Except AuthorizationError Permissions} {answer : Permissions → Bool} :
      outcome.map answer = .error failure ↔ outcome = .error failure := by
    cases outcome <;> simp [Except.map]
  rw [world.isGrantedPath_run combination members text actions,
    world.isGrantedPath_run combination members other actions, mapped, mapped]
  exact Permissions.ofActions_error_iff

/-- **Spellings of paths.** For actions at an absolute path a composite fails as it does for the
canonical spelling of the path, and gives the same answer as for that, unless a slash ends the path
and the canonical spelling denotes a property. In that case it does not see the property: it answers
as if nothing were there. The context may be any that does not itself look at slashes. -/
theorem isGrantedPath_canonical (context : combination.context.IgnoresSlashes) {text : String}
    (absolute : Path.isAbsolute text = true) (actions : String) :
    let provider := (Arrangement.composite combination members).provider world.seen
    let answer (spelling : String) := (provider.isGrantedPath spelling actions).run.run
    let denoted := Location.resolve (.root (world.roots combination.id)) (Path.canonical text)
    (∀ failure, answer text = .error failure ↔ answer (Path.canonical text) = .error failure) ∧
      (Path.isClosed text = false ∨ denoted.property? = none →
        answer text = answer (Path.canonical text)) ∧
      (Path.isClosed text = true → denoted.property? ≠ none →
        let location := Location.nothing (Path.canonical text)
        answer text = (Permissions.ofActions actions location
          (combination.context.definesLocation location)).map fun asked =>
            (provider.isGrantedAt location asked).run) := by
  intro provider answer denoted
  refine ⟨world.isGrantedPath_error_iff combination members actions, ?_, ?_⟩
  · intro plain
    exact world.isGrantedPath_alike combination members context
      (Location.resolve_canonical absolute plain) actions
  · intro closed owned
    have bare := Location.resolve_closed_of_property closed owned
    have run := world.isGrantedPath_run combination members text actions
    rw [bare] at run
    exact run.trans (world.actions_nothing_congr combination members context
      (Path.elements_canonical text).symm actions)

/-- Properties may be added but not changed. So the primary type that a node has may not be set,
however many slashes stand between the names. -/
theorem type_kept_however_spelled :
    let content := Node.ofContent [{ path := "/a" }]
    let world := World.initial content fun _ =>
      ({ covers := .setProperty } : Policy).allow "/" .addProperty
    let provider := (Arrangement.composite (.plain 0 .or) [.leaf (.plain 0)]).provider world.seen
    (Combination.plain 0 .or).context.IgnoresSlashes ∧
      Path.isAbsolute "//a///jcr:primaryType" = true ∧
      (provider.isGrantedPath "//a///jcr:primaryType" "set_property").run.run = .ok false := by
  intro content world provider
  have context : (Combination.plain 0 .or).context.IgnoresSlashes :=
    Context.ignoresSlashes_ofNames _
  have absolute : Path.isAbsolute "//a///jcr:primaryType" = true := by decide
  obtain ⟨-, same, -⟩ :=
    world.isGrantedPath_canonical (.plain 0 .or) [.leaf (.plain 0)] context absolute "set_property"
  have spelled : Path.canonical "//a///jcr:primaryType" = "/a/jcr:primaryType" := by decide
  have kept : (provider.isGrantedPath "/a/jcr:primaryType" "set_property").run.run = .ok false := by
    dsimp only [provider, world, content]
    rfl
  rw [spelled] at same
  exact ⟨context, absolute, (same (.inl (by decide))).trans kept⟩

/-- With a slash behind it, the same property may be set: the path is taken to denote nothing, where
setting a property means adding one. -/
theorem type_changed_behind_slash :
    let content := Node.ofContent [{ path := "/a" }]
    let world := World.initial content fun _ =>
      ({ covers := .setProperty } : Policy).allow "/" .addProperty
    let provider := (Arrangement.composite (.plain 0 .or) [.leaf (.plain 0)]).provider world.seen
    Path.isAbsolute "/a/jcr:primaryType/" = true ∧
      Path.canonical "/a/jcr:primaryType/" = "/a/jcr:primaryType" ∧
      (provider.isGrantedPath "/a/jcr:primaryType/" "set_property").run.run = .ok true ∧
      (provider.isGrantedPath "/a/jcr:primaryType" "set_property").run.run = .ok false := by
  refine ⟨by decide, by decide, rfl, rfl⟩

end World

end Authorization
