import Authorization.Config.Basic
import Authorization.Proofs.Content.Building

/-!
# Configured content

The content of a configuration consists of the places on the way to the listed paths, the root among
them, and nothing else (`Configuration.content_exact`). Adding a path creates what is missing on the
way to it and leaves alone what is there (`Node.propertiesAt_modifyAt_id`), so neither the order of
the paths nor their repetition or spelling matters.
-/

namespace Authorization

namespace Node

/-- In a node without children only the node itself is found. -/
theorem propertiesAt_of_childless (node : Node) (childless : node.children = [])
    (place : List String) :
    node.propertiesAt place = if place = [] then some node.properties else none := by
  cases place with
  | nil => rfl
  | cons name place =>
      rw [propertiesAt_cons, childless, if_neg (List.cons_ne_nil name place)]
      rfl

/-- A child that is missing is as good as one with nothing but its primary type, once names have
been gone down from it. -/
theorem propertiesAt_getD_fresh (state : NodeState) (names place : List String) :
    ((state.getD fresh).propertiesAt place).or
        (if place <+: names then some fresh.properties else none) =
      (state.bind fun child => child.propertiesAt place).or
        (if place <+: names then some fresh.properties else none) := by
  cases state with
  | some child => rfl
  | none =>
      rw [Option.getD_none, Option.bind_none, Option.none_or,
        propertiesAt_of_childless fresh rfl]
      by_cases top : place = []
      · simp [top]
      · rw [if_neg top, Option.none_or]

/-- Going down names creates what is missing on the way, and changes nothing else. -/
theorem propertiesAt_modifyAt_id (node : Node) (names place : List String) :
    (node.modifyAt id names).propertiesAt place =
      (node.propertiesAt place).or (if place <+: names then some fresh.properties else none) := by
  induction names generalizing node place with
  | nil =>
      cases place with
      | nil => rfl
      | cons query place => simp [modifyAt]
  | cons name names ih =>
      cases place with
      | nil => rfl
      | cons query place =>
          have children : (node.modifyAt id (name :: names)).children.find? query =
              if name = query then some (((node.children.find? name).getD fresh).modifyAt id names)
              else node.children.find? query := Dictionary.find?_insert ..
          rw [propertiesAt_cons, propertiesAt_cons, children]
          by_cases same : name = query
          · subst same
            simp only [if_true, Option.bind_some, ih, List.cons_prefix_cons, true_and]
            exact propertiesAt_getD_fresh _ names place
          · simp [same, Ne.symm same]

/-- After some paths are added, what was there is unchanged, and the rest is found at the prefixes
of these paths. -/
theorem propertiesAt_foldl_add (node : Node) (paths place : List String) :
    ((paths.map fun path => ({ path } : ContentItem)).foldl add node).propertiesAt place =
      (node.propertiesAt place).or
        (if ∃ path ∈ paths, place <+: Path.elements path then some fresh.properties
        else none) := by
  induction paths generalizing node with
  | nil => simp
  | cons path paths ih =>
      have added : node.add { path } = node.modifyAt id (Path.elements path) := rfl
      rw [List.map_cons, List.foldl_cons, ih, added, propertiesAt_modifyAt_id, Option.or_assoc]
      refine congrArg _ ?_
      simp only [List.exists_mem_cons_iff]
      by_cases leading : place <+: Path.elements path <;> simp [leading]

end Node

namespace Configuration

/-- What stands at a place of the configured content. -/
theorem propertiesAt_contentRoot (config : Configuration) (place : List String) :
    config.contentRoot.propertiesAt place =
      if place = [] then some []
      else if ∃ path ∈ config.content, place <+: Path.elements path then
        some Node.fresh.properties
      else none := by
  rw [contentRoot, Node.ofContent, Node.propertiesAt_foldl_add,
    Node.propertiesAt_of_childless .bare rfl]
  by_cases top : place = []
  · rw [if_pos top, if_pos top, Option.some_or]
    rfl
  · rw [if_neg top, if_neg top, Option.none_or]

theorem propertiesAt_descendant (config : Configuration) (path : String) :
    ((Tree.root (some config.contentRoot)).descendant path).state.map Node.properties =
      config.contentRoot.propertiesAt (Path.elements path) :=
  congrArg _ (Tree.state_descendant _ path)

/-- A place is there exactly if it is the root or on the way to a listed path. -/
theorem present_descendant_iff (config : Configuration) (path : String) :
    ((Tree.root (some config.contentRoot)).descendant path).present = true ↔
      Path.elements path = [] ∨
        ∃ listed ∈ config.content, Path.elements path <+: Path.elements listed := by
  rw [Tree.present, ← Option.isSome_map (f := Node.properties), propertiesAt_descendant,
    propertiesAt_contentRoot]
  by_cases top : Path.elements path = []
  · simp [top]
  · rw [if_neg top, or_iff_right top]
    split <;> simp [*]

/-- All nodes but the root have a type and nothing else. -/
theorem properties_of_descendant (config : Configuration) {path : String} {node : Node}
    (found : ((Tree.root (some config.contentRoot)).descendant path).state = some node) :
    node.properties =
      if Path.elements path = [] then []
      else [(Node.primaryType, .single Node.primaryType (.name "nt:unstructured"))] := by
  have properties := config.propertiesAt_descendant path
  rw [found, propertiesAt_contentRoot] at properties
  by_cases top : Path.elements path = []
  · rw [if_pos top] at properties ⊢
    exact Option.some.inj properties
  · rw [if_neg top] at properties ⊢
    split at properties
    · exact Option.some.inj properties
    · cases properties

/-- Listing the same paths in another way makes the same content. -/
theorem contentRoot_congr {config other : Configuration}
    (same : ∀ path, path ∈ other.content ↔ path ∈ config.content) :
    other.contentRoot = config.contentRoot := by
  refine Node.Ordered.ext (Node.built_ofContent _).ordered (Node.built_ofContent _).ordered ?_
  intro place
  have renamed := other.propertiesAt_contentRoot place
  simp only [same] at renamed
  exact renamed.trans (config.propertiesAt_contentRoot place).symm

/-- **The configured content is exactly what is listed.** There is a node at a place if and only if
the place is the root or on the way to a listed path. The root has no properties, and every other
node has its primary type alone. The order of the paths makes no difference, nor does repetition. -/
theorem content_exact (config : Configuration) :
    let root := Tree.root (some config.contentRoot)
    (∀ path, (root.descendant path).present = true ↔
      Path.elements path = [] ∨
        ∃ listed ∈ config.content, Path.elements path <+: Path.elements listed) ∧
    (∀ path node, (root.descendant path).state = some node → node.properties =
      if Path.elements path = [] then []
      else [(Node.primaryType, .single Node.primaryType (.name "nt:unstructured"))]) ∧
    ∀ content, (∀ path, path ∈ content ↔ path ∈ config.content) →
      ({ config with content } : Configuration).contentRoot = config.contentRoot :=
  ⟨config.present_descendant_iff, fun _ _ found => config.properties_of_descendant found,
    fun _ same => contentRoot_congr same⟩

/-- Places are there however the paths that lead to them are spelled and repeated. -/
example :
    let config : Configuration := { content := ["/a//b/", "/a", "a/b"] }
    let root := Tree.root (some config.contentRoot)
    (root.descendant "/a/b").present = true ∧ (root.descendant "/b").present = false ∧
      (root.descendant "/a").state.properties.map Property.name = [Node.primaryType] := by
  decide +kernel

end Configuration

end Authorization
