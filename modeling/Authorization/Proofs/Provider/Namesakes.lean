import Authorization.Proofs.Content.Resolution
import Authorization.Proofs.Content.Special
import Authorization.Proofs.Provider.Spelling

/-!
# Namesakes of policy nodes

A node is access control content by its own path, and a property by that of the node that has it.
Actions at a path go by the whole path of the item, which for a property ends with its own name. The
two agree on every item that a path denotes, but for properties outside access control content that
have the name of a policy node (`defined_by_tree_or_name`).
-/

namespace Authorization

/-- Whether an item is access control content by its tree: a node by itself, and a property by the
node that has it. -/
def Context.definesByTree (context : Context) : Location → Bool
  | .node tree => context.definesTree tree
  | .property parent property => context.definesProperty parent property
  | .nothing path => context.definesLocation (.nothing path)

/-- Whether a location is a property with the name of a policy node. -/
def Location.isNamesake (location : Location) : Bool :=
  location.property?.any fun property => Context.policyNames.contains property.name

namespace Path

/-- No slash stands in the name of a path. -/
theorem slash_notMem_name (path : String) : '/' ∉ (name path).toList := by
  unfold name
  split
  · rename_i found
    rw [String.toList_ofList]
    exact (Text.eq_of_splitLast? found).2
  · rename_i missing
    intro member
    obtain ⟨before, after, found⟩ := Text.exists_splitLast? member
    rw [missing] at found
    cases found

end Path

/-- On a text without slashes, only the text itself can stand as the name of a policy node. -/
theorem Context.onPath_of_slash_notMem {name : String} (whole : '/' ∉ name.toList) :
    onPath policyNames.contains name = policyNames.contains name := by
  by_cases bare : name = ""
  · rw [bare]
    decide
  · rw [onPath, Path.elements_of_isName ⟨bare, whole⟩, List.any_cons, List.any_nil,
      Bool.or_false]

/-- Below built roots, properties are found under their own names. -/
theorem NodeState.name_of_property? {state : NodeState} (built : ∀ node ∈ state, node.Built)
    {names : List String} {key : String} {property : Property}
    (found : (state.below names).property? key = some property) : property.name = key := by
  obtain ⟨node, reached, stored⟩ := Option.bind_eq_some_iff.mp found
  cases state with
  | none =>
      rw [below_none] at reached
      cases reached
  | some root =>
      have ordered := (built root rfl).ordered
      exact ((ordered.leads (ordered.leads_iff.mpr reached)).find?_properties_iff.mp stored).2

namespace Location

/-- A path that denotes a property has a parent, and the property is found there under its name. -/
theorem parent_of_resolve {root parent : Tree} {path : String} {property : Property}
    (denoted : resolve root path = .property parent property) :
    ∃ above, Path.parent? path = some above ∧ parent = root.descendant above ∧
      parent.property? (Path.name path) = some property := by
  cases present : (root.descendant path).present with
  | true =>
      rw [resolve_present present] at denoted
      cases denoted
  | false =>
      cases found : Path.parent? path with
      | none =>
          rw [resolve, if_neg (by simp [present]), found] at denoted
          cases denoted
      | some above =>
          rw [resolve_absent present found] at denoted
          cases stored : (root.descendant above).property? (Path.name path) with
          | none =>
              rw [stored] at denoted
              cases denoted
          | some item =>
              rw [stored] at denoted
              cases denoted
              exact ⟨above, rfl, rfl, stored⟩

/-- A property that a path denotes has the name of the path. -/
theorem name_of_resolve {state : NodeState} (built : ∀ node ∈ state, node.Built) {path : String}
    {parent : Tree} {property : Property}
    (denoted : resolve (.root state) path = .property parent property) :
    property.name = Path.name path := by
  obtain ⟨above, -, rfl, stored⟩ := parent_of_resolve denoted
  rw [Tree.property?, Tree.state_descendant] at stored
  exact NodeState.name_of_property? built stored

end Location

/-- What a path denotes is access control content by its tree or as a namesake. -/
theorem Context.definesLocation_resolve {state : NodeState} (built : ∀ node ∈ state, node.Built)
    (path : String) :
    let location := Location.resolve (.root state) path
    accessControl.definesLocation location =
      (accessControl.definesByTree location || location.isNamesake) := by
  intro location
  cases denoted : location with
  | node tree => exact (Bool.or_false _).symm
  | nothing path => exact (Bool.or_false _).symm
  | property parent property =>
      have whole := Path.slash_notMem_name path
      rw [← Location.name_of_resolve built denoted] at whole
      rw [accessControl, definesLocation_ofNames, Location.path, onPath_concat,
        onPath_of_slash_notMem whole]
      rfl

namespace World

/-- **Access control content.** Where a path denotes a node, the item is access control content
exactly if the node is; where it denotes a property, exactly if the property is by its node, or has
the name of a policy node. A composite goes by this when it decides about actions at the path. -/
theorem defined_by_tree_or_name {state : NodeState} (built : ∀ node ∈ state, node.Built)
    (path : String) :
    let context := Context.accessControl
    let location := Location.resolve (.root state) path
    (∀ tree, location = .node tree →
      context.definesLocation location = context.definesTree tree) ∧
    (∀ parent property, location = .property parent property →
      context.definesLocation location = (context.definesProperty parent property ||
        Context.policyNames.contains property.name)) ∧
    ∀ (world : World) (combination : Combination) (members : List (Arrangement PolicyLeaf)),
      combination.context = context → world.roots combination.id = state → ∀ actions,
        let provider := (Arrangement.composite combination members).provider world.seen
        (provider.isGrantedPath path actions).run.run =
          (Permissions.ofActions actions location
            (context.definesByTree location || location.isNamesake)).map fun asked =>
              (provider.isGrantedAt location asked).run := by
  intro context location
  have defined : context.definesLocation location =
      (context.definesByTree location || location.isNamesake) :=
    Context.definesLocation_resolve built path
  refine ⟨fun tree denoted => ?_, fun parent property denoted => ?_, ?_⟩
  · rw [denoted] at defined ⊢
    rfl
  · rw [denoted] at defined ⊢
    exact defined
  · rintro world combination members same rfl actions provider
    rw [← defined, ← same]
    exact world.isGrantedPath_run combination members path actions

/-- The title of a policy node is access control content by the node, so that reading it asks to
read access control. -/
theorem title_of_policy_defined :
    let title : Property := .single "title" (.string "Readers")
    let content := Node.ofContent [⟨"/rep:policy", [title]⟩]
    let parent := (Tree.root (some content)).descendant "/rep:policy"
    let location := Location.resolve (.root (some content)) "/rep:policy/title"
    let world := World.initial content fun _ =>
      ({ covers := .readProperty } : Policy).allow "/" .readProperty
    let combination := { Combination.plain 0 .or with context := .accessControl }
    let provider := (Arrangement.composite combination [.leaf (.plain 0)]).provider world.seen
    content.Built ∧ location = .property parent title ∧
      Context.accessControl.definesLocation location = true ∧
      (provider.isGrantedPath "/rep:policy/title" "read").run.run = .ok false := by
  have built : (Node.ofContent [⟨"/rep:policy", [.single "title" (.string "Readers")]⟩]).Built :=
    Node.built_ofContent _
  obtain ⟨-, property, actions⟩ :=
    defined_by_tree_or_name (fun node here => Option.some.inj here ▸ built) "/rep:policy/title"
  refine ⟨built, rfl, (property _ _ rfl).trans (by decide), ?_⟩
  refine (actions _ { Combination.plain 0 .or with context := .accessControl } _ rfl rfl _).trans ?_
  rfl

/-- A property of a node outside access control content is taken for a policy because of its name:
to read it, it suffices that access control may be read. -/
theorem property_taken_for_policy :
    let item : Property := .single "rep:policy" (.string "x")
    let content := Node.ofContent [⟨"/a", [item]⟩]
    let parent := (Tree.root (some content)).descendant "/a"
    let location := Location.resolve (.root (some content)) "/a/rep:policy"
    let world := World.initial content fun _ =>
      ({ covers := .readProperty ∪ .readAccessControl } : Policy).allow "/" .readAccessControl
    let combination := { Combination.plain 0 .or with context := .accessControl }
    let provider := (Arrangement.composite combination [.leaf (.plain 0)]).provider world.seen
    location = .property parent item ∧
      Context.accessControl.definesLocation location = true ∧
      Context.accessControl.definesProperty parent item = false ∧
      (provider.isGrantedPath "/a/rep:policy" "read").run.run = .ok true ∧
      (provider.isGrantedAt location .readProperty).run = false :=
  ⟨rfl, by decide, by decide, rfl, by decide⟩

end World

end Authorization
