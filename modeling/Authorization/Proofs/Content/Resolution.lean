import Authorization.Proofs.Content.Building

/-!
# What paths denote

A canonical path denotes the node that its elements lead to, else the property of its last name on
the node that the others lead to, else nothing (`Node.Denotes`). Looking it up finds just that,
though nodes are found name by name, properties by cutting the path's text at its last slash, and
their places are written anew (`resolve_iff_denotes`).
-/

namespace Authorization

namespace Node

/-- Going down names from a node, each in turn that of a child, ends at a node. -/
inductive Leads : Node → List String → Node → Prop
  | here (node : Node) : Leads node [] node
  | step {node child target : Node} {name : String} {names : List String}
      (stored : (name, child) ∈ node.children) (leads : Leads child names target) :
      Leads node (name :: names) target

/-- What the names along a canonical path denote below a root. A node goes before a property of the
same name. -/
inductive Denotes (root : Node) (names : List String) : Location → Prop
  | node {target : Node} (leads : root.Leads names target) :
      Denotes root names (.node ⟨Path.ofElements names, some target⟩)
  | property {above : List String} {parent : Node} {property : Property}
      (split : names = above ++ [property.name]) (absent : ∀ target, ¬root.Leads names target)
      (leads : root.Leads above parent) (stored : property ∈ parent.properties.values) :
      Denotes root names (.property ⟨Path.ofElements above, some parent⟩ property)
  | nothing (absent : ∀ target, ¬root.Leads names target)
      (bare : ∀ above parent property, names = above ++ [property.name] →
        root.Leads above parent → property ∉ parent.properties.values) :
      Denotes root names (.nothing (Path.ofElements names))

variable {root node : Node} {names : List String}

/-- A node in order has one child with a name, and it is the one found. -/
theorem Ordered.mem_children_iff (ordered : node.Ordered) {name : String} {child : Node} :
    (name, child) ∈ node.children ↔ node.children.find? name = some child := by
  obtain ⟨-, -, ascending, -⟩ := ordered
  exact Dictionary.mem_iff_find? ascending

/-- Properties are found under their own names. -/
theorem Ordered.find?_properties_iff (ordered : node.Ordered) {name : String}
    {property : Property} :
    node.properties.find? name = some property ↔
      property ∈ node.properties.values ∧ property.name = name := by
  obtain ⟨sorted, named, -, -⟩ := ordered
  constructor
  · intro found
    have member := Dictionary.mem_of_find? found
    exact ⟨List.mem_map.mpr ⟨_, member, rfl⟩, named _ member⟩
  · rintro ⟨member, rfl⟩
    obtain ⟨⟨key, value⟩, stored, rfl⟩ := List.mem_map.mp member
    rw [named _ stored]
    exact Dictionary.find?_of_mem sorted stored

/-- Names lead to a node exactly if it is what is found below them. -/
theorem Ordered.leads_iff (ordered : root.Ordered) {target : Node} :
    root.Leads names target ↔ NodeState.below (some root) names = some target := by
  induction names generalizing root with
  | nil =>
      constructor
      · rintro ⟨⟩
        rfl
      · intro found
        obtain rfl := Option.some.inj found
        exact .here root
  | cons name names ih =>
      rw [NodeState.below_cons, NodeState.child, Option.bind_some]
      constructor
      · rintro (_ | ⟨stored, leads⟩)
        have found := ordered.mem_children_iff.mp stored
        rw [found]
        exact (ih (ordered.child found)).mp leads
      · intro reached
        cases found : root.children.find? name with
        | none =>
            rw [found, NodeState.below_none] at reached
            cases reached
        | some child =>
            rw [found] at reached
            exact .step (ordered.mem_children_iff.mpr found)
              ((ih (ordered.child found)).mpr reached)

/-- Nothing is found below names exactly if they lead nowhere. -/
theorem Ordered.below_eq_none_iff (ordered : root.Ordered) :
    NodeState.below (some root) names = none ↔ ∀ target, ¬root.Leads names target := by
  simp only [ordered.leads_iff, Option.eq_none_iff_forall_ne_some, ne_eq]

theorem Ordered.leads (ordered : root.Ordered) {target : Node} (leads : root.Leads names target) :
    target.Ordered := by
  induction leads with
  | here => exact ordered
  | step stored leads ih => exact ih (ordered.child (ordered.mem_children_iff.mp stored))

/-- Names lead to one node at most. -/
theorem Ordered.leads_unique (ordered : root.Ordered) {first second : Node}
    (leads : root.Leads names first) (again : root.Leads names second) : first = second :=
  Option.some.inj ((ordered.leads_iff.mp leads).symm.trans (ordered.leads_iff.mp again))

/-- Names denote one thing at most. -/
theorem Ordered.denotes_unique (ordered : root.Ordered) {first second : Location}
    (denotes : root.Denotes names first) (again : root.Denotes names second) : first = second := by
  cases denotes with
  | node leads =>
      cases again with
      | node further => rw [ordered.leads_unique leads further]
      | property _ absent | nothing absent => exact absurd leads (absent _)
  | property split absent leads stored =>
      cases again with
      | node further => exact absurd further (absent _)
      | property alike _ further kept =>
          obtain ⟨rfl, same⟩ := List.append_singleton_inj.mp (split.symm.trans alike)
          obtain rfl := ordered.leads_unique leads further
          have inner := ordered.leads leads
          have found := inner.find?_properties_iff.mpr ⟨stored, same⟩
          have counterpart := inner.find?_properties_iff.mpr ⟨kept, rfl⟩
          rw [Option.some.inj (found.symm.trans counterpart)]
      | nothing _ bare => exact absurd stored (bare _ _ _ split leads)
  | nothing absent bare =>
      cases again with
      | node further => exact absurd further (absent _)
      | property split _ leads stored => exact absurd stored (bare _ _ _ split leads)
      | nothing => rfl

section Resolve

variable (named : ∀ name ∈ names, Path.IsName name)

include named

theorem descendant_ofElements (root : Node) :
    (Tree.root (some root)).descendant (Path.ofElements names) =
      ⟨Path.ofElements names, NodeState.below (some root) names⟩ := by
  rw [Tree.descendant_root, Path.canonical, Path.elements_ofElements named]

theorem resolve_of_present {target : Node}
    (found : NodeState.below (some root) names = some target) :
    Location.resolve (.root (some root)) (Path.ofElements names) =
      .node ⟨Path.ofElements names, some target⟩ := by
  rw [Location.resolve, descendant_ofElements named, found]
  rfl

/-- Without a node, the location of a path is that of a property named by its last element, if the
parent has one. -/
theorem resolve_of_absent {name : String} (last : Path.IsName name)
    (missing : NodeState.below (some root) (names ++ [name]) = none) :
    Location.resolve (.root (some root)) (Path.ofElements (names ++ [name])) =
      match (NodeState.below (some root) names).property? name with
      | some property =>
        .property ⟨Path.ofElements names, NodeState.below (some root) names⟩ property
      | none => .nothing (Path.ofElements (names ++ [name])) := by
  have whole := Path.isName_append_singleton named last
  simp only [Location.resolve, descendant_ofElements whole, missing,
    Path.parent?_ofElements named last, Path.name_ofElements last, Option.bind_some,
    descendant_ofElements named, Tree.property?]
  cases (NodeState.below (some root) names).property? name <;> rfl

end Resolve

/-- Where no node is, a property of the node above is denoted, or nothing. -/
theorem Ordered.denotes_of_absent (ordered : root.Ordered) {name : String}
    (absent : ∀ target, ¬root.Leads (names ++ [name]) target) :
    root.Denotes (names ++ [name])
      (match (NodeState.below (some root) names).property? name with
      | some property =>
        .property ⟨Path.ofElements names, NodeState.below (some root) names⟩ property
      | none => .nothing (Path.ofElements (names ++ [name]))) := by
  cases holder : NodeState.below (some root) names with
  | none =>
      refine .nothing absent fun above parent property split leads => ?_
      obtain ⟨rfl, -⟩ := List.append_singleton_inj.mp split
      exact absurd leads (ordered.below_eq_none_iff.mp holder parent)
  | some parent =>
      have leads := ordered.leads_iff.mpr holder
      have inner := ordered.leads leads
      simp only [NodeState.property?, Option.bind_some]
      cases found : parent.properties.find? name with
      | none =>
          refine .nothing absent fun above other property split further stored => ?_
          obtain ⟨rfl, same⟩ := List.append_singleton_inj.mp split
          obtain rfl := ordered.leads_unique leads further
          rw [inner.find?_properties_iff.mpr ⟨stored, same.symm⟩] at found
          cases found
      | some property =>
          obtain ⟨stored, rfl⟩ := inner.find?_properties_iff.mp found
          exact .property rfl absent leads stored

/-- What is found at canonical names is what they denote. -/
theorem Ordered.denotes_resolve (ordered : root.Ordered)
    (named : ∀ name ∈ names, Path.IsName name) :
    root.Denotes names (Location.resolve (.root (some root)) (Path.ofElements names)) := by
  cases found : NodeState.below (some root) names with
  | some target =>
      rw [resolve_of_present named found]
      exact .node (ordered.leads_iff.mpr found)
  | none =>
      have absent := ordered.below_eq_none_iff.mp found
      obtain rfl | ⟨above, name, rfl⟩ := List.eq_nil_or_concat names
      · cases found
      · rw [List.concat_eq_append] at named found absent ⊢
        obtain ⟨upper, last⟩ := List.forall_mem_append.mp named
        rw [resolve_of_absent upper (List.forall_mem_singleton.mp last) found]
        exact ordered.denotes_of_absent absent

/-- What canonical names denote is at their path, and its node too, but for a property: the node of
that is at the parent path. -/
theorem Denotes.path_eq {location : Location} (denotes : root.Denotes names location)
    (named : ∀ name ∈ names, Path.IsName name) :
    location.path = Path.ofElements names ∧
      if location.property?.isSome then
        Path.parent? (Path.ofElements names) = some location.nodePath
      else location.nodePath = Path.ofElements names := by
  cases denotes with
  | node | nothing => exact ⟨rfl, rfl⟩
  | @property above parent property split =>
      rw [split] at named ⊢
      obtain ⟨upper, last⟩ := List.forall_mem_append.mp named
      have last := List.forall_mem_singleton.mp last
      exact ⟨Path.concat_ofElements upper last, Path.parent?_ofElements upper last⟩

end Node

/-- **A path is resolved to what it denotes.** Below any built root a canonical path is resolved to
the node that its elements lead to, child by child; if there is none, to the property of its last
name on the node that the others lead to; and else to nothing. What is found is at the path asked
for, and its node there too, or at the parent path for a property. -/
theorem Location.resolve_iff_denotes {root : Node} (built : root.Built) {path : String}
    (canonical : Path.IsCanonical path) :
    let found := resolve (.root (some root)) path
    (∀ location, found = location ↔ root.Denotes (Path.elements path) location) ∧
      found.path = path ∧
      if found.property?.isSome then Path.parent? path = some found.nodePath
      else found.nodePath = path := by
  intro found
  obtain ⟨names, named, rfl⟩ := canonical
  rw [Path.elements_ofElements named]
  have denotes : root.Denotes names found := built.ordered.denotes_resolve named
  refine ⟨fun location => ⟨?_, built.ordered.denotes_unique denotes⟩, denotes.path_eq named⟩
  rintro rfl
  exact denotes

/-- A node shadows the property of its name beside it, and a property is found where there is no
node. -/
theorem Location.title_found_beside_shadowed_draft :
    let title : Property := .single "title" (.string "Notes")
    let draft : Property := .single "draft" (.boolean true)
    let root := Node.ofContent [⟨"/docs/draft", []⟩, ⟨"/docs", [title, draft]⟩]
    let node := resolve (.root (some root)) "/docs/draft"
    let property := resolve (.root (some root)) "/docs/title"
    (root.Denotes (Path.elements "/docs/draft") node ∧ node.isPresent = true ∧
        node.property? = none ∧ node.nodePath = "/docs/draft") ∧
      root.Denotes (Path.elements "/docs/title") property ∧ property.property? = some title ∧
        Path.parent? "/docs/title" = some property.nodePath := by
  intro title draft root node property
  have built : root.Built := Node.built_ofContent _
  have draftPath : Path.IsCanonical "/docs/draft" := ⟨["docs", "draft"], by decide, by decide⟩
  have titlePath : Path.IsCanonical "/docs/title" := ⟨["docs", "title"], by decide, by decide⟩
  obtain ⟨shadows, -, here⟩ := resolve_iff_denotes built draftPath
  obtain ⟨found, -, above⟩ := resolve_iff_denotes built titlePath
  have none : node.property? = none := by decide +kernel
  have some : property.property? = some title := by decide +kernel
  rw [if_neg (by rw [none]; decide)] at here
  rw [if_pos (by rw [some]; rfl)] at above
  exact ⟨⟨(shadows _).mp rfl, by decide +kernel, none, here⟩, (found _).mp rfl, some, above⟩

end Authorization
