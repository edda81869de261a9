import Mathlib.Data.List.Sort
import Authorization.Proofs.Path.Canonical

/-!
# Built content

Content is built from a bare node by going to places, which creates what is missing on the way, and
setting properties there (`Node.Built`). What has been built is in order: properties and children
ascend by name, and every property is stored under its own (`Node.Built.ordered`). Nodes in order
are determined by the properties at each place below them (`Node.Ordered.ext`).
-/

namespace Authorization

namespace Dictionary

variable {β : Type} {entries others : Dictionary β} {key : String} {value : β}

theorem mem_iff_find? (sorted : entries.Sorted) :
    (key, value) ∈ entries ↔ entries.find? key = some value :=
  ⟨find?_of_mem sorted, mem_of_find?⟩

theorem mem_insert {entry : String × β} (member : entry ∈ entries.insert key value) :
    entry = (key, value) ∨ entry ∈ entries := by
  induction entries with
  | nil => exact .inl (List.mem_singleton.mp member)
  | cons first rest ih =>
      rw [insert] at member
      split at member
      · exact (List.mem_cons.mp member).imp id (List.mem_cons_of_mem first)
      · split at member
        · exact List.mem_cons.mp member
        · rcases List.mem_cons.mp member with rfl | later
          · exact .inr List.mem_cons_self
          · exact (ih later).imp id (List.mem_cons_of_mem first)

/-- Ordered dictionaries in which the same is found are equal. -/
theorem Sorted.ext (sorted : entries.Sorted) (ordered : others.Sorted)
    (same : ∀ key, entries.find? key = others.find? key) : entries = others := by
  refine List.Pairwise.eq_of_mem_iff sorted ordered fun ⟨key, value⟩ => ?_
  rw [mem_iff_find? sorted, mem_iff_find? ordered, same]

end Dictionary

namespace NodeState

/-- What is found by going down names. -/
def below (state : NodeState) (names : List String) : NodeState := names.foldl child state

theorem below_cons (state : NodeState) (name : String) (names : List String) :
    state.below (name :: names) = (state.child name).below names := rfl

theorem below_none (names : List String) : below none names = none := by
  induction names with
  | nil => rfl
  | cons name names ih => exact ih

end NodeState

/-- The state at a path is the one below its elements. -/
theorem Tree.state_descendant (tree : Tree) (path : String) :
    (tree.descendant path).state = tree.state.below (Path.elements path) := by
  rw [descendant]
  induction Path.elements path generalizing tree with
  | nil => rfl
  | cons name names ih => exact ih (tree.child name)

/-- The tree at a path from the root is named by the usual spelling of the path. -/
theorem Tree.descendant_root (state : NodeState) (path : String) :
    (root state).descendant path = ⟨Path.canonical path, state.below (Path.elements path)⟩ := by
  rw [← path_descendant_root state path]
  exact congrArg (Tree.mk _) (state_descendant (root state) path)

namespace Node

/-- The nodes that are built from a bare one, by going down some names and setting properties on the
node there, any number of times. -/
inductive Built : Node → Prop
  | bare : Built bare
  | modified {node : Node} (built : Built node) (names : List String)
      (properties : List Property) :
      Built (node.modifyAt (fun target => properties.foldl setProperty target) names)

/-- Nodes whose properties and children ascend by name, with every property stored under its own
name, here and everywhere below. -/
inductive Ordered : Node → Prop
  | mk {properties : Dictionary Property} {children : Dictionary Node}
      (sorted : properties.Sorted) (named : ∀ entry ∈ properties, entry.2.name = entry.1)
      (ascending : children.Sorted) (within : ∀ entry ∈ children, Ordered entry.2) :
      Ordered (.mk properties children)

variable {node : Node}

theorem ordered_bare : Ordered bare :=
  .mk .nil (fun _ member => absurd member List.not_mem_nil) .nil
    fun _ member => absurd member List.not_mem_nil

theorem Ordered.setProperty (ordered : node.Ordered) (property : Property) :
    (node.setProperty property).Ordered := by
  obtain ⟨sorted, named, ascending, within⟩ := ordered
  refine .mk (Dictionary.sorted_insert sorted _ _) (fun entry member => ?_) ascending within
  rcases Dictionary.mem_insert member with rfl | old
  · rfl
  · exact named entry old

theorem Ordered.setChild (ordered : node.Ordered) (name : String) {child : Node}
    (inner : child.Ordered) : (node.setChild name child).Ordered := by
  obtain ⟨sorted, named, ascending, within⟩ := ordered
  refine .mk sorted named (Dictionary.sorted_insert ascending _ _) fun entry member => ?_
  rcases Dictionary.mem_insert member with rfl | old
  · exact inner
  · exact within entry old

theorem ordered_fresh : Ordered fresh :=
  ordered_bare.setProperty (.single primaryType (.name "nt:unstructured"))

theorem Ordered.child (ordered : node.Ordered) {name : String} {child : Node}
    (found : node.children.find? name = some child) : child.Ordered := by
  obtain ⟨-, -, -, within⟩ := ordered
  exact within _ (Dictionary.mem_of_find? found)

/-- A change that keeps children in order does so at whatever place it is made. -/
theorem Ordered.modifyAt {change : Node → Node}
    (changed : ∀ target : Node, target.Ordered → (change target).Ordered)
    (ordered : node.Ordered) (names : List String) : (node.modifyAt change names).Ordered := by
  induction names generalizing node with
  | nil => exact changed node ordered
  | cons name names ih =>
      refine ordered.setChild name (ih ?_)
      cases found : node.children.find? name with
      | none => exact ordered_fresh
      | some child => exact ordered.child found

theorem Built.ordered (built : node.Built) : node.Ordered := by
  induction built with
  | bare => exact ordered_bare
  | modified built names properties ih =>
      refine ih.modifyAt (fun target ordered => ?_) names
      exact List.foldlRecOn properties setProperty ordered
        fun _ inner property _ => inner.setProperty property

/-- The node that content describes is built from that content. -/
theorem built_ofContent (items : List ContentItem) : (ofContent items).Built :=
  List.foldlRecOn items add .bare fun _ built item _ =>
    built.modified (Path.elements item.path) item.properties

/-- The properties of the node that names lead to, if there is one. -/
def propertiesAt (node : Node) (names : List String) : Option (Dictionary Property) :=
  (NodeState.below (some node) names).map properties

theorem propertiesAt_cons (node : Node) (name : String) (names : List String) :
    node.propertiesAt (name :: names) =
      (node.children.find? name).bind fun child => child.propertiesAt names := by
  rw [propertiesAt, NodeState.below_cons, NodeState.child, Option.bind_some]
  cases node.children.find? name with
  | none => rw [NodeState.below_none]; rfl
  | some child => rfl

/-- Nodes in order with the same properties at all places below are equal. -/
theorem Ordered.ext {other : Node} (ordered : node.Ordered) (further : other.Ordered)
    (same : ∀ names, node.propertiesAt names = other.propertiesAt names) : node = other := by
  induction ordered generalizing other with
  | @mk properties children sorted named ascending within ih =>
      cases further with
      | @mk _ others _ _ ordered inner =>
          obtain rfl := Option.some.inj (same [])
          refine congrArg (Node.mk properties) (ascending.ext ordered fun name => ?_)
          have below (names : List String) := same (name :: names)
          simp only [propertiesAt_cons, Node.children] at below
          cases found : children.find? name with
          | none =>
              cases there : others.find? name with
              | none => rfl
              | some counterpart => simpa [found, there, propertiesAt, NodeState.below] using below []
          | some child =>
              cases there : others.find? name with
              | none => simpa [found, there, propertiesAt, NodeState.below] using below []
              | some counterpart =>
                  rw [found, there] at below
                  refine congrArg some (ih _ (Dictionary.mem_of_find? found) ?_ below)
                  exact inner _ (Dictionary.mem_of_find? there)

end Node

end Authorization
