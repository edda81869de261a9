import Authorization.Proofs.Content.Special
import Authorization.Proofs.Decision.Walk

/-!
# Types of decided places

A combined decision carries its place and the type of that, from which the types of the children are
found. By induction over a walk, the type carried is one found from the root downwards in the way of
the composite (`Walked.located`), whatever the providers decide. With the standard types of a
context it is therefore the type that the names on the path decide on (`typed_by_first_special`).
-/

namespace Authorization

/-- The names that lead to a place give it one type. -/
theorem TreeType.Typed.unique {recognised : String → Bool} {names : List String}
    {type other : TreeType} (typed : Typed recognised names type)
    (again : Typed recognised names other) : type = other := by
  rcases ordinary_or_firstSpecial names with ordinary | ⟨kind, first⟩
  · rw [typed.ordinary ordinary, again.ordinary ordinary]
  · rw [typed.special kind first, again.special kind first]

namespace Site

/-- What a combined decision carries about the place that names lead to: the path, the way to find
types, and a type found in this way. -/
structure Located (site : Site) (classify : Classifier) (names : List String) : Prop where
  way : site.classify = classify
  here : site.tree.path = Path.ofElements names
  found : TreeType.Found (· = classify) (fun _ => True) names site.type

variable {site other : Site} {classify : Classifier} {names : List String} {name : String}

/-- The site of a child is located where the name leads from its parent's. -/
theorem Located.child (located : site.Located classify names) (last : Path.IsName name)
    {tree : Tree} (here : tree.path = Path.ofElements (names ++ [name])) :
    Located { site with tree, type := site.classify tree site.type, memo := {} } classify
      (names ++ [name]) where
  way := located.way
  here := here
  found := located.found.step last located.way trivial here

theorem Located.of_forget (located : site.Located classify names)
    (same : other.forget = site.forget) : other.Located classify names := by
  obtain ⟨trees, types, classifiers, -, -⟩ := Site.mk.inj same
  exact ⟨classifiers.trans located.way, (congrArg Tree.path trees).trans located.here,
    types ▸ located.found⟩

/-- Parts are combined at the site given, if at all. -/
theorem eq_of_combine {L D : Type} {parts others : List (Arrangement L × TreePermission L D)}
    (combined : site.combine parts = .combined other others) : other = site := by
  unfold combine at combined
  split at combined
  · cases combined
  · cases combined
    rfl

end Site

namespace World

variable {world : World} {combination : Combination} {members : List (Arrangement PolicyLeaf)}
  {names : List String} {permission : TreePermission PolicyLeaf PolicyDecision}

/-- Decisions reached by walking are located where the walk has come to. -/
theorem Walked.located (walked : Walked world combination members names permission) {site : Site}
    {parts : List (Arrangement PolicyLeaf × TreePermission PolicyLeaf PolicyDecision)}
    (combined : permission = .combined site parts) :
    site.Located combination.classify names := by
  induction walked generalizing site parts with
  | @root tree top parent =>
      replace combined := (derive_root top parent .default).symm.trans combined
      cases members with
      | nil => cases combined
      | cons member members =>
          rw [decideRoot_composite] at combined
          cases combined
          exact ⟨rfl, rfl, .root⟩
  | @step names name permission walked tree here ih =>
      have last : Path.IsName name := (walked.step here).isName name (by simp)
      have below : Path.elements tree.path ≠ [] := by simp [here]
      cases permission with
      | node permission =>
          cases (derive_node_composite below permission .default).symm.trans combined
      | combined above others =>
          have made := (derive_combined_composite below above others .default).symm.trans combined
          rw [Site.eq_of_combine made]
          exact (ih rfl).child last (by rw [path_place, here])
  | @child names name permission walked last state ih =>
      cases permission with
      | node permission => cases combined
      | combined above others =>
          have made := (child_combined above others name state).symm.trans combined
          have located := ih rfl
          rw [Site.eq_of_combine made]
          exact located.child last (by rw [located.here, Path.concat_ofElements walked.isName last])
  | recalled walked same truthful ih =>
      rw [combined] at same
      obtain ⟨remembered, others, rfl, sites, -⟩ := TreePermission.eq_combined_of_forget same.symm
      exact (ih rfl).of_forget sites.symm

/-- **Types of places.** The type found by descending to a place from the root is that of the first
special name on the path; where none is special, it says whether the context defines the tree there
as access control content. Combined decisions of a composite that finds types in this way carry just
this type, when they are reached by walking to the place. This holds of every context that goes by
names, such as the plain one and that of access control. -/
theorem typed_by_first_special (recognised : String → Bool) (state : NodeState) (path : String) :
    let context := Context.ofNames recognised
    let names := Path.elements path
    let place := (Tree.root state).descendant path
    let type := context.classify.typeAt (.root state) path
    (∀ special, TreeType.FirstSpecial names special → type = special) ∧
    ((∀ special, ¬TreeType.FirstSpecial names special) →
      type = if context.definesTree place then .accessControl else .default) ∧
    ∀ (world : World) (combination : Combination) (members : List (Arrangement PolicyLeaf))
      (site : Site)
      (parts : List (Arrangement PolicyLeaf × TreePermission PolicyLeaf PolicyDecision)),
      combination.classify = context.classify →
        Walked world combination members names (.combined site parts) → site.type = type := by
  intro context names place type
  have typed : TreeType.Typed recognised names type :=
    (context.classify.found_typeAt state path).typed
  refine ⟨typed.special, fun none => ?_, ?_⟩
  · have ordinary := (TreeType.ordinary_or_firstSpecial names).resolve_right
      fun ⟨special, first⟩ => none special first
    have here : place.path = Path.ofElements names := Tree.path_descendant_root _ _
    rw [typed.ordinary ordinary, Context.definesTree_ofNames, here]
  · intro world combination members site parts standard walked
    have found := (walked.located rfl).found
    rw [standard] at found
    exact found.typed.unique typed

/-- Below the system node a store of versions decides before the hidden name under it, and the
decision reached by walking there carries its type; below a policy node the name of such a store
decides nothing. -/
theorem versions_typed_below_system :
    let world := World.initial none fun _ => ({ covers := .read } : Policy).allow "/" .read
    let combination := Combination.plain 0 .or
    let members : List (Arrangement PolicyLeaf) := [.leaf (.plain 0)]
    TreeType.FirstSpecial ["jcr:system", "jcr:activities", ":x"] .version ∧
      (∃ site parts, Walked world combination members ["jcr:system", "jcr:activities", ":x"]
        (.combined site parts) ∧ site.type = .version) ∧
      (∀ special, ¬TreeType.FirstSpecial ["rep:policy", "jcr:activities"] special) ∧
      Context.accessControl.classify.typeAt (.root none) "/rep:policy/jcr:activities" =
        .accessControl := by
  intro world combination members
  have system : TreeType.Ordinary ["jcr:system"] :=
    TreeType.ordinary_append_singleton.mpr ⟨TreeType.ordinary_nil, by decide⟩
  have first : TreeType.FirstSpecial ["jcr:system", "jcr:activities", ":x"] .version :=
    ⟨["jcr:system"], "jcr:activities", [":x"], rfl, system, by decide⟩
  have policy : TreeType.Ordinary ["rep:policy"] :=
    TreeType.ordinary_append_singleton.mpr ⟨TreeType.ordinary_nil, by decide⟩
  have ordinary : TreeType.Ordinary ["rep:policy", "jcr:activities"] :=
    TreeType.ordinary_append_singleton.mpr ⟨policy, by decide⟩
  obtain ⟨site, parts, walked⟩ : ∃ site parts, Walked world combination members
      ["jcr:system", "jcr:activities", ":x"] (.combined site parts) := by
    have top : Path.elements (Tree.root none).path = [] := Path.elements_root
    have start : Walked world combination members [] _ := .root top .empty
    have walked := ((start.child (by decide : Path.IsName "jcr:system") none).child
      (by decide : Path.IsName "jcr:activities") none).child (by decide : Path.IsName ":x") none
    obtain ⟨permission, reached, combined⟩ : ∃ permission, Walked world combination members
        ["jcr:system", "jcr:activities", ":x"] permission ∧ permission.isCombined = true :=
      ⟨_, walked, by decide⟩
    cases permission with
    | node => cases combined
    | combined site parts => exact ⟨site, parts, reached⟩
  obtain ⟨special, -, carried⟩ :=
    typed_by_first_special (fun _ => false) none "/jcr:system/jcr:activities/:x"
  obtain ⟨-, plain, -⟩ :=
    typed_by_first_special Context.policyNames.contains none "/rep:policy/jcr:activities"
  have passed (special : TreeType) :
      ¬TreeType.FirstSpecial ["rep:policy", "jcr:activities"] special :=
    fun first => first.not_ordinary ordinary
  refine ⟨first, ⟨site, parts, walked, ?_⟩, passed, plain passed⟩
  exact (carried world combination members site parts rfl walked).trans (special .version first)

end World

end Authorization
