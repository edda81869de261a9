import Authorization.Proofs.Restriction.Storage

/-!
# Patterns of restrictions that have been read

If several sources define a name, a restriction is read for each of their definitions. But all of
them hold the property that is stored under the name, so it makes no difference which one is found
first (`Joins.find?_read`). A provider that finds its pattern by a name of its own therefore has
the same pattern for the entry and for what has been read from it, whoever read it
(`pattern_of_read`).
-/

namespace Authorization

namespace RestrictionService.Joins

variable {service : RestrictionService} {sources : List RestrictionSource}
  {source : RestrictionSource} {path : Option String} {store : RestrictionStore} {key : String}

/-- Of the restrictions that are read under a name, the first one holds what is stored there. -/
theorem find?_read (joins : service.Joins sources) (member : source ∈ sources)
    (defined : (source.catalogue.definition? key).isSome) (place : String) :
    ((service.read (some place) store).find? fun restriction => restriction.name == key).map
      Restriction.property = store.find? key := by
  cases first : (service.read (some place) store).find?
      fun restriction => restriction.name == key with
  | some restriction =>
      have named : restriction.name = key := by simpa using List.find?_some first
      have held := (joins.mem_read_iff.mp (List.mem_of_find?_eq_some first)).2
      rw [named] at held
      exact held.symm
  | none =>
      refine (Option.eq_none_iff_forall_ne_some.mpr fun property found => ?_).symm
      obtain ⟨definition, known⟩ := Option.isSome_iff_exists.mp defined
      have named : definition.name = key := RestrictionCatalogue.name_of_definition? known
      subst named
      have supported : definition ∈ service.supported (some place) :=
        joins.mem_supported_iff.mpr ⟨source, member, known⟩
      have read : ⟨definition, property⟩ ∈ service.read (some place) store :=
        joins.mem_read_iff.mpr ⟨supported, found⟩
      exact List.find?_eq_none.mp first _ read (beq_self_eq_true _)

/-- A source that finds its pattern by one of its names, and has none for the repository as a
whole, finds the same in what a service with other sources has read. -/
theorem patternFor_read_ofCatalogue (joins : service.Joins sources) {name : String}
    {definitions : List RestrictionDefinition}
    {check : Option String → RestrictionStore → Except AuthorizationError Unit}
    {pattern : Option String → Option Property → RestrictionPattern}
    {normal : ∀ path property, (pattern path property).IsNormal}
    (member : .ofCatalogue name definitions check key pattern normal ∈ sources)
    (defined : ((RestrictionCatalogue.ofList definitions).definition? key).isSome)
    (unplaced : ∀ property, pattern none property = .all) :
    let own := (RestrictionSource.ofCatalogue name definitions check key pattern normal).service
    own.patternFor path (service.read path store) = own.pattern path store := by
  cases path with
  | none => exact (unplaced _).trans (unplaced _).symm
  | some place => exact congrArg (pattern (some place)) (joins.find?_read member defined place)

end RestrictionService.Joins

/-- Sources that restrict entries to globs or item names, or that have definitions but never
restrict an entry. -/
inductive RestrictionSource.IsOrdinary : RestrictionSource → Prop
  | glob : IsOrdinary .glob
  | itemNames (enclosing : Option (Option String → OrderedSet RestrictionDefinition)) :
      IsOrdinary (.itemNames enclosing)
  | silent {source : RestrictionSource}
      (pattern : ∀ path store, source.service.pattern path store = .all)
      (patternFor : ∀ path restrictions, source.service.patternFor path restrictions = .all) :
      IsOrdinary source

/-- What an ordinary source makes of all that is read is what it makes of the entry. -/
theorem RestrictionSource.IsOrdinary.patternFor_read {source : RestrictionSource}
    (ordinary : source.IsOrdinary) {service : RestrictionService}
    {sources : List RestrictionSource} (joins : service.Joins sources)
    (member : source ∈ sources) (path : Option String) (store : RestrictionStore) :
    source.service.patternFor path (service.read path store) =
      source.service.pattern path store := by
  cases ordinary with
  | glob => exact joins.patternFor_read_ofCatalogue member rfl fun _ => rfl
  | itemNames enclosing => exact joins.patternFor_read_ofCatalogue member rfl fun _ => rfl
  | silent pattern patternFor => rw [pattern, patternFor]

namespace RestrictionArrangement

/-- **Restrictions restrict as stored and as read.** An arrangement of ordinary sources has the same
pattern for an entry and for the restrictions that it reads from it, be the entry valid or not, and
whatever other sources define the same names. -/
theorem pattern_of_read (arrangement : RestrictionArrangement RestrictionSource)
    (ordinary : ∀ source ∈ arrangement.leaves, source.IsOrdinary)
    (path : Option String) (store : RestrictionStore) :
    let service := arrangement.service RestrictionSource.service
    service.patternFor path (service.read path store) = service.pattern path store := by
  have joins := arrangement.joins_leaves
  dsimp only
  rw [joins.patternFor, joins.pattern]
  exact congrArg RestrictionPattern.combine <| List.map_congr_left fun source member =>
    (ordinary source member).patternFor_read joins member path store

/-- A glob that is read twice, once as a number, restricts like the stored one: to what lies below
the entry, nodes and properties alike. -/
theorem disputed_glob_restricts :
    let arrangement : RestrictionArrangement RestrictionSource :=
      .composite 1 [.leaf (labels "rep:glob" .long), .composite 0 [.leaf .glob, .leaf .empty],
        .leaf (.itemNames none)]
    let service := arrangement.service RestrictionSource.service
    let store : RestrictionStore := [("rep:glob", ⟨"rep:glob", [.string "/*"], false⟩)]
    let pattern := service.patternFor (some "/docs") (service.read (some "/docs") store)
    (∀ source ∈ arrangement.leaves, source.IsOrdinary) ∧
      (service.read (some "/docs") store).length = 2 ∧
      pattern = service.pattern (some "/docs") store ∧
      pattern.matchesNode "/docs/draft" = true ∧ pattern.matchesNode "/docs" = false ∧
      pattern.matchesProperty "/docs" "title" = true ∧
      pattern.matchesProperty "/notes" "title" = false ∧ pattern.matchesRepository = false := by
  intro arrangement service store pattern
  have ordinary : ∀ source ∈ arrangement.leaves, source.IsOrdinary := by
    change ∀ source ∈ [labels "rep:glob" .long, .glob, .empty, .itemNames none], source.IsOrdinary
    simp only [List.forall_mem_cons]
    exact ⟨.silent (fun _ _ => rfl) fun _ _ => rfl, .glob,
      .silent (fun _ _ => rfl) fun _ _ => rfl, .itemNames none, List.forall_mem_nil _⟩
  have same : pattern = service.pattern (some "/docs") store :=
    pattern_of_read arrangement ordinary (some "/docs") store
  refine ⟨ordinary, rfl, same, ?_⟩
  rw [same]
  exact ⟨rfl, rfl, rfl, rfl, rfl⟩

end RestrictionArrangement

end Authorization
