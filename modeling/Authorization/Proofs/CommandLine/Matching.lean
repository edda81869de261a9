import Authorization.CommandLine.Run
import Authorization.Proofs.Restriction.Enforcement

/-!
# Matching from the command line

The match command makes a restriction of every argument and stores them in order, so that the last
argument of each name decides (`find?_stored_glob`, `find?_stored_names`). It accepts arguments for
the two standard restrictions if the last glob can be read, and then it shows whether that glob and
the last names allow the item (`accepted_enforced`).
-/

namespace Authorization.CommandLine

/-- The value that an argument gives to a name, if it is an argument for that name. -/
def given? (name argument : String) : Option String :=
  (Text.dropStart? (name.toList ++ ['=']) argument.toList).map String.ofList

/-- The value that the last argument for a name gives to it. -/
def lastGiven? (name : String) (arguments : List String) : Option String :=
  (arguments.filterMap (given? name)).getLast?

/-- The names between commas in a text, without the blanks around them. -/
def listedNames (text : String) : List String :=
  ((Text.pieces ',' text).map Text.trim).filter (· ≠ "")

/-- The restriction that a text given for the glob stands for. -/
def globRestriction (text : String) : Restriction :=
  ⟨{ name := GlobRestriction.key, valueType := .string },
    ⟨GlobRestriction.key, [.string text], false⟩⟩

/-- The restriction that a text given for the item names stands for. -/
def namesRestriction (text : String) : Restriction :=
  ⟨ItemNamesRestriction.definition,
    ⟨ItemNamesRestriction.key, (listedNames text).map .name, true⟩⟩

/-- The restriction that the match command makes of an argument. -/
def made? (argument : String) : Option Restriction :=
  ((given? GlobRestriction.key argument).map globRestriction).or
    ((given? ItemNamesRestriction.key argument).map namesRestriction)

section Reading

variable {entryPath argument : String} {restriction : Restriction}

/-- An argument gives a value to a name if its first equals sign stands between the two. -/
theorem given?_eq_some_iff {name text : String} (plain : '=' ∉ name.toList) :
    given? name argument = some text ↔
      Text.splitFirst? '=' argument.toList = some (name.toList, text.toList) := by
  rw [Text.splitFirst?_eq_some_iff, and_iff_left plain, given?, Option.map_eq_some_iff]
  simp only [Text.dropStart?_eq_some_iff, List.append_assoc, List.singleton_append]
  constructor
  · rintro ⟨rest, parts, rfl⟩
    rwa [String.toList_ofList]
  · exact fun parts => ⟨text.toList, parts, String.ofList_toList⟩

/-- What an argument gives stands after its first equals sign, and what it names before. -/
theorem given?_of_splitFirst? {name : String} {before after : List Char}
    (plain : '=' ∉ name.toList)
    (parts : Text.splitFirst? '=' argument.toList = some (before, after)) :
    given? name argument =
      if String.ofList before = name then some (String.ofList after) else none := by
  refine Option.ext fun text => ?_
  rw [given?_eq_some_iff plain, parts]
  split
  · rename_i named
    subst named
    simp [← String.toList_inj]
  · rename_i other
    refine iff_of_false (fun same => other ?_) (by simp)
    cases same
    exact String.ofList_toList

theorem given?_of_splitFirst?_eq_none {name : String}
    (whole : Text.splitFirst? '=' argument.toList = none) (plain : '=' ∉ name.toList) :
    given? name argument = none :=
  Option.eq_none_iff_forall_ne_some.mpr fun text given => by
    rw [given?_eq_some_iff plain, whole] at given
    cases given

/-- No argument is for two names. -/
theorem given?_eq_none_of_given? {name other text : String} (plain : '=' ∉ name.toList)
    (simple : '=' ∉ other.toList) (different : name ≠ other)
    (given : given? name argument = some text) : given? other argument = none := by
  rw [given?_of_splitFirst? simple ((given?_eq_some_iff plain).mp given), String.ofList_toList,
    if_neg different]

/-- Every text can be read as a name. -/
theorem mapM_readValue_name (texts : List String) :
    texts.mapM (readValue .name) = .ok (texts.map .name) := by
  induction texts with
  | nil => rfl
  | cons text texts ih => rw [List.mapM_cons, ih]; rfl

theorem createMulti_standard (texts : List String) :
    RestrictionService.standard.createMulti (some entryPath) ItemNamesRestriction.key
        (texts.map .name) =
      .ok ⟨ItemNamesRestriction.definition,
        ⟨ItemNamesRestriction.key, texts.map .name, true⟩⟩ := by
  rw [RestrictionService.joins_standard.follows.createMulti]
  exact RestrictionCatalogue.createMulti_of_typed rfl rfl
    (by simp [Value.type, ItemNamesRestriction.definition])

theorem supported_standard : RestrictionService.standard.supported (some entryPath) =
    [{ name := GlobRestriction.key, valueType := .string }, ItemNamesRestriction.definition] :=
  rfl

/-- An argument is read as a restriction exactly if it gives a glob or item names. -/
theorem readRestriction_eq_ok_iff :
    readRestriction .standard entryPath argument = .ok restriction ↔
      made? argument = some restriction := by
  rw [readRestriction, made?]
  cases parts : Text.splitFirst? '=' argument.toList with
  | none =>
      rw [given?_of_splitFirst?_eq_none parts (by decide),
        given?_of_splitFirst?_eq_none parts (by decide)]
      simp
  | some cut =>
      obtain ⟨before, after⟩ := cut
      rw [given?_of_splitFirst? (by decide) parts, given?_of_splitFirst? (by decide) parts]
      dsimp only
      generalize String.ofList before = name
      generalize String.ofList after = text
      by_cases glob : name = GlobRestriction.key
      · subst glob
        rw [if_pos rfl]
        change Except.ok _ = Except.ok _ ↔ some _ = some _
        rw [Except.ok.injEq, Option.some.injEq]
        rfl
      · by_cases names : name = ItemNamesRestriction.key
        · subst names
          rw [if_neg glob, if_pos rfl]
          change ((listedNames text).mapM (readValue .name) >>= fun values =>
            lift (RestrictionService.standard.createMulti (some entryPath) _ values)) = _ ↔ _
          rw [mapM_readValue_name]
          change lift (RestrictionService.standard.createMulti (some entryPath) _ _) = _ ↔ _
          rw [createMulti_standard]
          change Except.ok _ = Except.ok _ ↔ some _ = some _
          rw [Except.ok.injEq, Option.some.injEq]
          rfl
        · rw [if_neg glob, if_neg names]
          have unknown : (RestrictionService.standard.supported (some entryPath)).find?
              (fun definition => definition.name == name) = none := by
            rw [supported_standard]
            simp [Ne.symm glob, ItemNamesRestriction.definition, Ne.symm names]
          rw [unknown]
          simp [throw, throwThe, MonadExceptOf.throw]

variable {arguments : List String} {restrictions : List Restriction}

/-- All arguments are read if a restriction can be made of each. -/
theorem mapM_readRestriction_eq_ok_iff :
    arguments.mapM (readRestriction .standard entryPath) = .ok restrictions ↔
      (∀ argument ∈ arguments, (made? argument).isSome) ∧
        restrictions = arguments.filterMap made? := by
  induction arguments generalizing restrictions with
  | nil =>
      rw [List.mapM_nil, List.filterMap_nil]
      simp [pure, Except.pure]
  | cons argument arguments ih =>
      rw [List.mapM_cons, bind_eq_ok_iff, List.forall_mem_cons]
      simp only [bind_eq_ok_iff, readRestriction_eq_ok_iff, ih]
      constructor
      · rintro ⟨restriction, made, others, ⟨rest, rfl⟩, done⟩
        cases done
        exact ⟨⟨by rw [made]; rfl, rest⟩, by rw [List.filterMap_cons_some made]⟩
      · rintro ⟨⟨first, rest⟩, rfl⟩
        obtain ⟨restriction, made⟩ := Option.isSome_iff_exists.mp first
        exact ⟨restriction, made, _, ⟨rest, rfl⟩, by rw [List.filterMap_cons_some made]; rfl⟩

end Reading

section Stored

/-- What the restrictions of some arguments leave stored with an entry. -/
def stored (arguments : List String) : RestrictionStore :=
  RestrictionStore.putAll [] (arguments.filterMap made?)

variable {arguments : List String} {argument : String} {restriction : Restriction}

/-- The globs among what an argument stands for. -/
theorem made?_filter_glob :
    ((made? argument).filter fun restriction => restriction.name == GlobRestriction.key) =
      (given? GlobRestriction.key argument).map globRestriction := by
  rw [made?]
  cases given? GlobRestriction.key argument with
  | some text => rfl
  | none => cases given? ItemNamesRestriction.key argument <;> rfl

theorem made?_filter_names :
    ((made? argument).filter fun restriction => restriction.name == ItemNamesRestriction.key) =
      (given? ItemNamesRestriction.key argument).map namesRestriction := by
  rw [made?]
  cases glob : given? GlobRestriction.key argument with
  | some text =>
      rw [given?_eq_none_of_given? (by decide) (by decide) (by decide) glob]
      rfl
  | none => cases given? ItemNamesRestriction.key argument <;> rfl

theorem fits_of_made? (made : made? argument = some restriction) :
    (RestrictionSource.joint [.glob, .itemNames (some standardSupported)]).Fits restriction := by
  rcases Option.or_eq_some_iff.mp made with glob | ⟨-, names⟩
  · obtain ⟨text, -, rfl⟩ := Option.map_eq_some_iff.mp glob
    exact ⟨rfl, rfl, rfl, by simp [globRestriction, Value.type], fun _ => rfl⟩
  · obtain ⟨text, -, rfl⟩ := Option.map_eq_some_iff.mp names
    exact ⟨rfl, rfl, rfl, by simp [namesRestriction, Value.type, ItemNamesRestriction.definition],
      by simp [Property.IsProper, namesRestriction]⟩

theorem fits_of_mem (member : restriction ∈ arguments.filterMap made?) :
    (RestrictionSource.joint [.glob, .itemNames (some standardSupported)]).Fits restriction := by
  obtain ⟨argument, -, made⟩ := List.mem_filterMap.mp member
  exact fits_of_made? made

/-- Everything that arguments stand for is stored, and nothing else. -/
theorem run_write_made (entryPath : String) :
    (RestrictionService.standard.write (some entryPath)
      (arguments.filterMap made?)).run.run [] = (.ok (), stored arguments) := by
  rw [RestrictionService.joins_standard.follows.write]
  exact RestrictionCatalogue.run_write_accepted (fun restriction member =>
    RestrictionCatalogue.refusal?_eq_none_iff.mpr (fits_of_mem member).defined) []

theorem proper_stored : (stored arguments).Proper :=
  RestrictionStore.proper_nil.putAll fun _ member => (fits_of_mem member).single

/-- What is stored under a name is made of the last argument for the name. -/
theorem find?_stored {name : String} {restrict : String → Restriction}
    (own : ∀ argument, ((made? argument).filter fun restriction => restriction.name == name) =
      (given? name argument).map restrict) :
    (stored arguments).find? name =
      (lastGiven? name arguments).map fun text => (restrict text).property := by
  have last : Restriction.last? (arguments.filterMap made?) name =
      (lastGiven? name arguments).map restrict := by
    rw [Restriction.last?, List.filter_filterMap, lastGiven?, ← List.getLast?_map,
      List.map_filterMap]
    exact congrArg List.getLast? (congrArg (List.filterMap · arguments) (funext own))
  rw [stored, RestrictionStore.find?_putAll fun _ member => (fits_of_mem member).named, last]
  cases lastGiven? name arguments <;> rfl

/-- The glob that is stored is the last one given. -/
theorem find?_stored_glob : (stored arguments).find? GlobRestriction.key =
    (lastGiven? GlobRestriction.key arguments).map fun text =>
      (globRestriction text).property :=
  find?_stored fun _ => made?_filter_glob

/-- The item names that are stored are the last ones given. -/
theorem find?_stored_names : (stored arguments).find? ItemNamesRestriction.key =
    (lastGiven? ItemNamesRestriction.key arguments).map fun text =>
      (namesRestriction text).property :=
  find?_stored fun _ => made?_filter_names

end Stored

/-- The match command accepts arguments that are for the standard restrictions, if the last glob
among them can be read. -/
structure Accepts (entryPath : String) (arguments : List String) : Prop where
  known : ∀ argument ∈ arguments, (given? GlobRestriction.key argument).isSome ∨
    (given? ItemNamesRestriction.key argument).isSome
  readable : ∀ text, lastGiven? GlobRestriction.key arguments = some text →
    ∃ matcher, GlobRestriction.matcher entryPath text = .ok matcher

/-- The last glob among some arguments matches the path of an item, and the last names contain its
name. -/
structure Permits (entryPath : String) (arguments : List String) (item name : String) :
    Prop where
  glob : ∀ text, lastGiven? GlobRestriction.key arguments = some text →
    GlobRestriction.Matches entryPath text item
  names : ∀ text, lastGiven? ItemNamesRestriction.key arguments = some text →
    name ∈ listedNames text

section Run

variable {console : Console} {entryPath path : String} {arguments : List String}
  {property : Option String} {lines : List String}

/-- What is stored is acceptable exactly if the glob, if one is given, can be read. -/
theorem acceptable_stored_iff : (stored arguments).Acceptable (some entryPath) ↔
    ∀ text, lastGiven? GlobRestriction.key arguments = some text →
      ∃ matcher, GlobRestriction.matcher entryPath text = .ok matcher := by
  constructor
  · intro acceptable text given
    obtain ⟨place, other, matcher, ⟨⟩, -, values, read⟩ :=
      acceptable.glob _ (by rw [find?_stored_glob, given]; rfl)
    cases values
    exact ⟨matcher, read⟩
  · intro readable
    constructor
    · intro property found
      rw [find?_stored_glob] at found
      obtain ⟨text, given, rfl⟩ := Option.map_eq_some_iff.mp found
      obtain ⟨matcher, read⟩ := readable text given
      exact ⟨entryPath, text, matcher, rfl, rfl, rfl, read⟩
    · intro property found
      rw [find?_stored_names] at found
      obtain ⟨text, -, rfl⟩ := Option.map_eq_some_iff.mp found
      exact ⟨rfl, rfl, by simp [namesRestriction, Value.type]⟩

/-- What is stored allows an item exactly if the arguments permit it. -/
theorem allows_stored_iff {item name : String} :
    (stored arguments).Allows (some entryPath) item name ↔
      Permits entryPath arguments item name := by
  constructor
  · intro allowed
    constructor
    · intro text given
      obtain ⟨place, other, ⟨⟩, values, matching⟩ :=
        allowed.glob _ (by rw [find?_stored_glob, given]; rfl)
      cases values
      exact matching
    · intro text given
      have listed := allowed.names _ (by rw [find?_stored_names, given]; rfl)
      simpa [namesRestriction] using listed
  · intro permitted
    constructor
    · intro property found
      rw [find?_stored_glob] at found
      obtain ⟨text, given, rfl⟩ := Option.map_eq_some_iff.mp found
      exact ⟨entryPath, text, rfl, rfl, permitted.glob text given⟩
    · intro property found
      rw [find?_stored_names] at found
      obtain ⟨text, given, rfl⟩ := Option.map_eq_some_iff.mp found
      simpa [namesRestriction] using permitted.names text given

theorem lift_eq_ok_iff {α : Type} {outcome : Except AuthorizationError α} {value : α} :
    lift outcome = .ok value ↔ outcome = .ok value := by
  cases outcome <;> simp [lift, Except.mapError]

/-- The line that the match command shows about an item. -/
def matchLine (console : Console) (pattern : RestrictionPattern) (path : String) :
    Option String → String
  | some name =>
    console.renderDecision (Path.concat path name) "matches" (pattern.matchesProperty path name)
  | none => console.renderDecision path "matches" (pattern.matchesNode path)

/-- If all arguments stand for restrictions, the command validates the entry and reports what its
pattern says. -/
theorem runMatch_of_made (made : ∀ argument ∈ arguments, (made? argument).isSome) :
    runMatch console entryPath arguments path property =
      (lift (RestrictionService.standard.validate (some entryPath) (stored arguments)) >>=
        fun _ => pure [matchLine console
          (RestrictionService.standard.pattern (some entryPath) (stored arguments)) path
          property]) := by
  rw [runMatch, mapM_readRestriction_eq_ok_iff.mpr ⟨made, rfl⟩]
  simp only [Except.bind, bind, run_write_made]
  cases property <;> rfl

/-- Arguments are accepted exactly if all of them stand for restrictions and the entry is valid. -/
theorem accepts_iff : Accepts entryPath arguments ↔
    (∀ argument ∈ arguments, (made? argument).isSome) ∧
      RestrictionService.standard.validate (some entryPath) (stored arguments) = .ok () := by
  rw [RestrictionService.validate_standard_eq_ok_iff proper_stored, acceptable_stored_iff]
  simp only [made?, Option.isSome_or, Option.isSome_map, Bool.or_eq_true]
  exact ⟨fun accepts => ⟨accepts.known, accepts.readable⟩,
    fun ⟨known, readable⟩ => ⟨known, readable⟩⟩

/-- The match command succeeds exactly with the arguments that it accepts. -/
theorem runMatch_eq_ok_iff :
    runMatch console entryPath arguments path property = .ok lines ↔
      Accepts entryPath arguments ∧
        lines = [matchLine console
          (RestrictionService.standard.pattern (some entryPath) (stored arguments)) path
          property] := by
  rw [accepts_iff]
  constructor
  · intro done
    have read := done
    rw [runMatch] at read
    obtain ⟨restrictions, read, -⟩ := bind_eq_ok_iff.mp read
    have made := (mapM_readRestriction_eq_ok_iff.mp read).1
    rw [runMatch_of_made made] at done
    obtain ⟨_, valid, shown⟩ := bind_eq_ok_iff.mp done
    cases shown
    exact ⟨⟨made, lift_eq_ok_iff.mp valid⟩, rfl⟩
  · rintro ⟨⟨made, valid⟩, rfl⟩
    rw [runMatch_of_made made, valid]
    rfl

end Run

section Title

/-- Arguments of which the last two count. -/
def titleArguments : List String :=
  ["rep:glob=[", "rep:itemNames=body", "rep:glob=/*", "rep:itemNames= title , note"]

/-- What these arguments leave stored. -/
def titleStore : RestrictionStore :=
  [("rep:glob", ⟨"rep:glob", [.string "/*"], false⟩),
    ("rep:itemNames", ⟨"rep:itemNames", [.name "title", .name "note"], true⟩)]

theorem matches_below_docs : GlobRestriction.Matches "/docs" "/*" "/docs/title" :=
  ⟨_, by cbv, by cbv⟩

end Title

end Authorization.CommandLine
