import Authorization.Proofs.Glob.Escaping
import Authorization.Proofs.Restriction.Enforcement

/-!
# Globs behind the paths of entries

The path of an entry stands for itself in front of the entry's glob, whatever characters it has.
So a glob that does not begin with two stars matches, behind a path, what it matches at the root
(`matches_iff`), of which the path of the root itself is no part. For a place other than the root
the empty glob therefore means the place and the glob `/*` all that is below it; the root is missed
by the first and hit by the second (`itself_and_below`).
-/

namespace Authorization.GlobRestriction

variable {place text item : String}

/-- The matcher for the items that a glob matches by their paths. -/
def ofGlob (glob : Glob) : ItemMatcher where
  node := glob.isMatch
  property path name := glob.isMatch (Path.concat path name)

@[simp] theorem node_ofGlob (glob : Glob) : (ofGlob glob).node = glob.isMatch := rfl

/-- The glob of an entry is put behind the path of the entry, of which the root's slash is left
out. -/
theorem matcher_eq (place text : String) :
    matcher place text =
      (Glob.parse (Glob.escape (String.ofList (Path.stem place)) ++ text)).map ofGlob := by
  have base : (if Path.isRoot place then "" else place) = String.ofList (Path.stem place) := by
    unfold Path.stem
    split
    · rfl
    · exact String.ofList_toList.symm
  unfold matcher
  simp only [base]
  cases Glob.parse (Glob.escape (String.ofList (Path.stem place)) ++ text) <;> rfl

theorem isOk_eq_isSome_toOption {ε α : Type} (outcome : Except ε α) :
    outcome.isOk = outcome.toOption.isSome := by
  cases outcome <;> rfl

theorem matches_iff_toOption :
    Matches place text item ↔ ∃ placed ∈ (matcher place text).toOption, placed.node item = true := by
  unfold Matches
  cases matcher place text <;> simp [Except.toOption]

section Single

variable (single : ¬['*', '*'] <+: text.toList)

include single

/-- The path in front does not change how a glob is read. -/
theorem toOption_matcher (place : String) :
    (matcher place text).toOption = (Glob.parse text).toOption.map fun glob =>
      ofGlob (glob.behind (String.ofList (Path.stem place))) := by
  rw [matcher_eq, Glob.toOption_map, Glob.parse_escape_append single, Option.map_map]
  rfl

/-- A glob matches what has the path of the entry in front and is matched behind it. -/
theorem matches_iff_parse : Matches place text item ↔
    ∃ glob ∈ (Glob.parse text).toOption, ∃ rest,
      item = String.ofList (Path.stem place) ++ rest ∧ glob.isMatch rest = true := by
  rw [matches_iff_toOption, toOption_matcher single]
  simp only [Option.mem_def, Option.map_eq_some_iff]
  constructor
  · rintro ⟨_, ⟨glob, read, rfl⟩, matched⟩
    rw [node_ofGlob, Glob.isMatch_behind] at matched
    exact ⟨glob, read, matched⟩
  · rintro ⟨glob, read, matched⟩
    refine ⟨_, ⟨glob, read, rfl⟩, ?_⟩
    rw [node_ofGlob, Glob.isMatch_behind]
    exact matched

/-- At the root a glob matches whole paths. -/
theorem matches_root_iff : Matches Path.root text item ↔
    ∃ glob ∈ (Glob.parse text).toOption, glob.isMatch item = true := by
  have bare (rest : String) : String.ofList (Path.stem Path.root) ++ rest = rest :=
    String.empty_append
  rw [matches_iff_parse single]
  simp only [bare, exists_eq_left']

/-- A glob matches, behind a path, the texts that go on with one that it matches at the root. -/
theorem matches_iff : Matches place text item ↔
    ∃ rest, item = String.ofList (Path.stem place) ++ rest ∧ Matches Path.root text rest := by
  rw [matches_iff_parse single]
  constructor
  · rintro ⟨glob, read, rest, written, matched⟩
    exact ⟨rest, written, (matches_root_iff single).mpr ⟨glob, read, matched⟩⟩
  · rintro ⟨rest, written, alone⟩
    obtain ⟨glob, read, matched⟩ := (matches_root_iff single).mp alone
    exact ⟨glob, read, rest, written, matched⟩

/-- Whether a glob can be read does not depend on the path in front of it. -/
theorem isOk_matcher (place other : String) :
    (matcher place text).isOk = (matcher other text).isOk := by
  have readable (path : String) : (matcher path text).isOk = (Glob.parse text).toOption.isSome := by
    rw [isOk_eq_isSome_toOption, toOption_matcher single, Option.isSome_map]
  rw [readable, readable]

end Single

/-- **Paths of entries stand for themselves.** -/
theorem path_matched_literally (below : place ≠ Path.root)
    (single : ¬['*', '*'] <:+: text.toList) :
    (matcher place text).isOk = (matcher Path.root text).isOk ∧
      ∀ item, Matches place text item ↔
        ∃ rest, item = place ++ rest ∧ Matches Path.root text rest := by
  have start : ¬['*', '*'] <+: text.toList := fun two => single two.isInfix
  have whole : String.ofList (Path.stem place) = place := by
    rw [Path.stem, if_neg (by simpa [Path.isRoot] using below), String.ofList_toList]
  refine ⟨isOk_matcher start place Path.root, fun item => ?_⟩
  rw [matches_iff start, whole]

/-- Brackets and stars in the path of an entry are characters like any other. -/
theorem brackets_in_path_matched :
    "/te[s]t*" ≠ Path.root ∧ ¬['*', '*'] <:+: "/?*".toList ∧
      (matcher "/te[s]t*" "/?*").isOk ∧ Matches "/te[s]t*" "/?*" "/te[s]t*/a/b" ∧
      ¬Matches "/te[s]t*" "/?*" "/tests/a/b" := by
  have below : "/te[s]t*" ≠ Path.root := by decide
  have single : ¬['*', '*'] <:+: "/?*".toList := by decide
  obtain ⟨readable, matched⟩ := path_matched_literally below single
  refine ⟨below, single, readable.trans rfl, (matched _).mpr ⟨"/a/b", rfl, _, rfl, rfl⟩, ?_⟩
  rintro other
  obtain ⟨rest, written, -⟩ := (matched _).mp other
  have start := congrArg (fun text => text.toList[3]?) written
  simp at start

section Plain

theorem matches_root_empty_iff : Matches Path.root "" item ↔ item = "" := by
  rw [matches_root_iff (by decide)]
  have read : (Glob.parse "").toOption = some ⟨[]⟩ := rfl
  simp [read, Glob.isMatch_eq_accepts, Glob.accepts]

theorem matches_root_below_iff :
    Matches Path.root "/*" item ↔ ∃ rest, item.toList = '/' :: rest := by
  rw [matches_root_iff (by decide)]
  have read : (Glob.parse "/*").toOption = some ⟨[.one (.literal '/'), .anyText]⟩ := rfl
  simp only [read, Option.mem_some_iff, exists_eq_left', Glob.isMatch_eq_accepts]
  cases item.toList with
  | nil => simp [Glob.accepts]
  | cons c rest =>
      rw [Glob.accepts, Glob.accepts_anyText, Bool.and_true, CharClass.admits, beq_iff_eq]
      constructor
      · rintro rfl
        exact ⟨rest, rfl⟩
      · rintro ⟨_, same⟩
        exact (List.cons.inj same).1.symm

/-- The empty glob matches the path of the entry, of which the root has none. -/
theorem matches_empty_iff : Matches place "" item ↔ item.toList = Path.stem place := by
  rw [matches_iff (by decide)]
  simp only [matches_root_empty_iff, exists_eq_right, String.append_empty]
  rw [← String.toList_inj, String.toList_ofList]

theorem matches_below_iff :
    Matches place "/*" item ↔ ∃ rest, item.toList = Path.stem place ++ '/' :: rest := by
  rw [matches_iff (by decide)]
  simp only [matches_root_below_iff]
  constructor
  · rintro ⟨tail, rfl, rest, written⟩
    exact ⟨rest, by rw [String.toList_append, String.toList_ofList, written]⟩
  · rintro ⟨rest, written⟩
    refine ⟨String.ofList ('/' :: rest), String.toList_inj.mp ?_, rest, String.toList_ofList⟩
    rw [written, String.toList_append, String.toList_ofList, String.toList_ofList]

end Plain

/-- **Empty globs and globs for all below.** At a place other than the root the empty glob matches
the place itself and the glob `/*` what lies strictly below. At the root the empty glob matches
nothing, and the other one the root as well. -/
theorem itself_and_below (place : String) (canonical : Path.IsCanonical item) :
    (matcher place "").isOk ∧ (matcher place "/*").isOk ∧
      (Matches place "" item ↔ item = place ∧ place ≠ Path.root) ∧
      (Matches place "/*" item ↔
        Path.isAncestor place item = true ∨ item = Path.root ∧ place = Path.root) := by
  refine ⟨isOk_matcher (by decide) place Path.root, isOk_matcher (by decide) place Path.root, ?_, ?_⟩
  · rw [matches_empty_iff, Path.stem]
    split
    · rename_i top
      obtain ⟨names, -, rfl⟩ := canonical
      have absolute := Path.isAbsolute_ofElements names
      constructor
      · intro bare
        rw [Path.isAbsolute, bare] at absolute
        cases absolute
      · exact fun other => absurd (beq_iff_eq.mp top) other.2
    · rename_i other
      have below : place ≠ Path.root := by simpa [Path.isRoot] using other
      rw [String.toList_inj, and_iff_left below]
  · rw [matches_below_iff, Path.isAncestor_iff]
    constructor
    · rintro ⟨rest, written⟩
      by_cases same : place = item
      · subst same
        have top := beq_iff_eq.mp (Path.eq_nil_of_toList_eq_stem written).1
        exact .inr ⟨top, top⟩
      · exact .inl ⟨same, rest, written⟩
    · rintro (⟨-, below⟩ | ⟨rfl, rfl⟩)
      · exact below
      · exact ⟨[], rfl⟩

/-- Neither glob takes a place for the one below it. -/
theorem draft_below_docs :
    Path.IsCanonical "/docs/draft" ∧ ¬Matches "/docs" "" "/docs/draft" ∧
      Matches "/docs" "/*" "/docs/draft" := by
  have canonical : Path.IsCanonical "/docs/draft" := ⟨["docs", "draft"], by decide, by decide⟩
  obtain ⟨-, -, itself, below⟩ := itself_and_below "/docs" canonical
  exact ⟨canonical, fun matched => absurd (itself.mp matched).1 (by decide),
    below.mpr (.inl (by decide))⟩

/-- The root is canonical, but is missed by its own empty glob and hit by the glob for all that is
below it. -/
theorem root_missed_and_hit :
    Path.IsCanonical Path.root ∧ ¬Matches Path.root "" Path.root ∧
      Matches Path.root "/*" Path.root ∧ Path.isAncestor Path.root Path.root = false := by
  refine ⟨⟨[], by decide, rfl⟩, ?_, matches_root_below_iff.mpr ⟨[], rfl⟩, rfl⟩
  rw [matches_root_empty_iff]
  decide

end Authorization.GlobRestriction
