import Authorization.Restriction.Pattern

/-!
# Combined patterns

A combination matches where all of its patterns match (`observe_combine`). Patterns that come from
combining hold several parts only if these are matchers (`Built.isNormal`), and of such patterns
it makes no difference whether they are combined at once or in groups (`combine_append`,
`combine_map_combine`). So a combination is a conjunction in normal form
(`conjoined_in_normal_form`).
-/

namespace Authorization.RestrictionPattern

/-- Whether a pattern is a single matcher. -/
def IsMatcher (pattern : RestrictionPattern) : Prop := ∃ single, pattern = matcher single

/-- Whether a pattern has parts only if there are at least two of them, all of them matchers. -/
def IsNormal : RestrictionPattern → Prop
  | combined parts => 2 ≤ parts.length ∧ ∀ part ∈ parts, part.IsMatcher
  | _ => True

variable {pattern : RestrictionPattern} {patterns others parts : List RestrictionPattern}

theorem combinedParts?_cons (pattern : RestrictionPattern) (patterns : List RestrictionPattern) :
    combinedParts? (pattern :: patterns) =
      (combinedParts? [pattern]).bind fun own => (combinedParts? patterns).map (own ++ ·) := by
  cases pattern <;> cases rest : combinedParts? patterns <;> simp [combinedParts?, rest]

/-- The parts of several patterns are those of the first ones, followed by those of the others. -/
theorem combinedParts?_append (patterns others : List RestrictionPattern) :
    combinedParts? (patterns ++ others) =
      (combinedParts? patterns).bind fun own => (combinedParts? others).map (own ++ ·) := by
  induction patterns with
  | nil => cases rest : combinedParts? others <;> simp [combinedParts?, rest]
  | cons pattern patterns ih =>
      rw [List.cons_append, combinedParts?_cons, combinedParts?_cons pattern patterns, ih]
      cases combinedParts? [pattern] <;> cases combinedParts? patterns <;>
        cases combinedParts? others <;> simp

/-- Normal patterns have matchers as the parts of their combination. -/
theorem isMatcher_of_combinedParts? (normal : ∀ pattern ∈ patterns, pattern.IsNormal)
    (found : combinedParts? patterns = some parts) : ∀ part ∈ parts, part.IsMatcher := by
  induction patterns generalizing parts with
  | nil =>
      cases found
      simp
  | cons pattern patterns ih =>
      obtain ⟨here, rest⟩ := List.forall_mem_cons.mp normal
      cases pattern with
      | all => exact ih rest found
      | none => cases found
      | matcher single =>
          obtain ⟨others, parted, rfl⟩ := Option.map_eq_some_iff.mp found
          exact List.forall_mem_cons.mpr ⟨⟨single, rfl⟩, ih rest parted⟩
      | combined own =>
          obtain ⟨others, parted, rfl⟩ := Option.map_eq_some_iff.mp found
          exact List.forall_mem_append.mpr ⟨here.2, ih rest parted⟩

theorem combinedParts?_ofParts (matchers : ∀ part ∈ parts, part.IsMatcher) :
    combinedParts? [ofParts parts] = some parts := by
  match parts, matchers with
  | [], _ => rfl
  | [part], matchers =>
      obtain ⟨single, rfl⟩ := matchers part List.mem_cons_self
      rfl
  | first :: second :: rest, _ => simp [ofParts, combinedParts?]

/-- A combined pattern has the parts of the patterns that it combines. -/
theorem combinedParts?_combine (normal : ∀ pattern ∈ patterns, pattern.IsNormal) :
    combinedParts? [combine patterns] = combinedParts? patterns := by
  rw [combine]
  split
  · rename_i parts found
    rw [combinedParts?_ofParts (isMatcher_of_combinedParts? normal found), found]
  · rename_i absent
    rw [absent]
    rfl

theorem isNormal_ofParts (matchers : ∀ part ∈ parts, part.IsMatcher) :
    (ofParts parts).IsNormal := by
  match parts, matchers with
  | [], _ => trivial
  | [part], matchers =>
      obtain ⟨single, rfl⟩ := matchers part List.mem_cons_self
      trivial
  | first :: second :: rest, matchers => exact ⟨by simp, matchers⟩

/-- Combining normal patterns makes a normal pattern. -/
theorem isNormal_combine (normal : ∀ pattern ∈ patterns, pattern.IsNormal) :
    (combine patterns).IsNormal := by
  rw [combine]
  split
  · rename_i parts found
    exact isNormal_ofParts (isMatcher_of_combinedParts? normal found)
  · trivial

/-- Combining a single pattern changes nothing. -/
theorem combine_singleton (normal : pattern.IsNormal) : combine [pattern] = pattern := by
  match pattern, normal with
  | all, _ => rfl
  | none, _ => rfl
  | matcher _, _ => rfl
  | combined (first :: second :: rest), _ => simp [combine, combinedParts?, ofParts]

theorem combine_congr (same : combinedParts? patterns = combinedParts? others) :
    combine patterns = combine others := by
  rw [combine, combine, same]

/-- Patterns may be combined in groups first. -/
theorem combine_map_combine {β : Type} (groups : List β) (members : β → List RestrictionPattern)
    (normal : ∀ group ∈ groups, ∀ pattern ∈ members group, pattern.IsNormal) :
    combine (groups.map fun group => combine (members group)) =
      combine (groups.flatMap members) := by
  apply combine_congr
  induction groups with
  | nil => rfl
  | cons group groups ih =>
      obtain ⟨here, rest⟩ := List.forall_mem_cons.mp normal
      rw [List.map_cons, List.flatMap_cons, combinedParts?_cons, combinedParts?_combine here,
        ih rest, combinedParts?_append]

/-- Some patterns in a row may be combined first. -/
theorem combine_append {before group after : List RestrictionPattern}
    (normal : ∀ pattern ∈ group, pattern.IsNormal) :
    combine (before ++ combine group :: after) = combine (before ++ group ++ after) := by
  apply combine_congr
  rw [List.append_assoc, combinedParts?_append, combinedParts?_append before,
    combinedParts?_cons, combinedParts?_combine normal, combinedParts?_append group]

/-- There are no parts exactly if some pattern matches nothing. -/
theorem combinedParts?_eq_none_iff : combinedParts? patterns = .none ↔ none ∈ patterns := by
  induction patterns with
  | nil => simp [combinedParts?]
  | cons pattern patterns ih => cases pattern <;> simp [combinedParts?, ih]

/-- A combination matches nothing at all only if one of its patterns does so. -/
theorem combine_eq_none_iff (normal : ∀ pattern ∈ patterns, pattern.IsNormal) :
    combine patterns = none ↔ none ∈ patterns := by
  rw [← combinedParts?_eq_none_iff, combine]
  split
  · rename_i parts found
    rw [found]
    match parts, isMatcher_of_combinedParts? normal found with
    | [], _ => simp [ofParts]
    | [part], matchers =>
        obtain ⟨single, rfl⟩ := matchers part List.mem_cons_self
        simp [ofParts]
    | first :: second :: rest, _ => simp [ofParts]
  · rename_i absent
    simp [absent]

/-- There is nothing to combine exactly if all patterns match everything. -/
theorem combinedParts?_eq_nil_iff (normal : ∀ pattern ∈ patterns, pattern.IsNormal) :
    combinedParts? patterns = some [] ↔ ∀ pattern ∈ patterns, pattern = all := by
  induction patterns with
  | nil => simp [combinedParts?]
  | cons pattern patterns ih =>
      obtain ⟨here, rest⟩ := List.forall_mem_cons.mp normal
      rw [List.forall_mem_cons, ← ih rest]
      cases pattern with
      | all => simp [combinedParts?]
      | none => simp [combinedParts?]
      | matcher single => simp [combinedParts?]
      | combined own =>
          have several : own ≠ [] := by
            rintro rfl
            exact absurd here.1 (by decide)
          simp [combinedParts?, several]

/-- A combination restricts nothing only if none of its patterns does so. -/
theorem combine_eq_all_iff (normal : ∀ pattern ∈ patterns, pattern.IsNormal) :
    combine patterns = all ↔ ∀ pattern ∈ patterns, pattern = all := by
  rw [← combinedParts?_eq_nil_iff normal, combine]
  split
  · rename_i parts found
    rw [found]
    match parts, isMatcher_of_combinedParts? normal found with
    | [], _ => simp [ofParts]
    | [part], matchers =>
        obtain ⟨single, rfl⟩ := matchers part List.mem_cons_self
        simp [ofParts]
    | first :: second :: rest, _ => simp [ofParts]
  · rename_i absent
    simp [absent]

section Observation

/- A question to a matcher that a conjunction answers by asking all of its members. -/
variable (observe : ItemMatcher → Bool)
  (conjunction : ∀ matchers, observe (.conjunction matchers) = matchers.all observe)
  (always : ∀ answer, observe (.always answer) = answer)

include conjunction

theorem observe_combined :
    observe (combined parts).meaning = parts.all fun part => observe part.meaning := by
  rw [meaning, conjunction, meanings_eq_map, List.all_map]
  rfl

include always

theorem observe_ofParts :
    observe (ofParts parts).meaning = parts.all fun part => observe part.meaning := by
  match parts with
  | [] => exact always true
  | [part] => simp [ofParts]
  | _ :: _ :: _ => exact observe_combined observe conjunction

/-- What holds of all parts holds of all patterns. -/
theorem observe_combinedParts? :
    (combinedParts? patterns).elim false (·.all fun part => observe part.meaning) =
      patterns.all fun pattern => observe pattern.meaning := by
  induction patterns with
  | nil => rfl
  | cons pattern patterns ih =>
      rw [List.all_cons, ← ih]
      cases pattern with
      | all => simp [combinedParts?, meaning, always]
      | none => simp [combinedParts?, meaning, always]
      | matcher single => cases rest : combinedParts? patterns <;> simp [combinedParts?, rest]
      | combined own =>
          rw [observe_combined observe conjunction]
          cases rest : combinedParts? patterns <;> simp [combinedParts?, rest]

/-- A combination answers a question by asking all of its patterns. -/
theorem observe_combine :
    observe (combine patterns).meaning = patterns.all fun pattern => observe pattern.meaning := by
  rw [← observe_combinedParts? observe conjunction always, combine]
  cases combinedParts? patterns with
  | none => exact always false
  | some parts => exact observe_ofParts observe conjunction always

end Observation

theorem matchesNode_combine (path : String) :
    (combine patterns).matchesNode path = patterns.all fun pattern => pattern.matchesNode path :=
  observe_combine (fun matcher => matcher.node path) (fun _ => rfl) fun _ => rfl

theorem matchesProperty_combine (path name : String) :
    (combine patterns).matchesProperty path name =
      patterns.all fun pattern => pattern.matchesProperty path name :=
  observe_combine (fun matcher => matcher.property path name) (fun _ => rfl) fun _ => rfl

theorem matchesTree_combine (tree : Tree) (property : Option Property) :
    (combine patterns).matchesTree tree property =
      patterns.all fun pattern => pattern.matchesTree tree property :=
  observe_combine (fun matcher => matcher.tree tree property) (fun _ => rfl) fun _ => rfl

theorem matchesRepository_combine :
    (combine patterns).matchesRepository = patterns.all matchesRepository :=
  observe_combine ItemMatcher.repository (fun _ => rfl) fun _ => rfl

theorem matchesItem_combine (path : String) (isProperty : Bool) :
    (combine patterns).matchesItem path isProperty =
      patterns.all fun pattern => pattern.matchesItem path isProperty := by
  unfold matchesItem
  cases isProperty with
  | false => exact matchesNode_combine path
  | true =>
      cases Path.parent? path with
      | none => exact matchesNode_combine path
      | some above => exact matchesProperty_combine above (Path.name path)

/-- Whether a pattern answers every question as some patterns do together. -/
structure Conjoins (pattern : RestrictionPattern) (patterns : List RestrictionPattern) : Prop where
  node : ∀ path, pattern.matchesNode path = true ↔
    ∀ part ∈ patterns, part.matchesNode path = true
  property : ∀ path name, pattern.matchesProperty path name = true ↔
    ∀ part ∈ patterns, part.matchesProperty path name = true
  tree : ∀ tree property, pattern.matchesTree tree property = true ↔
    ∀ part ∈ patterns, part.matchesTree tree property = true
  item : ∀ path isProperty, pattern.matchesItem path isProperty = true ↔
    ∀ part ∈ patterns, part.matchesItem path isProperty = true
  repository : pattern.matchesRepository = true ↔
    ∀ part ∈ patterns, part.matchesRepository = true

/-- A combined pattern matches what all the patterns match, whatever is asked about. -/
theorem conjoins_combine (patterns : List RestrictionPattern) :
    (combine patterns).Conjoins patterns where
  node path := by rw [matchesNode_combine, List.all_eq_true]
  property path name := by rw [matchesProperty_combine, List.all_eq_true]
  tree tree property := by rw [matchesTree_combine, List.all_eq_true]
  item path isProperty := by rw [matchesItem_combine, List.all_eq_true]
  repository := by rw [matchesRepository_combine, List.all_eq_true]

/-- What a pattern adds to a combination that it does not spoil. -/
def asParts : RestrictionPattern → List RestrictionPattern
  | all => []
  | combined parts => parts
  | single => [single]

theorem eq_flatMap_of_combinedParts? (found : combinedParts? patterns = some parts) :
    parts = patterns.flatMap asParts := by
  induction patterns generalizing parts with
  | nil =>
      cases found
      rfl
  | cons pattern patterns ih =>
      cases pattern with
      | all => exact ih found
      | none => cases found
      | matcher single =>
          obtain ⟨others, parted, rfl⟩ := Option.map_eq_some_iff.mp found
          exact congrArg (matcher single :: ·) (ih parted)
      | combined own =>
          obtain ⟨others, parted, rfl⟩ := Option.map_eq_some_iff.mp found
          exact congrArg (own ++ ·) (ih parted)

/-- The parts of a combination of normal patterns are those that the patterns add to it. -/
theorem combinedParts?_of_combine (normal : ∀ pattern ∈ patterns, pattern.IsNormal)
    (whole : combine patterns = combined parts) : combinedParts? patterns = some parts := by
  rw [combine] at whole
  cases found : combinedParts? patterns with
  | none => simp [found] at whole
  | some own =>
      simp only [found] at whole
      match own, isMatcher_of_combinedParts? normal found with
      | [], _ => cases whole
      | [part], matchers =>
          obtain ⟨single, rfl⟩ := matchers part List.mem_cons_self
          cases whole
      | first :: second :: rest, _ =>
          cases whole
          rfl

/-- Patterns as they come about: sentinels, single matchers, and combinations of such. -/
inductive Built : RestrictionPattern → Prop
  | all : Built .all
  | none : Built .none
  | matcher (single : ItemMatcher) : Built (.matcher single)
  | combine {patterns : List RestrictionPattern} (each : ∀ pattern ∈ patterns, Built pattern) :
      Built (.combine patterns)

/-- Patterns that can be built are in normal form. -/
theorem Built.isNormal (built : pattern.Built) : pattern.IsNormal := by
  induction built with
  | all => trivial
  | none => trivial
  | matcher single => trivial
  | combine _ normal => exact isNormal_combine normal

/-- **Combining is conjunction in normal form.** A combination answers every question as its
patterns do together. If it has parts then there are at least two, all of them matchers: those of
the patterns, in their order. And it makes no difference whether some of the patterns in a row are
combined first. -/
theorem conjoined_in_normal_form (built : ∀ pattern ∈ patterns, pattern.Built) :
    (combine patterns).Conjoins patterns ∧
      (∀ parts, combine patterns = combined parts →
        2 ≤ parts.length ∧ (∀ part ∈ parts, part.IsMatcher) ∧
          parts = patterns.flatMap asParts) ∧
      ∀ before group after, patterns = before ++ group ++ after →
        combine (before ++ combine group :: after) = combine patterns := by
  have normal pattern (member : pattern ∈ patterns) := (built pattern member).isNormal
  refine ⟨conjoins_combine patterns, fun parts whole => ?_, ?_⟩
  · have several : (combined parts).IsNormal := whole ▸ isNormal_combine normal
    exact ⟨several.1, several.2,
      eq_flatMap_of_combinedParts? (combinedParts?_of_combine normal whole)⟩
  · rintro before group after rfl
    exact combine_append fun pattern member => normal pattern (by simp [member])

/-- Two patterns and a combination of two more are three parts, whether or not the first two are
combined before. A draft matches all three, a note is no draft, and one of the three does not match
at repository level. -/
theorem notes_and_drafts_combined :
    let docs : RestrictionPattern := .matcher (.below "/docs" false)
    let notes : RestrictionPattern := .matcher (.below "/docs/notes" false)
    let drafts : RestrictionPattern := .matcher (.below "/docs/notes/drafts" true)
    let patterns := [all, docs, combine [notes, all, drafts]]
    (∀ pattern ∈ patterns, pattern.Built) ∧
      combine patterns = combined [docs, notes, drafts] ∧
      (combine patterns).Conjoins patterns ∧
      [docs, notes, drafts] = patterns.flatMap asParts ∧
      combine [combine [all, docs], combine [notes, all, drafts]] = combine patterns ∧
      (combine patterns).matchesNode "/docs/notes/drafts/a" = true ∧
      (combine patterns).matchesNode "/docs/notes/a" = false ∧
      (combine patterns).matchesProperty "/docs/notes/drafts" "title" = true ∧
      (combine patterns).matchesRepository = false := by
  intro docs notes drafts patterns
  have inner : (combine [notes, all, drafts]).Built := by
    refine .combine ?_
    simpa [notes, drafts] using ⟨Built.matcher _, Built.all, Built.matcher _⟩
  have built : ∀ pattern ∈ patterns, pattern.Built := by
    simpa [patterns, docs] using ⟨Built.all, Built.matcher _, inner⟩
  obtain ⟨conjoins, parted, grouped⟩ := conjoined_in_normal_form built
  exact ⟨built, rfl, conjoins, (parted _ rfl).2.2, grouped [] [all, docs] [_] rfl,
    by decide, by decide, by decide, by decide⟩

end Authorization.RestrictionPattern
