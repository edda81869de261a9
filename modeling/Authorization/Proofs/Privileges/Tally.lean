import Mathlib.Data.List.Basic
import Authorization.Provider.Composite

/-!
# The privileges that a composite lists

A composite reads what each of its members reports and tallies it: what is granted, and under `and`
what is withheld. About a single privilege the tally is a count of members (`mem_tally`), so the
order of the members does not matter. A report that cannot be read counts as empty: under `and` all
that its member covers is withheld (`privileges_tallied`).
-/

namespace Authorization.Combination

variable (combination : Combination) (tree : Option Tree)

/-- The privileges that a member reports on a tree, in the reading of a composite: none if it
reports a name that is unknown. -/
def reported (member : Provider Id) : PrivilegeBits :=
  match combination.catalogue.bits (member.privileges tree).run with
  | .ok bits => bits
  | .error _ => ∅

variable {combination tree} {members : List (Provider Id)} {i : Nat}

theorem reported_of_ok {member : Provider Id} {bits : PrivilegeBits}
    (read : combination.catalogue.bits (member.privileges tree).run = .ok bits) :
    combination.reported tree member = bits := by
  rw [reported, read]

theorem reported_of_error {member : Provider Id} {error : AuthorizationError}
    (unread : combination.catalogue.bits (member.privileges tree).run = .error error) :
    combination.reported tree member = ∅ := by
  rw [reported, unread]

/-- A member that covers anything is counted by what it reports of it. -/
theorem tally_cons {member : Provider Id} (filled : member.coversPrivileges tree none ≠ ∅) :
    (combination.tally tree (member :: members)).run =
      let covers := member.coversPrivileges tree none
      let granted := combination.reported tree member ∩ covers
      let others := (combination.tally tree members).run
      (granted ∪ others.1,
        (match combination.composition with
          | .and => covers.withoutDeclared granted
          | .or => ∅) ∪ others.2) := by
  have counted : ¬ (member.coversPrivileges tree none).isEmpty = true := by
    simpa [Mask.isEmpty] using filled
  rw [tally, if_neg counted]
  cases read : combination.catalogue.bits (member.privileges tree).run with
  | ok bits =>
      rw [Id.run_bind, read, reported_of_ok read]
      rfl
  | error error =>
      have nothing : (∅ : PrivilegeBits) ∩ member.coversPrivileges tree none = ∅ :=
        Mask.ext fun i => by simp
      rw [Id.run_bind, read, reported_of_error read]
      dsimp only
      rw [nothing]
      rfl

/-- The tally holds what some member covers and reports and, under `and`, what some member covers
and does not report. -/
theorem mem_tally (combination : Combination) (tree : Option Tree) (members : List (Provider Id))
    (i : Nat) :
    let tally := (combination.tally tree members).run
    (i ∈ tally.1 ↔ ∃ member ∈ members,
      i ∈ member.coversPrivileges tree none ∧ i ∈ combination.reported tree member) ∧
      (i ∈ tally.2 ↔ combination.composition = .and ∧ i ∈ (Mask.declared : PrivilegeBits) ∧
        ∃ member ∈ members,
          i ∈ member.coversPrivileges tree none ∧ i ∉ combination.reported tree member) := by
  induction members with
  | nil => simp [tally]
  | cons member members ih =>
      obtain ⟨granted, denied⟩ := ih
      simp only [List.exists_mem_cons_iff]
      by_cases bare : member.coversPrivileges tree none = ∅
      · have skipped : combination.tally tree (member :: members) =
            combination.tally tree members := by
          rw [tally, bare]
          rfl
        rw [skipped, bare]
        simpa using ⟨granted, denied⟩
      · rw [tally_cons bare]
        constructor
        · rw [Mask.mem_union, Mask.mem_inter, granted, and_comm]
        · rw [Mask.mem_union, denied]
          cases combination.composition with
          | or => simp
          | and =>
              rw [Mask.mem_withoutDeclared, Mask.mem_inter]
              grind

/-- A composite of members grants a privilege by their tally: under `and` if some member covers it
and every member that covers it reports it, under `or` if some member covers and reports it. -/
def Tallies (combination : Combination) (tree : Option Tree) (members : List (Provider Id))
    (i : Nat) : Prop :=
  match combination.composition with
  | .and => (∃ member ∈ members, i ∈ member.coversPrivileges tree none) ∧
      ∀ member ∈ members, i ∈ member.coversPrivileges tree none →
        i ∈ combination.reported tree member
  | .or => ∃ member ∈ members,
      i ∈ member.coversPrivileges tree none ∧ i ∈ combination.reported tree member

/-- The privileges that a composite of members lists. -/
def listed (combination : Combination) (tree : Option Tree) (members : List (Provider Id)) :
    PrivilegeBits :=
  let tally := (combination.tally tree members).run
  tally.1.withoutDeclared tally.2

/-- The privileges of a composite are named from those it lists. -/
theorem privileges_eq (root : NodeState) :
    ((combination.provider root members).privileges tree).run =
      combination.catalogue.names (combination.listed tree members) :=
  rfl

/-- A privilege is listed if a flag declares it and it tallies. -/
theorem mem_listed :
    i ∈ combination.listed tree members ↔
      i ∈ (Mask.declared : PrivilegeBits) ∧ combination.Tallies tree members i := by
  obtain ⟨granted, denied⟩ := combination.mem_tally tree members i
  rw [listed, Mask.mem_withoutDeclared, granted, denied, and_comm, Tallies]
  refine and_congr_right fun declared => ?_
  cases combination.composition with
  | or => simp
  | and =>
      simp only [declared, true_and, not_exists, not_and, not_not]
      refine and_congr_left fun agreed => ?_
      exact exists_congr fun member => and_congr_right fun present =>
        and_iff_left_of_imp (agreed member present)

/-- Privileges are tallied alike in whatever order the members stand. -/
theorem tallies_perm {others : List (Provider Id)} (reordered : others.Perm members) :
    combination.Tallies tree others i ↔ combination.Tallies tree members i := by
  unfold Tallies
  cases combination.composition <;> simp only [reordered.mem_iff]

/-- **Privileges are tallied one by one.** A composite writes down, by its catalogue, those declared
privileges that its members grant by their tally, in whatever order they stand. Under `and` it lists
nothing that a member covers whose report it cannot read. -/
theorem privileges_tallied (combination : Combination) (root : NodeState) (tree : Option Tree)
    (members : List (Provider Id)) :
    ∃ listed : PrivilegeBits,
      ((combination.provider root members).privileges tree).run =
        combination.catalogue.names listed ∧
      (∀ i, i ∈ listed ↔
        i ∈ (Mask.declared : PrivilegeBits) ∧ combination.Tallies tree members i) ∧
      (∀ others : List (Provider Id), others.Perm members →
        ((combination.provider root others).privileges tree).run =
          ((combination.provider root members).privileges tree).run) ∧
      (combination.composition = .and → ∀ member ∈ members, ∀ error,
        combination.catalogue.bits (member.privileges tree).run = .error error →
          ∀ i ∈ member.coversPrivileges tree none, i ∉ listed) := by
  refine ⟨combination.listed tree members, privileges_eq root, fun i => mem_listed, ?_, ?_⟩
  · intro others reordered
    have same : combination.listed tree others = combination.listed tree members := by
      apply Mask.ext
      intro i
      rw [mem_listed, mem_listed, tallies_perm reordered]
    rw [privileges_eq, privileges_eq, same]
  · intro unanimous member present error unread i covered held
    have tallied := (mem_listed.mp held).2
    simp only [Tallies, unanimous] at tallied
    have known := tallied.2 member present covered
    rw [reported_of_error unread] at known
    exact Mask.notMem_empty i known

end Authorization.Combination
