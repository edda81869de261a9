import Authorization.Proofs.Composition.Purity
import Authorization.Proofs.Privileges.Cover
import Authorization.Proofs.Privileges.Tally

/-!
# Opinions on privileges

About one privilege an arrangement of policy providers has an opinion like the one about the
permission that the privilege stands for. A composite with the built-in catalogue puts privileges
to its members by their names, which are read back as they were written. So a question about known
names never fails (`hasPrivileges_eq`), and the answer goes by the opinions on the privileges that
the names stand for; the privileges that are listed are those that the opinions grant
(`lists_provider`).
-/

namespace Authorization

/-- Every composite of an arrangement translates privileges with the built-in catalogue. -/
def Arrangement.BuiltIn {L : Type} (arrangement : Arrangement L) : Prop :=
  ∀ combination ∈ arrangement.combinations, combination.catalogue = .builtin

theorem Arrangement.BuiltIn.member {L : Type} {combination : Combination}
    {members : List (Arrangement L)} (builtIn : (composite combination members).BuiltIn)
    {member : Arrangement L} (present : member ∈ members) : member.BuiltIn :=
  (forall_combinations.mp builtIn).2 member present

theorem Arrangement.builtIn_leaf {L : Type} (provider : L) : (leaf provider).BuiltIn :=
  fun _ listed => absurd listed List.not_mem_nil

theorem Arrangement.builtIn_plain {L : Type} (id : Nat) (composition : Composition)
    {members : List (Arrangement L)} (builtIn : ∀ member ∈ members, member.BuiltIn) :
    (Arrangement.composite (.plain id composition) members).BuiltIn :=
  forall_combinations.mpr ⟨rfl, builtIn⟩

theorem Arrangement.provider_composite {m : Type → Type} [Monad m] {L D : Type}
    (snapshot : Snapshot m L D) (combination : Combination) (members : List (Arrangement L)) :
    (composite combination members).provider snapshot =
      combination.provider (snapshot.root combination.id) (members.map (provider snapshot)) := by
  rw [provider, providers_eq_map]

namespace World

variable (world : World) (tree : Option Tree)

/-- The opinion of a policy provider about a privilege on a tree, or on the repository without
one. -/
def privilegeOpinion (privilege : Nat) (leaf : PolicyLeaf) : Option Bool :=
  Mask.opinion (PrivilegeBits.ofPermissions (world.policy leaf).covers)
    (PrivilegeBits.ofPermissions ((world.policies leaf.id).granted tree)) privilege

/-- A privilege is covered if it is asked for and some provider has an opinion on it. -/
theorem mem_coversPrivileges {arrangement : Arrangement PolicyLeaf} {asked : Option PrivilegeBits}
    {i : Nat} :
    i ∈ (arrangement.provider world.seen).coversPrivileges tree asked ↔
      (∀ bits ∈ asked, i ∈ bits) ∧
        (arrangement.opinion (world.privilegeOpinion tree i)).isSome := by
  induction arrangement with
  | empty => simp [Arrangement.provider, Provider.empty, Arrangement.opinion]
  | leaf provider =>
      rw [Arrangement.opinion, privilegeOpinion, Mask.opinion_isSome]
      cases asked <;> simp [Arrangement.provider, seen, snapshot, PolicyLeaf.provider, policy]
  | composite combination members ih =>
      rw [Arrangement.provider_composite, Arrangement.opinion_composite,
        Composition.verdict_isSome]
      simp only [Combination.provider, List.foldl_map, Mask.mem_foldl_union]
      constructor
      · rintro ⟨member, present, inside⟩
        obtain ⟨wanted, known⟩ := (ih member present).mp inside
        exact ⟨wanted, member, present, known⟩
      · rintro ⟨wanted, member, present, known⟩
        exact ⟨member, present, (ih member present).mpr ⟨wanted, known⟩⟩

/-- A member as it is asked about privileges, by the names that they are written with. -/
def asksByName (arrangement : Arrangement PolicyLeaf) :
    Voter (ExceptT AuthorizationError Id) .privilege where
  covers asked := (arrangement.provider world.seen).coversPrivileges tree (some asked)
  grants asked := (arrangement.provider world.seen).hasPrivileges tree (PrivilegeBits.toNames asked)

/-- A member as a party to the decision about privileges, a failure being no grant. -/
def asksPrivileges (arrangement : Arrangement PolicyLeaf) : Voter Id .privilege where
  covers := (world.asksByName tree arrangement).covers
  grants asked :=
    pure (((world.asksByName tree arrangement).grants asked).run.run.toOption.getD false)

variable {world tree}

/-- There are opinions about declared privileges only. -/
theorem mem_declared_of_privilegeOpinion {arrangement : Arrangement PolicyLeaf} {i : Nat}
    (known : (arrangement.opinion (world.privilegeOpinion tree i)).isSome) :
    i ∈ (Mask.declared : PrivilegeBits) := by
  obtain ⟨leaf, -, covered⟩ := Arrangement.opinion_isSome.mp known
  have member := Mask.opinion_isSome.mp covered
  exact Mask.subset_iff.mp (PrivilegeBits.ofPermissions_subset_declared _) i member

section Asking

variable {names : List String} {bits : PrivilegeBits} {combination : Combination}
  {members : List (Arrangement PolicyLeaf)}

/-- A policy has the privileges that its permissions stand for. -/
theorem hasPrivileges_leaf (leaf : PolicyLeaf) (known : PrivilegeBits.ofNames names ∅ = .ok bits) :
    ((Arrangement.leaf leaf).provider world.seen).hasPrivileges tree names =
      pure (decide
        (bits ⊆ PrivilegeBits.ofPermissions ((world.policies leaf.id).granted tree))) := by
  have read : PrivilegeCatalogue.builtin.bits names = .ok bits := known
  simp only [Arrangement.provider, seen, snapshot, PolicyLeaf.provider, read]
  rfl

/-- A composite reads the names and puts the privileges to its members. -/
theorem hasPrivileges_composite (translates : combination.catalogue = .builtin)
    (known : PrivilegeBits.ofNames names ∅ = .ok bits) :
    ((Arrangement.composite combination members).provider world.seen).hasPrivileges tree names =
      if bits.isEmpty then pure true
      else combination.composition.grants bits (members.map (world.asksByName tree)) := by
  have read : combination.catalogue.bits names = .ok bits := by rw [translates]; exact known
  have asked : (members.map (Arrangement.provider world.seen)).map (fun member =>
      ({ covers := fun asked => member.coversPrivileges tree (some asked)
         grants := fun asked => member.hasPrivileges tree (combination.catalogue.names asked) } :
        Voter (ExceptT AuthorizationError Id) .privilege)) =
      members.map (world.asksByName tree) := by
    rw [List.map_map, translates]
    rfl
  rw [Arrangement.provider_composite, ← asked]
  simp only [Combination.provider, read]
  rfl

/-- The first name that is not known is reported. -/
theorem hasPrivileges_unknown (translates : combination.catalogue = .builtin)
    {error : AuthorizationError} (unknown : PrivilegeBits.ofNames names ∅ = .error error) :
    ((Arrangement.composite combination members).provider world.seen).hasPrivileges tree names =
      throw error := by
  have read : combination.catalogue.bits names = .error error := by rw [translates]; exact unknown
  simp only [Arrangement.provider_composite, Combination.provider, read]
  rfl

/-- Members that never fail on known names give plain verdicts on declared privileges. -/
theorem plainly_asksPrivileges {member : Arrangement PolicyLeaf}
    (answered : ∀ {names : List String} {bits : PrivilegeBits},
      PrivilegeBits.ofNames names ∅ = .ok bits →
        ∃ answer, (member.provider world.seen).hasPrivileges tree names = pure answer)
    (within : bits ⊆ Mask.declared) :
    (world.asksByName tree member).Plainly (world.asksPrivileges tree member) bits where
  covers := rfl
  grants := by
    intro asked _ inside
    have declared : asked ⊆ Mask.declared := Mask.subset_trans inside within
    obtain ⟨answer, given⟩ := answered (PrivilegeBits.ofNames_toNames declared)
    have granted : (world.asksByName tree member).grants asked = pure answer := given
    simp only [asksPrivileges, granted]
    rfl

/-- Asked about known names, no provider fails. -/
theorem hasPrivileges_known {arrangement : Arrangement PolicyLeaf} (builtIn : arrangement.BuiltIn)
    (known : PrivilegeBits.ofNames names ∅ = .ok bits) :
    ∃ answer, (arrangement.provider world.seen).hasPrivileges tree names = pure answer := by
  induction arrangement generalizing names bits with
  | empty => exact ⟨false, rfl⟩
  | leaf provider => exact ⟨_, hasPrivileges_leaf provider known⟩
  | composite combination members ih =>
      rw [hasPrivileges_composite (builtIn combination List.mem_cons_self) known]
      split
      · exact ⟨true, rfl⟩
      · have within := PrivilegeBits.subset_declared_of_ofNames known
        rw [Composition.grants_pure fun member present =>
          plainly_asksPrivileges (ih member present (builtIn.member present)) within]
        exact ⟨_, rfl⟩

/-- A composite gives the verdict of its members about known privileges, of which it is asked for
some. -/
theorem grants_asksPrivileges (builtIn : (Arrangement.composite combination members).BuiltIn)
    (known : PrivilegeBits.ofNames names ∅ = .ok bits) (filled : bits ≠ ∅) :
    ((Arrangement.composite combination members).provider world.seen).hasPrivileges tree names =
      pure (combination.composition.grants bits (members.map (world.asksPrivileges tree))).run := by
  have within := PrivilegeBits.subset_declared_of_ofNames known
  rw [hasPrivileges_composite (builtIn combination List.mem_cons_self) known,
    if_neg (by simpa [Mask.isEmpty] using filled)]
  refine Composition.grants_pure (fun member present => ?_) combination.composition
  exact plainly_asksPrivileges (hasPrivileges_known (builtIn.member present)) within

variable (world tree) in
/-- Asked about privileges that it has opinions on, a provider goes by them. -/
theorem follows_asksPrivileges {arrangement : Arrangement PolicyLeaf}
    (builtIn : arrangement.BuiltIn) :
    (world.asksPrivileges tree arrangement).Follows fun i =>
      arrangement.opinion (world.privilegeOpinion tree i) := by
  have covers (arrangement : Arrangement PolicyLeaf) {asked : PrivilegeBits} {i : Nat} :
      i ∈ (world.asksPrivileges tree arrangement).covers asked ↔
        i ∈ asked ∧ (arrangement.opinion (world.privilegeOpinion tree i)).isSome :=
    (world.mem_coversPrivileges tree).trans (by simp)
  have known {arrangement : Arrangement PolicyLeaf} {asked : PrivilegeBits}
      (all : ∀ i ∈ asked, (arrangement.opinion (world.privilegeOpinion tree i)).isSome) :
      PrivilegeBits.ofNames (PrivilegeBits.toNames asked) ∅ = .ok asked :=
    PrivilegeBits.ofNames_toNames
      (Mask.subset_iff.mpr fun i member => mem_declared_of_privilegeOpinion (all i member))
  induction arrangement with
  | empty => exact follows_none fun asked => rfl
  | leaf provider =>
      refine ⟨covers _, fun {asked} filled all => ?_⟩
      have answer : ((world.asksPrivileges tree (.leaf provider)).grants asked).run =
          decide (asked ⊆ PrivilegeBits.ofPermissions
            ((world.policies provider.id).granted tree)) := by
        simp only [asksPrivileges, asksByName, hasPrivileges_leaf provider (known all)]
        rfl
      rw [answer, decide_eq_true_iff, Mask.subset_iff]
      refine forall₂_congr fun i member => ?_
      have covered := Mask.opinion_isSome.mp (all i member)
      rw [Arrangement.opinion, privilegeOpinion, Mask.opinion_eq_true]
      exact (and_iff_right covered).symm
  | composite combination members ih =>
      refine ⟨covers _, fun {asked} filled all => ?_⟩
      have answer : ((world.asksPrivileges tree (.composite combination members)).grants
          asked).run =
          (combination.composition.grants asked (members.map (world.asksPrivileges tree))).run := by
        simp only [asksPrivileges, asksByName, grants_asksPrivileges builtIn (known all) filled]
        rfl
      rw [answer, combination.composition.grants_of_follows fun member present =>
        ih member present (builtIn.member present)]
      simp only [ne_eq, filled, not_false_eq_true, true_and, Arrangement.opinion_composite]

variable (world tree) in
/-- A composite finds known privileges granted exactly if its opinion grants each of them. -/
theorem hasPrivileges_eq (builtIn : (Arrangement.composite combination members).BuiltIn)
    (known : PrivilegeBits.ofNames names ∅ = .ok bits) :
    ∃ answer, ((Arrangement.composite combination members).provider world.seen).hasPrivileges
        tree names = pure answer ∧
      (answer = true ↔ ∀ i ∈ bits, (Arrangement.composite combination members).opinion
        (world.privilegeOpinion tree i) = some true) := by
  by_cases bare : bits = ∅
  · refine ⟨true, ?_, by simp [bare]⟩
    rw [hasPrivileges_composite (builtIn combination List.mem_cons_self) known,
      if_pos (by simpa [Mask.isEmpty] using bare)]
  · refine ⟨_, grants_asksPrivileges builtIn known bare, ?_⟩
    rw [combination.composition.grants_of_follows fun member present =>
      world.follows_asksPrivileges tree (builtIn.member present)]
    simp only [ne_eq, bare, not_false_eq_true, true_and, Arrangement.opinion_composite]

end Asking

section Listing

/-- A provider covers the privileges that there is an opinion about, and lists those that the
opinion grants. -/
structure Lists (provider : Provider Id) (tree : Option Tree) (opinion : Nat → Option Bool) :
    Prop where
  covers : ∀ i, i ∈ provider.coversPrivileges tree none ↔ (opinion i).isSome
  declared : ∀ i, (opinion i).isSome → i ∈ (Mask.declared : PrivilegeBits)
  listed : ∃ listed : PrivilegeBits, (provider.privileges tree).run = listed.toNames ∧
    ∀ i, i ∈ listed ↔ opinion i = some true

/-- What a provider lists is read back as it was. -/
theorem Lists.read {provider : Provider Id} {opinion : Nat → Option Bool}
    (lists : Lists provider tree opinion) :
    ∃ listed, PrivilegeBits.ofNames (provider.privileges tree).run ∅ = .ok listed ∧
      ∀ i, i ∈ listed ↔ opinion i = some true := by
  obtain ⟨listed, written, granted⟩ := lists.listed
  have declared : listed ⊆ Mask.declared := by
    refine Mask.subset_iff.mpr fun i member => lists.declared i ?_
    rw [(granted i).mp member]
    rfl
  refine ⟨listed, ?_, granted⟩
  rw [written]
  exact PrivilegeBits.ofNames_toNames declared

/-- The tally of a composite holds what some member grants and, under `and`, what some member with
an opinion does not grant. -/
theorem mem_tally {combination : Combination} {ι : Type} {parts : List ι}
    {provider : ι → Provider Id} {opinion : ι → Nat → Option Bool}
    (translates : combination.catalogue = .builtin)
    (lists : ∀ part ∈ parts, Lists (provider part) tree (opinion part)) (i : Nat) :
    let tally := (combination.tally tree (parts.map provider)).run
    (i ∈ tally.1 ↔ ∃ part ∈ parts, opinion part i = some true) ∧
      (i ∈ tally.2 ↔ combination.composition = .and ∧
        ∃ part ∈ parts, (opinion part i).isSome ∧ opinion part i ≠ some true) := by
  obtain ⟨granted, denied⟩ := combination.mem_tally tree (parts.map provider) i
  have holds : ∀ part ∈ parts,
      (i ∈ combination.reported tree (provider part) ↔ opinion part i = some true) := by
    intro part present
    obtain ⟨listed, read, holds⟩ := (lists part present).read
    rw [Combination.reported_of_ok (by rw [translates]; exact read), holds]
  have covers := fun part present => (lists part present).covers i
  simp only [List.mem_map, exists_exists_and_eq_and] at granted denied
  refine ⟨granted.trans (exists_congr fun part => and_congr_right fun present => ?_),
    denied.trans (and_congr_right fun _ => ?_)⟩
  · rw [holds part present, covers part present]
    exact and_iff_right_of_imp fun held => by rw [held]; rfl
  · constructor
    · rintro ⟨-, part, present, covered, unreported⟩
      rw [holds part present] at unreported
      exact ⟨part, present, (covers part present).mp covered, unreported⟩
    · rintro ⟨part, present, known, ungranted⟩
      exact ⟨(lists part present).declared i known, part, present,
        (covers part present).mpr known, mt (holds part present).mp ungranted⟩

variable (world tree) in
/-- What a policy grants lies within what it covers. -/
theorem granted_subset_covers (leaf : PolicyLeaf) :
    (world.policies leaf.id).granted tree ⊆ (world.policy leaf).covers := by
  cases tree with
  | none =>
      rw [PolicyState.granted, Policy.grantedAtRepository]
      exact Mask.subset_iff.mpr fun i member => (Mask.mem_inter.mp member).2
  | some tree =>
      rw [PolicyState.granted]
      split
      · exact Mask.subset_iff.mpr fun i member => absurd member (Mask.notMem_empty i)
      · exact (world.policy leaf).grantedAt_subset_covers tree.path

/-- An arrangement that writes down what its opinion grants covers what it should. -/
theorem lists_of_listed {arrangement : Arrangement PolicyLeaf}
    (listed : ∃ listed : PrivilegeBits,
      ((arrangement.provider world.seen).privileges tree).run = listed.toNames ∧
        ∀ i, i ∈ listed ↔ arrangement.opinion (world.privilegeOpinion tree i) = some true) :
    Lists (arrangement.provider world.seen) tree fun i =>
      arrangement.opinion (world.privilegeOpinion tree i) where
  covers i := (world.mem_coversPrivileges tree).trans (by simp)
  declared i known := mem_declared_of_privilegeOpinion known
  listed := listed

variable (world tree) in
/-- An arrangement lists the privileges that its opinion grants. -/
theorem lists_provider {arrangement : Arrangement PolicyLeaf} (builtIn : arrangement.BuiltIn) :
    Lists (arrangement.provider world.seen) tree fun i =>
      arrangement.opinion (world.privilegeOpinion tree i) := by
  induction arrangement with
  | empty =>
      have bare : PrivilegeBits.toNames ∅ = [] := by decide
      exact lists_of_listed ⟨∅, bare.symm, by simp [Arrangement.opinion]⟩
  | leaf provider =>
      have within := PrivilegeBits.ofPermissions_mono (world.granted_subset_covers tree provider)
      refine lists_of_listed
        ⟨PrivilegeBits.ofPermissions ((world.policies provider.id).granted tree), rfl, ?_⟩
      intro i
      rw [Arrangement.opinion, privilegeOpinion, Mask.opinion_eq_true]
      exact (and_iff_right_of_imp (Mask.subset_iff.mp within i)).symm
  | composite combination members ih =>
      have translates := builtIn combination List.mem_cons_self
      have lists := fun member present => ih member present (builtIn.member present)
      let tally := (combination.tally tree (members.map (Arrangement.provider world.seen))).run
      refine lists_of_listed ⟨tally.1.withoutDeclared tally.2, ?_, fun i => ?_⟩
      · rw [Arrangement.provider_composite]
        simp only [Combination.provider, translates]
        rfl
      · obtain ⟨granted, denied⟩ := mem_tally translates lists i
        rw [Mask.mem_withoutDeclared, granted, denied, ← Composition.verdict_eq_true_iff,
          ← Arrangement.opinion_composite]
        refine and_iff_left_of_imp fun held => ?_
        have known : ((Arrangement.composite combination members).opinion
            (world.privilegeOpinion tree i)).isSome := by rw [held]; rfl
        exact mem_declared_of_privilegeOpinion known

end Listing

end World

end Authorization
