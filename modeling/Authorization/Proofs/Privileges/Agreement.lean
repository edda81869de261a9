import Authorization.Proofs.Privileges.Opinion

/-!
# Agreement about privileges

A composite can be asked whether named privileges are granted, which privileges are granted, and
whether permissions are granted. With the built-in catalogue the answers agree: named privileges are
granted exactly if they are among the listed ones (`privileges_agree`), and exactly if the
permissions that they stand for are granted (`privileges_are_permissions`), on trees as on the
repository.
-/

namespace Authorization

namespace World

variable (world : World) (tree : Option Tree)

/-- The opinion of a policy provider about a permission on a tree, or on the repository without
one. -/
def opinionOn (i : Nat) (leaf : PolicyLeaf) : Option Bool :=
  Mask.opinion (world.policy leaf).covers ((world.policies leaf.id).granted tree) i

/-- The opinion about a privilege is the one about the permission that it stands for. -/
theorem privilegeOpinion_eq {privilege permission : Nat}
    (meant : (privilege, permission) ∈ PrivilegeBits.meanings) :
    world.privilegeOpinion tree privilege = world.opinionOn tree permission := by
  funext leaf
  exact PrivilegeBits.opinion_ofPermissions meant _ _

/-- Opinions grant privileges exactly if they grant the permissions that these stand for. -/
theorem forall_privilegeOpinion_iff {bits : PrivilegeBits} (declared : bits ⊆ Mask.declared)
    (arrangement : Arrangement PolicyLeaf) :
    (∀ i ∈ bits, arrangement.opinion (world.privilegeOpinion tree i) = some true) ↔
      ∀ i ∈ bits.permissions, arrangement.opinion (world.opinionOn tree i) = some true := by
  constructor
  · intro granted permission member
    obtain ⟨privilege, inside, meant⟩ := PrivilegeBits.exists_of_mem_permissions member
    rw [← world.privilegeOpinion_eq tree meant]
    exact granted privilege inside
  · intro granted privilege member
    have bit := Mask.mem_declared.mp (Mask.subset_iff.mp declared privilege member)
    obtain ⟨meaning, meant, rfl⟩ := PrivilegeBits.exists_meaning privilege bit
    rw [world.privilegeOpinion_eq tree meant]
    exact granted meaning.2 ((PrivilegeBits.mem_permissions meant).mpr member)

/-- A provider as a party to the decision about the repository. -/
def asksRepository (arrangement : Arrangement PolicyLeaf) : Voter Id .permission where
  covers := (arrangement.provider world.seen).covers none none
  grants := (arrangement.provider world.seen).isGrantedRepository

theorem asksRepository_composite (combination : Combination)
    (members : List (Arrangement PolicyLeaf)) :
    world.asksRepository (.composite combination members) =
      { covers := fun asked => members.foldl
          (fun covered member => covered ∪ (world.asksRepository member).covers asked) ∅
        grants := fun asked =>
          combination.composition.grants asked (members.map world.asksRepository) } := by
  simp only [asksRepository, Arrangement.provider_composite, Combination.provider, List.map_map,
    List.foldl_map]
  rfl

/-- What an arrangement grants at the repository follows its opinion. -/
theorem follows_asksRepository (arrangement : Arrangement PolicyLeaf) :
    (world.asksRepository arrangement).Follows fun i =>
      arrangement.opinion (world.opinionOn none i) := by
  induction arrangement with
  | empty => exact follows_none fun asked => rfl
  | leaf provider => exact Mask.follows_opinion _ _
  | composite combination members ih =>
      simp only [Arrangement.opinion_composite, asksRepository_composite]
      apply combination.composition.follows_combined ih
      intro asked i
      exact Mask.mem_foldl_union

/-- A composite's decision about the repository grants permissions exactly if it has some to grant
and the opinion grants each of them. -/
theorem repository_isGranted_iff (combination : Combination)
    (members : List (Arrangement PolicyLeaf)) (asked : Permissions) :
    (((Arrangement.composite combination members).repository world.seen).run.isGranted world.seen
        asked).run = true ↔
      asked ≠ ∅ ∧ ∀ i ∈ asked,
        (Arrangement.composite combination members).opinion (world.opinionOn none i) =
          some true := by
  simp only [Arrangement.opinion_composite]
  exact combination.composition.grants_of_follows fun member _ =>
    world.follows_asksRepository member

variable {combination : Combination} {members : List (Arrangement PolicyLeaf)}
  {names : List String}

/-- **Listing and asking agree.** A composite with the built-in catalogue, asked whether named
privileges are granted on a tree or on the repository, fails exactly if a name is unknown, with the
first such name. Otherwise it says yes to no names at all, and to some names exactly if the
privileges that they stand for are among those that it lists. -/
theorem privileges_agree (world : World)
    (builtIn : (Arrangement.composite combination members).BuiltIn) (tree : Option Tree)
    (names : List String) :
    let provider : Provider Id := (Arrangement.composite combination members).provider world.seen
    let answer := (provider.hasPrivileges tree names).run.run
    (∀ error, answer = .error error ↔
      ∃ name, names.find? (fun name => (PrivilegeBits.ofName? name).isNone) = some name ∧
        error = .unknownPrivilege name) ∧
    ((∀ name ∈ names, (PrivilegeBits.ofName? name).isSome) →
      (names = [] → answer = .ok true) ∧
      (names ≠ [] → ∃ requested listed,
        PrivilegeCatalogue.builtin.bits names = .ok requested ∧
        PrivilegeCatalogue.builtin.bits (provider.privileges tree).run = .ok listed ∧
        answer = .ok (decide (requested ⊆ listed)))) := by
  intro provider answer
  have translates := builtIn combination List.mem_cons_self
  constructor
  · intro error
    rw [← PrivilegeBits.ofNames_eq_error_iff]
    cases read : PrivilegeBits.ofNames names ∅ with
    | error first =>
        have failed : answer = .error first :=
          congrArg (fun outcome => outcome.run.run) (hasPrivileges_unknown translates read)
        simp [failed]
    | ok requested =>
        obtain ⟨granted, answered, -⟩ := world.hasPrivileges_eq tree builtIn read
        have given : answer = .ok granted := congrArg (fun outcome => outcome.run.run) answered
        simp [given]
  · intro known
    have read : PrivilegeBits.ofNames names ∅ = .ok (PrivilegeBits.meaningOf names) :=
      PrivilegeBits.ofNames_eq_ok_iff.mpr ⟨known, rfl⟩
    obtain ⟨granted, answered, verdict⟩ := world.hasPrivileges_eq tree builtIn read
    have given : answer = .ok granted := congrArg (fun outcome => outcome.run.run) answered
    constructor
    · rintro rfl
      have yes : granted = true := verdict.mpr fun i member => absurd member (Mask.notMem_empty i)
      rw [given, yes]
    · intro filled
      obtain ⟨listed, reread, holds⟩ := (world.lists_provider tree builtIn).read
      refine ⟨_, listed, read, reread, ?_⟩
      rw [given, Except.ok.injEq, Bool.eq_iff_iff, verdict, decide_eq_true_iff, Mask.subset_iff]
      exact forall₂_congr fun i _ => (holds i).symm

/-- Two providers must agree, and one of them withholds reading of properties. Only reading of nodes
is listed, so reading of both is not granted; a name that is not known is reported. -/
theorem reading_of_nodes_listed :
    let world := World.initial none fun
      | 0 => ({ covers := .read } : Policy).allow "/" .read
      | _ => { covers := .readProperty }
    let arrangement := Arrangement.composite (.plain 0 .and)
      [.leaf (.plain 0), .composite (.plain 1 .or) [.leaf (.plain 1)]]
    let provider : Provider Id := arrangement.provider world.seen
    let tree := some (Tree.root none)
    arrangement.BuiltIn ∧
      (provider.privileges tree).run = ["rep:readNodes"] ∧
      (provider.hasPrivileges tree ["rep:readNodes"]).run.run = .ok true ∧
      (provider.hasPrivileges tree ["jcr:read"]).run.run = .ok false ∧
      (provider.hasPrivileges tree ["jcr:read", "jcr:fly"]).run.run =
        .error (.unknownPrivilege "jcr:fly") := by
  intro world arrangement provider tree
  have builtIn : arrangement.BuiltIn := by
    refine Arrangement.builtIn_plain 0 .and fun member present => ?_
    rcases List.mem_pair.mp present with rfl | rfl
    · exact Arrangement.builtIn_leaf _
    · refine Arrangement.builtIn_plain 1 .or fun inner inside => ?_
      rw [List.mem_singleton.mp inside]
      exact Arrangement.builtIn_leaf _
  have names : (provider.privileges tree).run = ["rep:readNodes"] := by decide +kernel
  have answer {asked : List String} (filled : asked ≠ []) {bits : PrivilegeBits}
      (known : (∀ name ∈ asked, (PrivilegeBits.ofName? name).isSome) ∧
        PrivilegeBits.meaningOf asked = bits) :
      (provider.hasPrivileges tree asked).run.run = .ok (decide (bits ⊆ Mask.single 0)) := by
    obtain ⟨-, agreed⟩ := privileges_agree world builtIn tree asked
    obtain ⟨requested, listed, read, reread, given⟩ := (agreed known.1).2 filled
    have stand : PrivilegeBits.ofNames asked ∅ = .ok bits :=
      PrivilegeBits.ofNames_eq_ok_iff.mpr known
    have alone : PrivilegeBits.ofNames ["rep:readNodes"] ∅ = .ok (.single 0) :=
      PrivilegeBits.ofNames_eq_ok_iff.mpr (by decide +kernel)
    rw [names] at reread
    rw [given, Except.ok.inj (read.symm.trans stand), Except.ok.inj (reread.symm.trans alone)]
  refine ⟨builtIn, names, ?_, ?_, ?_⟩
  · exact @answer ["rep:readNodes"] (by decide) (.single 0) (by decide +kernel)
  · exact @answer ["jcr:read"] (by decide) (.single 0 ∪ .single 1) (by decide +kernel)
  · exact ((privileges_agree world builtIn tree ["jcr:read", "jcr:fly"]).1 _).mpr
      ⟨"jcr:fly", by decide +kernel, rfl⟩

/-- **Privileges stand for permissions.** A composite with the built-in catalogue, asked whether
some known privileges are granted, answers as when it is asked whether the permissions that they
stand for are granted, on any tree and at repository level. -/
theorem privileges_are_permissions (world : World)
    (builtIn : (Arrangement.composite combination members).BuiltIn) (filled : names ≠ [])
    {bits : PrivilegeBits} (known : PrivilegeCatalogue.builtin.bits names = .ok bits) :
    let arrangement := Arrangement.composite combination members
    let provider : Provider Id := arrangement.provider world.seen
    (∀ tree : Tree, (provider.hasPrivileges (some tree) names).run.run =
      .ok (provider.isGranted tree none bits.permissions).run) ∧
    (provider.hasPrivileges none names).run.run =
      .ok ((arrangement.repository world.seen).run.isGranted world.seen bits.permissions).run := by
  intro arrangement provider
  have declared : bits ⊆ Mask.declared := PrivilegeBits.subset_declared_of_ofNames known
  have meant := PrivilegeBits.permissions_ne_empty declared
    (PrivilegeBits.ne_empty_of_ofNames known filled)
  have agreed {tree : Option Tree} {granted : Bool} (decided : granted = true ↔
      bits.permissions ≠ ∅ ∧
        ∀ i ∈ bits.permissions, arrangement.opinion (world.opinionOn tree i) = some true) :
      (provider.hasPrivileges tree names).run.run = .ok granted := by
    obtain ⟨answer, answered, verdict⟩ := world.hasPrivileges_eq tree builtIn known
    have given : (provider.hasPrivileges tree names).run.run = .ok answer :=
      congrArg (fun outcome => outcome.run.run) answered
    rw [given, Except.ok.injEq, Bool.eq_iff_iff, verdict, decided, and_iff_right meant]
    exact world.forall_privilegeOpinion_iff tree declared arrangement
  exact ⟨fun tree => agreed (world.isGranted_iff combination members tree none _),
    agreed (world.repository_isGranted_iff combination members _)⟩

/-- Removing nodes is the eighth privilege and the seventh permission. It is granted on the
repository as both and on a hidden tree as neither. -/
theorem removal_granted_on_repository :
    let world := World.initial none fun _ =>
      (({ covers := .removeNode } : Policy).allow "/" .removeNode).grantRepository .removeNode
    let arrangement := Arrangement.composite (.plain 0 .or) [.leaf (.plain 0)]
    let provider : Provider Id := arrangement.provider world.seen
    arrangement.BuiltIn ∧
      (provider.hasPrivileges none ["jcr:removeNode"]).run.run = .ok true ∧
      ((arrangement.repository world.seen).run.isGranted world.seen .removeNode).run = true ∧
      (provider.hasPrivileges (some ⟨"/:hidden", none⟩) ["jcr:removeNode"]).run.run =
        .ok false := by
  intro world arrangement provider
  have builtIn : arrangement.BuiltIn := by
    refine Arrangement.builtIn_plain 0 .or fun member present => ?_
    rw [List.mem_singleton.mp present]
    exact Arrangement.builtIn_leaf _
  have stand : PrivilegeCatalogue.builtin.bits ["jcr:removeNode"] = .ok (.single 7) :=
    PrivilegeBits.ofNames_eq_ok_iff.mpr (by decide +kernel)
  have meant : PrivilegeBits.permissions (.single 7) = .removeNode := by decide
  obtain ⟨onTrees, onRepository⟩ := privileges_are_permissions world builtIn (by decide) stand
  rw [meant] at onRepository
  have granted : ((arrangement.repository world.seen).run.isGranted world.seen
      .removeNode).run = true := by decide
  refine ⟨builtIn, ?_, granted, ?_⟩
  · rw [onRepository, granted]
  · have denied : (provider.isGranted ⟨"/:hidden", none⟩ none .removeNode).run = false := by decide
    rw [onTrees, meant, denied]

end World

end Authorization
