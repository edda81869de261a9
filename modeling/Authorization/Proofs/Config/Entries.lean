import Authorization.Config.Basic
import Authorization.Proofs.Decision.Likeness

/-!
# Entries that are heeded

A policy looks entries up by the canonical texts of the places on the way to a node. A configured
entry whose path is spelled otherwise is accepted, but no place has this text, so what it allows and
denies never takes effect (`entries_heeded`). It shows only in that a decision above it no longer
lets everything below be read.
-/

namespace Authorization

/-- Whether the path of an entry is spelled as policies look it up. -/
def ModuleEntry.isHeeded (entry : ModuleEntry) : Bool := Path.canonical entry.path == entry.path

/-- What an entry makes of what is allowed and denied at its path already. -/
def ModuleEntry.amend (entry : ModuleEntry) (found : PolicyEntry) : PolicyEntry where
  allow := found.allow ∪ entry.allow
  deny := found.deny ∪ entry.deny

/-- The module with those of its entries that are heeded. -/
def ModuleConfig.heeded (module : ModuleConfig) : ModuleConfig :=
  { module with entries := module.entries.filter ModuleEntry.isHeeded }

/-- The configuration with those entries of its modules that are heeded. -/
def Configuration.heeded (config : Configuration) : Configuration :=
  { config with modules := config.modules.map ModuleConfig.heeded }

namespace Policy

/-- The policy with an entry of a module added. -/
def enter (policy : Policy) (entry : ModuleEntry) : Policy :=
  (policy.allow entry.path entry.allow).deny entry.path entry.deny

variable {policy other : Policy} {entries : List ModuleEntry} {path : String}

/-- One more entry amends what the policy has at its path, and nothing elsewhere. -/
theorem find?_enter (policy : Policy) (entry : ModuleEntry) (path : String) :
    (policy.enter entry).entries.find? path =
      if entry.path = path then
        some (entry.amend ((policy.entries.find? path).getD {}))
      else policy.entries.find? path := by
  simp only [enter, deny, allow, Dictionary.find?_insert, if_true, Option.getD_some]
  split
  · rename_i here
    rw [here]
    rfl
  · rfl

/-- What is found at a path once entries were added is what those at this path make of it. -/
theorem find?_foldl_enter :
    (entries.foldl enter policy).entries.find? path =
      entries.foldl (fun found entry =>
        if entry.path = path then some (entry.amend (found.getD {})) else found)
        (policy.entries.find? path) := by
  induction entries generalizing policy with
  | nil => rfl
  | cons entry entries ih => rw [List.foldl_cons, ih, find?_enter, List.foldl_cons]

theorem covers_foldl_enter : (entries.foldl enter policy).covers = policy.covers :=
  List.foldlRecOn (motive := fun entered : Policy => entered.covers = policy.covers) entries enter
    rfl fun _ same _ _ => same

theorem repository_foldl_enter : (entries.foldl enter policy).repository = policy.repository :=
  List.foldlRecOn (motive := fun entered : Policy => entered.repository = policy.repository) entries
    enter rfl fun _ same _ _ => same

theorem sorted_foldl_enter (sorted : policy.entries.Sorted) :
    (entries.foldl enter policy).entries.Sorted :=
  List.foldlRecOn (motive := fun entered : Policy => entered.entries.Sorted) entries enter sorted
    fun _ sorted _ _ => Dictionary.sorted_insert (Dictionary.sorted_insert sorted _ _) _ _

/-- Among the entries that are heeded, those at a path are the same as among all if the path is
canonical, and there are none otherwise. -/
theorem find?_filter_heeded (bare : policy.entries.find? path = none) :
    ((entries.filter ModuleEntry.isHeeded).foldl enter policy).entries.find? path =
      if Path.canonical path = path then (entries.foldl enter policy).entries.find? path
      else none := by
  rw [find?_foldl_enter, find?_foldl_enter, bare]
  -- Nothing was found at first, but on the way there may be something already.
  generalize none = found
  induction entries generalizing found with
  | nil => simp
  | cons entry entries ih =>
      cases heeded : entry.isHeeded with
      | true =>
          rw [List.filter_cons_of_pos heeded, List.foldl_cons, List.foldl_cons, ih]
          split
          · rfl
          · rename_i other
            have elsewhere : entry.path ≠ path := by
              rintro rfl
              exact other (beq_iff_eq.mp heeded)
            rw [if_neg elsewhere]
      | false =>
          rw [List.filter_cons_of_neg (by simp [heeded]), List.foldl_cons, ih]
          split
          · rename_i canonical
            have elsewhere : entry.path ≠ path := by
              rintro rfl
              exact absurd heeded (by simp [ModuleEntry.isHeeded, canonical])
            rw [if_neg elsewhere]
          · rfl

/-- Policies that cover the same and hold the same entries at canonical paths grant the same. -/
theorem grantedAt_congr_entries (covers : policy.covers = other.covers)
    (same : ∀ path, Path.canonical path = path →
      policy.entries.find? path = other.entries.find? path) (path : String) :
    policy.grantedAt path = other.grantedAt path := by
  have applied {names : List String} (named : ∀ name ∈ names, Path.IsName name)
      (inherited : Permissions) : policy.apply (Path.ofElements names) inherited =
        other.apply (Path.ofElements names) inherited := by
    have canonical : Path.canonical (Path.ofElements names) = Path.ofElements names := by
      rw [Path.canonical, Path.elements_ofElements named]
    rw [apply, apply, same _ canonical, covers]
  have named : ∀ name ∈ Path.elements path, Path.IsName name :=
    fun _ member => Path.isName_of_mem_elements member
  have spelled := Path.elements_ofElements named
  rw [← grantedAt_congr spelled, ← grantedAt_congr spelled]
  generalize Path.elements path = names at named
  induction names using List.reverseRecOn with
  | nil => exact applied named ∅
  | append_singleton front last ih =>
      have above : ∀ name ∈ front, Path.IsName name :=
        fun name member => named name (List.mem_append_left _ member)
      have below := named last (by simp)
      rw [grantedAt_ofElements above below, grantedAt_ofElements above below, ih above,
        applied named]

/-- What an entry denies at its path stays denied whatever entries are added. -/
theorem denied_foldl_enter {i : Nat}
    (held : ∃ found, policy.entries.find? path = some found ∧ i ∈ found.deny) :
    ∃ found, (entries.foldl enter policy).entries.find? path = some found ∧ i ∈ found.deny := by
  refine List.foldlRecOn (motive := fun entered : Policy =>
    ∃ found, entered.entries.find? path = some found ∧ i ∈ found.deny) entries enter held ?_
  rintro entered ⟨found, known, denied⟩ entry -
  rw [find?_enter]
  split
  · refine ⟨_, rfl, Mask.mem_union.mpr (.inl ?_)⟩
    rw [known]
    exact denied
  · exact ⟨found, known, denied⟩

/-- What an entry of the module denies is denied by the policy's entry at its path. -/
theorem denied_of_mem {i : Nat} {entry : ModuleEntry} (listed : entry ∈ entries)
    (denied : i ∈ entry.deny) :
    ∃ found, (entries.foldl enter policy).entries.find? entry.path = some found ∧
      i ∈ found.deny := by
  obtain ⟨front, rest, rfl⟩ := List.append_of_mem listed
  rw [List.foldl_append, List.foldl_cons]
  refine denied_foldl_enter ?_
  rw [find?_enter, if_pos rfl]
  exact ⟨_, rfl, Mask.mem_union.mpr (.inr denied)⟩

/-- What an entry denies is not granted at its path, whatever is inherited. -/
theorem notMem_apply {i : Nat} {found : PolicyEntry}
    (held : policy.entries.find? path = some found) (denied : i ∈ found.deny)
    (inherited : Permissions) : i ∉ policy.apply path inherited := by
  rw [apply, held, Mask.mem_inter, Mask.mem_withoutDeclared]
  exact fun granted => granted.1.1.2 denied

/-- What is granted at a path is what the entry at its canonical spelling makes of what is
inherited. -/
theorem grantedAt_eq_apply (policy : Policy) (path : String) :
    ∃ inherited, policy.grantedAt path = policy.apply (Path.canonical path) inherited := by
  have named : ∀ name ∈ Path.elements path, Path.IsName name :=
    fun _ member => Path.isName_of_mem_elements member
  rw [← grantedAt_congr (Path.elements_canonical path), Path.canonical]
  rcases List.eq_nil_or_concat (Path.elements path) with bare | ⟨front, last, split⟩
  · exact ⟨∅, by rw [bare]; rfl⟩
  · rw [List.concat_eq_append] at split
    rw [split] at named ⊢
    have above : ∀ name ∈ front, Path.IsName name :=
      fun name member => named name (List.mem_append_left _ member)
    exact ⟨_, grantedAt_ofElements above (named last (by simp))⟩

end Policy

namespace ModuleConfig

variable (module : ModuleConfig)

/-- The policy of a module without its entries. -/
def blank : Policy := Policy.grantRepository { covers := module.covers } module.repository

theorem policy_eq : module.policy = module.entries.foldl Policy.enter module.blank := rfl

/-- Entries at paths that are spelled in another way than usual are left out, and no others. -/
theorem find?_heeded (path : String) :
    module.heeded.policy.entries.find? path =
      if Path.canonical path = path then module.policy.entries.find? path else none :=
  Policy.find?_filter_heeded rfl

/-- Leaving out entries that are not heeded changes nothing that is granted, and may lift denials
below a place only. -/
theorem relaxes_heeded : module.heeded.policy.Relaxes module.policy where
  alike := by
    have covers : module.heeded.policy.covers = module.policy.covers := by
      rw [policy_eq, policy_eq, Policy.covers_foldl_enter, Policy.covers_foldl_enter]
      rfl
    have repository : module.heeded.policy.repository = module.policy.repository := by
      rw [policy_eq, policy_eq, Policy.repository_foldl_enter, Policy.repository_foldl_enter]
      rfl
    refine ⟨covers, Policy.grantedAt_congr_entries covers fun path canonical => ?_, ?_⟩
    · rw [find?_heeded, if_pos canonical]
    · rw [Policy.grantedAtRepository, Policy.grantedAtRepository, covers, repository]
  denies := by
    intro path asked denied
    obtain ⟨⟨place, entry⟩, listed, denying⟩ := List.any_eq_true.mp denied
    have sorted : module.heeded.policy.entries.Sorted :=
      Policy.sorted_foldl_enter List.Pairwise.nil
    have found := Dictionary.find?_of_mem sorted listed
    rw [find?_heeded] at found
    split at found
    · exact List.any_eq_true.mpr ⟨_, Dictionary.mem_of_find? found, denying⟩
    · exact absurd found (by simp)

variable {module}

/-- What an entry that is heeded denies is not granted at its path, however this is spelled. -/
theorem notMem_grantedAt {entry : ModuleEntry} (listed : entry ∈ module.entries)
    (heeded : entry.isHeeded = true) {i : Nat} (denied : i ∈ entry.deny) {spelling : String}
    (there : Path.elements spelling = Path.elements entry.path) :
    i ∉ module.policy.grantedAt spelling := by
  obtain ⟨found, held, withheld⟩ := Policy.denied_of_mem listed denied
  obtain ⟨inherited, granted⟩ := module.policy.grantedAt_eq_apply spelling
  have canonical : Path.canonical spelling = entry.path := by
    rw [Path.canonical, there]
    exact beq_iff_eq.mp heeded
  rw [granted, canonical]
  exact Policy.notMem_apply held withheld inherited

end ModuleConfig

namespace Configuration

variable (config : Configuration)

theorem leaves_heeded : config.heeded.leaves = config.leaves := by
  rw [leaves, leaves, heeded, List.zipIdx_map, List.map_map]
  rfl

theorem provider_heeded : config.heeded.provider = config.provider := by
  rw [provider, provider, leaves_heeded]
  rfl

/-- Without the entries that are not heeded a policy grants the same, and denies no more below. -/
theorem relaxes_policyOf (i : Nat) : (config.heeded.policyOf i).Relaxes (config.policyOf i) := by
  rw [policyOf, policyOf, heeded, List.getElem?_map]
  cases config.modules[i]? with
  | none => exact ⟨⟨rfl, fun _ => rfl, rfl⟩, fun _ _ => id⟩
  | some module => exact module.relaxes_heeded

theorem standard_provider : World.Standard config.provider := by
  rw [provider]
  match config.leaves with
  | [] => exact fun _ listed => absurd listed List.not_mem_nil
  | [leaf] => exact World.standard_leaf leaf
  | first :: second :: rest =>
      refine Arrangement.forall_combinations.mpr ⟨⟨_, rfl⟩, fun member present => ?_⟩
      have listed : member ∈ (first :: second :: rest).map Arrangement.leaf := present
      obtain ⟨leaf, -, rfl⟩ := List.mem_map.mp listed
      exact World.standard_leaf leaf

variable {config}

/-- Leaving out entries makes no fault. -/
theorem moduleFault?_heeded {modules : List ModuleConfig} {taken : List String}
    (sound : moduleFault? modules taken = none) :
    moduleFault? (modules.map ModuleConfig.heeded) taken = none := by
  induction modules generalizing taken with
  | nil => rfl
  | cons module modules ih =>
      rw [moduleFault?] at sound
      split at sound
      · exact absurd sound (Option.some_ne_none _)
      rename_i named
      split at sound
      · exact absurd sound (Option.some_ne_none _)
      rename_i distinct
      split at sound
      · exact absurd sound (Option.some_ne_none _)
      rename_i absolute
      have still : module.heeded.entries.find? (fun entry => !Path.isAbsolute entry.path) = none :=
        List.find?_eq_none.mpr fun entry listed =>
          List.find?_eq_none.mp absolute entry (List.mem_filter.mp listed).1
      rw [List.map_cons, moduleFault?, still]
      exact (if_neg named).trans ((if_neg distinct).trans (ih sound))

theorem fault?_heeded (sound : config.fault? = none) : config.heeded.fault? = none := by
  rw [fault?] at sound ⊢
  split at sound
  · exact absurd sound (Option.some_ne_none _)
  · rename_i absolute
    rw [heeded, absolute]
    exact moduleFault?_heeded sound

/-- What can be built is what nothing is wrong with. -/
theorem build_eq_ok_iff {deployment : Deployment} :
    config.build = .ok deployment ↔ config.fault? = none ∧
      deployment = { world := .initial config.contentRoot config.policyOf
                     provider := config.provider } := by
  rw [build, validate]
  cases config.fault? with
  | none => exact ⟨fun built => ⟨rfl, (Except.ok.inj built).symm⟩, fun same => same.2 ▸ rfl⟩
  | some fault => exact ⟨fun built => (nomatch built), fun same => (nomatch same.1)⟩

/-- **Entries that are heeded.** A configuration that is accepted stays so without those entries
whose paths are not spelled in the canonical way, and its provider then gives the same answers: what
such an entry allows and denies is ignored. Only decisions may differ in that they let everything
below be read where before an ignored entry denied it below. What the other entries deny is not
granted at their nodes by the policy that is in force for their module, however the paths of these
are spelled. -/
theorem entries_heeded {config : Configuration} {deployment : Deployment}
    (built : config.build = .ok deployment) :
    ∃ spared : Deployment, config.heeded.build = .ok spared ∧
      spared.provider = deployment.provider ∧
      spared.answers = deployment.answers ∧
      (∀ asked, ((spared.provider.repository spared.snapshot).run.isGranted
          spared.snapshot asked).run =
        ((deployment.provider.repository deployment.snapshot).run.isGranted
          deployment.snapshot asked).run) ∧
      (∀ names permission other,
        World.Reached deployment.world deployment.provider names permission →
        World.Reached spared.world spared.provider names other →
          (other.answers spared.snapshot).Extends (permission.answers deployment.snapshot)) ∧
      ∀ id module, config.modules[id]? = some module →
        ∀ entry ∈ module.entries, entry.isHeeded = true →
          ∀ spelling, Path.elements spelling = Path.elements entry.path →
            ∀ i ∈ entry.deny, i ∉ (deployment.world.policies id).policy.grantedAt spelling := by
  obtain ⟨sound, rfl⟩ := build_eq_ok_iff.mp built
  have relaxes (leaf : PolicyLeaf) := config.relaxes_policyOf leaf.id
  have alike : World.Alike (.initial config.heeded.contentRoot config.heeded.policyOf)
      (.initial config.contentRoot config.policyOf) config.provider :=
    ⟨fun _ _ => rfl, fun leaf _ => (relaxes leaf).alike⟩
  -- Entries that are not heeded count only where it is asked what is denied below a place.
  have same := alike.provider_eq fun _ _ => rfl
  refine ⟨{ world := .initial config.heeded.contentRoot config.heeded.policyOf
            provider := config.provider }, ?_, rfl, same, fun asked => ?_, ?_, ?_⟩
  · rw [← config.provider_heeded]
    exact build_eq_ok_iff.mpr ⟨fault?_heeded sound, rfl⟩
  · have granted (world : World) :
        ((config.provider.repository world.seen).run.isGranted world.seen asked).run =
          ((config.provider.provider world.seen).isGrantedRepository asked).run :=
      congrArg Id.run (World.isGranted_repository world config.provider asked : (_ : Id Bool) = _)
    exact (granted _).trans ((congrArg (Provider.isGrantedRepository · asked) same).trans
      (granted _).symm)
  · intro names permission other reached again
    exact reached.answers_alike config.standard_provider (fun leaf _ => relaxes leaf) again
  · intro id module listed entry entered heeded spelling there i denied
    have inForce : config.policyOf id = module.policy := by
      rw [policyOf, listed]
      rfl
    have withheld := ModuleConfig.notMem_grantedAt entered heeded denied there
    rw [← inForce] at withheld
    exact withheld

/-- A module lets everything be read, denies it at one path, and denies it at another path that it
spells with a slash at its end. The provider answers as without the latter denial, and its policy
does not grant what the former one denies, however many slashes are written. -/
theorem secret_withheld_however_spelled :
    let heeded : List ModuleEntry := [⟨"/", .read, ∅⟩, ⟨"/secret", ∅, .read⟩]
    let ignored : ModuleEntry := ⟨"/open/", ∅, .read⟩
    let module (more : List ModuleEntry) : ModuleConfig :=
      { name := "acl", covers := .read, entries := heeded ++ more }
    let config (more : List ModuleEntry) : Configuration :=
      { content := ["/open", "/secret"], modules := [module more] }
    ∃ deployment spared, (config [ignored]).build = .ok deployment ∧
      (config []).build = .ok spared ∧ spared.answers = deployment.answers ∧
      ∀ i ∈ Permissions.read,
        i ∉ (deployment.world.policies 0).policy.grantedAt "//secret/" := by
  intro heeded ignored module config
  have built := build_eq_ok_iff.mpr ⟨(by decide : (config [ignored]).fault? = none), rfl⟩
  have sparing : (config [ignored]).heeded = config [] := by decide
  obtain ⟨spared, still, -, same, -, -, denied⟩ := entries_heeded built
  rw [sparing] at still
  refine ⟨_, spared, built, still, same, ?_⟩
  exact denied 0 _ rfl ⟨"/secret", ∅, .read⟩ (by decide) (by decide) _ (by decide)

/-- A module denies reading at a path that it spells with a slash at its end. The node there can be
read, which it cannot if the path is spelled in the canonical way. -/
theorem secret_granted_behind_slash :
    let config (path : String) : Configuration :=
      { content := ["/secret"]
        modules := [{ name := "acl", covers := .read
                      entries := [⟨"/", .read, ∅⟩, ⟨path, ∅, .read⟩] }] }
    let tree (deployment : Deployment) : Tree :=
      (Tree.root deployment.world.published).descendant "/secret"
    ∃ deployment respelled, (config "/secret/").build = .ok deployment ∧
      (config (Path.canonical "/secret/")).build = .ok respelled ∧
      (deployment.answers.isGranted (tree deployment) none .read).run = true ∧
      (respelled.answers.isGranted (tree respelled) none .read).run = false := by
  intro config tree
  exact ⟨_, _, rfl, rfl, by decide, by decide⟩

end Configuration

end Authorization
