import Authorization.Proofs.Provider.Flattening
import Authorization.Proofs.Decision.ReadAll

/-!
# Flattening walks

Walking down nested composites of one composition and walking down the single composite over their
providers leads to decisions that look different: whole composites may have been collapsed on the
way, and each finds types for itself. The answers are the same, as they follow from the opinions of
the single providers (`Afresh.answers_eq`), so composites may be flattened (`answers_flatten`).
-/

namespace Authorization

namespace World

open Arrangement (opinion_flatten combinations_flatten)

variable {world : World} {seen : Tree → Prop} {names : List String}
  {combination flat : Combination} {members others : List (Arrangement PolicyLeaf)}
  {permission reached : TreePermission PolicyLeaf PolicyDecision}

/-- Decisions of two composites about a place, made afresh, answer the same if the composites think
the same. -/
theorem Afresh.answers_eq {classifies : Classifier → Prop}
    (named : ∀ name ∈ names, Path.IsName name)
    (afresh : Afresh world classifies seen names (.composite combination members) permission)
    (anew : Afresh world classifies seen names (.composite flat others) reached)
    (truthful : permission.Truthful world.seen) (honest : reached.Truthful world.seen)
    (same : ∀ single, (Arrangement.composite combination members).opinion single =
      (Arrangement.composite flat others).opinion single) :
    permission.answers world.seen = reached.answers world.seen := by
  have opinion (i : Nat) : permission.opinion world.covers i (.composite combination members) =
      reached.opinion world.covers i (.composite flat others) := by
    rw [afresh.opinion_eq, anew.opinion_eq, same]
  have all := afresh.canReadAll_iff named truthful
  rw [same, ← anew.canReadAll_iff named honest] at all
  rw [world.answers_of_opinion anew.paired honest afresh.paired truthful opinion,
    Bool.eq_iff_iff.mpr all]

/-- All composites of an arrangement that classify alike hide the same places as a composite of the
given combination: because the names alone settle which places are hidden, as they do with the
standard types, or because all of them see the same content and on walks nothing is seen but this
content. -/
def Coherent (world : World) (flat : Combination) (seen : Tree → Prop)
    (arrangement : Arrangement PolicyLeaf) : Prop :=
  TreeType.Settled (· = flat.classify) (fun _ => True) ∨
    (∀ inner ∈ arrangement.combinations, world.roots inner.id = world.roots flat.id) ∧
      ∀ tree, seen tree → tree = world.place flat tree

/-- Composites with standard types hide the same places whatever they see. -/
theorem coherent_of_standard {flat : Combination} {defines : Tree → Bool}
    (standard : flat.classify = .standard defines) (arrangement : Arrangement PolicyLeaf) :
    world.Coherent flat seen arrangement :=
  .inl ((TreeType.settled_standard _).of_subset fun _ way => ⟨defines, way.trans standard⟩)

theorem place_place (combination : Combination) (tree : Tree) :
    world.place combination (world.place combination tree) = world.place combination tree := by
  have named : ∀ name ∈ Path.elements tree.path, Path.IsName name :=
    fun _ member => Path.isName_of_mem_elements member
  rw [place, path_place, Tree.descendant, Path.elements_ofElements named]
  rfl

/-- Coherent composites, and the flat one, see only what settles which places are hidden. -/
theorem Coherent.exists_settled {arrangement : Arrangement PolicyLeaf}
    (coherent : world.Coherent flat seen arrangement)
    (alike : ∀ inner ∈ arrangement.combinations, inner.Alike flat) :
    ∃ sight : Tree → Prop, (∀ tree, seen tree → sight tree) ∧
      TreeType.Settled (· = flat.classify) sight ∧
      world.Looks (· = flat.classify) sight arrangement ∧
      world.Looks (· = flat.classify) sight (arrangement.flatten flat) := by
  have looks {sight : Tree → Prop}
      (inside : ∀ inner ∈ arrangement.combinations, ∀ tree, sight (world.place inner tree))
      (outside : ∀ tree, sight (world.place flat tree)) :
      world.Looks (· = flat.classify) sight arrangement ∧
        world.Looks (· = flat.classify) sight (arrangement.flatten flat) := by
    refine ⟨fun inner listed => ⟨(alike inner listed).classify, inside inner listed⟩, ?_⟩
    rw [Looks, combinations_flatten]
    exact List.forall_mem_singleton.mpr ⟨rfl, outside⟩
  rcases coherent with settled | ⟨shared, sights⟩
  · exact ⟨fun _ => True, fun _ _ => trivial, settled,
      looks (fun _ _ _ => trivial) fun _ => trivial⟩
  · refine ⟨fun tree => tree = world.place flat tree, sights, ?_, looks ?_ ?_⟩
    · apply TreeType.settled_of_unique
      intro tree other looked sight there
      rw [looked, sight, place, place, there]
    · intro inner listed tree
      have same : world.place inner tree = world.place flat tree := by
        rw [place, place, shared inner listed]
      rw [same, place_place]
    · exact fun tree => (place_place flat tree).symm

theorem WalkedIn.mono {sight : Tree → Prop} (sights : ∀ tree, seen tree → sight tree)
    (walked : WalkedIn world combination members seen names permission) :
    WalkedIn world combination members sight names permission := by
  induction walked with
  | root top parent => exact .root top parent
  | step walked here ih => exact .step ih here
  | child walked named looked ih => exact .child ih named (sights _ looked)
  | recalled walked same truthful ih => exact .recalled ih same truthful

/-- Walks down nested composites of one composition and down the single composite over their
providers lead to the same answers. -/
theorem answers_flatten
    (alike : ∀ inner ∈ (Arrangement.composite combination members).combinations, inner.Alike flat)
    (coherent : world.Coherent flat seen (.composite combination members))
    (walked : WalkedIn world combination members seen names permission)
    (further : WalkedIn world flat
      ((Arrangement.composite combination members).leaves.map .leaf) seen names reached) :
    permission.answers world.seen = reached.answers world.seen := by
  obtain ⟨sight, sights, settled, looks, flatLooks⟩ := coherent.exists_settled alike
  have walked := walked.mono sights
  have further := further.mono sights
  -- A shown place is decided afresh by both, and at a veiled one neither grants anything.
  rcases settled.shown_or_veiled names with shown | veiled
  · exact (walked.afresh looks shown).answers_eq walked.isName (further.afresh flatLooks shown)
      walked.walked.kept.truthful further.walked.kept.truthful
      fun _ => (opinion_flatten alike).symm
  · rw [TreePermission.answers_of_grantsNothing (walked.nothing_of_veiled looks settled veiled),
      TreePermission.answers_of_grantsNothing
        (further.nothing_of_veiled flatLooks settled veiled)]

/-- A composite around another one, which has a policy provider as its only member. The two differ
in their number only. -/
def twofold (combination : Combination) : Arrangement PolicyLeaf :=
  .composite combination
    [.composite { combination with id := combination.id + 1 } [.leaf (.plain 0)]]

theorem alike_twofold (combination : Combination) :
    ∀ inner ∈ (twofold combination).combinations,
      inner.Alike combination ∧ inner.catalogue = combination.catalogue := by
  intro inner listed
  have known : inner ∈ [combination, { combination with id := combination.id + 1 }] := listed
  rcases List.mem_pair.mp known with rfl | rfl <;> exact ⟨⟨rfl, rfl, rfl⟩, rfl⟩

end World

end Authorization
