import Authorization.Proofs.Decision.Afresh

/-!
# Descending

A walk goes down from the root name by name, by asking the composite or the last decision. By
induction over the walk, the decision reached is one made afresh as long as no place on the way is
found hidden (`WalkedIn.afresh`), and grants nothing once a place is found hidden for certain
(`WalkedIn.nothing_of_veiled`). With standard types this covers every walk.
-/

namespace Authorization

namespace World

variable {world : World} {classifies : Classifier → Prop} {seen : Tree → Prop}
  {names : List String} {permission : TreePermission PolicyLeaf PolicyDecision}

/-- The decisions that a composite reaches as in `Walked`, if those about children are asked for
only with what may be seen there. -/
inductive WalkedIn (world : World) (combination : Combination)
    (members : List (Arrangement PolicyLeaf)) (seen : Tree → Prop) :
    List String → TreePermission PolicyLeaf PolicyDecision → Prop
  | root {tree : Tree} (top : Path.elements tree.path = [])
      (parent : TreePermission PolicyLeaf PolicyDecision) :
      WalkedIn world combination members seen []
        ((Arrangement.composite combination members).treePermission world.seen tree parent).run
  | step {names : List String} {name : String}
      {permission : TreePermission PolicyLeaf PolicyDecision}
      (walked : WalkedIn world combination members seen names permission) {tree : Tree}
      (here : Path.elements tree.path = names ++ [name]) :
      WalkedIn world combination members seen (names ++ [name])
        ((Arrangement.composite combination members).treePermission world.seen tree permission).run
  | child {names : List String} {name : String}
      {permission : TreePermission PolicyLeaf PolicyDecision}
      (walked : WalkedIn world combination members seen names permission)
      (named : Path.IsName name) {state : NodeState}
      (looked : seen ⟨Path.ofElements (names ++ [name]), state⟩) :
      WalkedIn world combination members seen (names ++ [name])
        (permission.child world.seen name state).run
  | recalled {names : List String} {permission other : TreePermission PolicyLeaf PolicyDecision}
      (walked : WalkedIn world combination members seen names permission)
      (same : other.forget = permission.forget) (truthful : other.Truthful world.seen) :
      WalkedIn world combination members seen names other

variable {combination : Combination} {members : List (Arrangement PolicyLeaf)}

/-- Anything may be seen on a walk without restrictions. -/
theorem Walked.within (walked : Walked world combination members names permission) :
    WalkedIn world combination members (fun _ => True) names permission := by
  induction walked with
  | root top parent => exact .root top parent
  | step walked here ih => exact .step ih here
  | child walked named state ih => exact .child ih named trivial
  | recalled walked same truthful ih => exact .recalled ih same truthful

namespace WalkedIn

theorem walked (walked : WalkedIn world combination members seen names permission) :
    Walked world combination members names permission := by
  induction walked with
  | root top parent => exact .root top parent
  | step walked here ih => exact .step ih here
  | child walked named looked ih => exact .child ih named _
  | recalled walked same truthful ih => exact .recalled ih same truthful

theorem isName (walked : WalkedIn world combination members seen names permission) :
    ∀ name ∈ names, Path.IsName name :=
  walked.walked.isName

variable (looks : world.Looks classifies seen (.composite combination members))
  (walked : WalkedIn world combination members seen names permission)

include looks

include walked in
/-- Where no place on the way is found hidden, walking decides afresh. -/
theorem afresh (shown : TreeType.Shown classifies seen names) :
    Afresh world classifies seen names (.composite combination members) permission := by
  induction walked with
  | @root tree top parent =>
      have place : (world.place combination tree).path = Path.root := by rw [path_place, top]; rfl
      have decided := afresh_decideRoot world _ looks place
      rw [← derive_root top parent .default] at decided
      exact decided
  | @step names name permission walked tree here ih =>
      have named := (walked.step here).isName
      have above := ih shown.of_append
      have looked := (looks combination List.mem_cons_self).2 tree
      have below : Path.elements tree.path ≠ [] := by simp [here]
      have descends := above.descends_derive below .default
      exact above.next named looks looked (by rw [path_place, here]) descends shown.here
  | child walked last looked ih =>
      have named := Path.isName_append_singleton walked.isName last
      have above := ih shown.of_append
      exact above.next named looks looked rfl (above.descends_child walked.isName last _) shown.here
  | recalled walked same truthful ih => exact (ih shown).of_forget same

/-- A decision goes on to grant nothing below a veiled place, and starts to at one. -/
theorem nothing_next (settled : TreeType.Settled classifies seen)
    (walked : WalkedIn world combination members seen names permission)
    (above : TreeType.Veiled classifies seen names → permission.grantsNothing = true)
    (veiled : TreeType.Veiled classifies seen (names ++ [name]))
    (named : ∀ other ∈ names ++ [name], Path.IsName other) {place : Tree} (looked : seen place)
    (there : place.path = Path.ofElements (names ++ [name]))
    {next : TreePermission PolicyLeaf PolicyDecision}
    (descends : Afresh world classifies seen names (.composite combination members) permission →
      Descends world place permission next)
    (keeps : permission.grantsNothing = true → next = permission) : next.grantsNothing = true := by
  have kept (above : permission.grantsNothing = true) : next.grantsNothing = true := by
    rw [keeps above]
    exact above
  -- Either this place is hidden, or one above it is and nothing was granted there already.
  rcases veiled.of_append with hidden | veiled
  · rcases settled.shown_or_veiled names with shown | veiled
    · have afresh := walked.afresh looks shown
      exact afresh.next_hidden named looks looked there (descends afresh) hidden
    · exact kept (above veiled)
  · exact kept (above veiled)

include walked in
/-- At and below a place that is found hidden for certain, nothing is granted. -/
theorem nothing_of_veiled (settled : TreeType.Settled classifies seen)
    (veiled : TreeType.Veiled classifies seen names) : permission.grantsNothing = true := by
  induction walked with
  | root top parent => exact absurd veiled TreeType.not_veiled_nil
  | @step names name permission walked tree here ih =>
      have below : Path.elements tree.path ≠ [] := by simp [here]
      have looked := (looks combination List.mem_cons_self).2 tree
      refine walked.nothing_next looks settled ih veiled (walked.step here).isName looked
        (by rw [path_place, here]) (fun afresh => afresh.descends_derive below .default)
        fun nothing => ?_
      exact derive_of_nothing below nothing .default
  | child walked last looked ih =>
      refine walked.nothing_next looks settled ih veiled
        (Path.isName_append_singleton walked.isName last) looked rfl
        (fun afresh => afresh.descends_child walked.isName last _) fun nothing => ?_
      exact child_of_nothing nothing _ _
  | recalled walked same truthful ih =>
      rw [← TreePermission.grantsNothing_forget, same, TreePermission.grantsNothing_forget]
      exact ih veiled

end WalkedIn

/-- The types of trees are found in the standard way everywhere in an arrangement. -/
def Standard (arrangement : Arrangement PolicyLeaf) : Prop :=
  ∀ combination ∈ arrangement.combinations, ∃ defines, combination.classify = .standard defines

/-- Where types are found in the standard way, they are so whatever is seen. -/
theorem Standard.looks {arrangement : Arrangement PolicyLeaf} (standard : Standard arrangement)
    (world : World) : world.Looks TreeType.IsStandard (fun _ => True) arrangement :=
  fun combination listed => ⟨standard combination listed, fun _ => trivial⟩

end World

end Authorization
