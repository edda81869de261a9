import Authorization.Decision.Derivation

/-!
# Answers of decisions

A combined decision folds the answers of its parts, each asked for the part of the request that its
provider covers at the time of asking. Read flags are answered from memory once they have been
remembered.
-/

namespace Authorization

variable {m : Type → Type} {L D : Type}

/-- One part of a combined decision: what its provider covers, and what the part answers. -/
structure DecisionPart where
  covers : Option Property → Permissions → Permissions
  answers : NodeAnswers

namespace Site

/-- Asks the parts a question about what each of them covers, under the composition at the place. -/
def fold (site : Site) (parts : List DecisionPart) (asked : Permissions)
    (property : Option Property) (question : NodeAnswers → Permissions → Bool) : Bool :=
  Id.run <| site.composition.grants asked <| parts.map fun part =>
    { covers := part.covers property, grants := fun bits => pure (question part.answers bits) }

/-- Whether the node is readable. -/
def canRead (site : Site) (parts : List DecisionPart) : Bool :=
  site.memo.read.getD (site.fold parts .readNode none fun answers _ => answers.canRead)

/-- Whether the node and everything below it is readable. -/
def canReadAll (site : Site) (parts : List DecisionPart) : Bool :=
  site.memo.readAll.getD (site.fold parts .read none fun answers _ => answers.canReadAll)

/-- Whether all properties of the node are readable. -/
def canReadProperties (site : Site) (parts : List DecisionPart) : Bool :=
  site.memo.readProperties.getD
    (site.fold parts .readProperty none fun answers _ => answers.canReadProperties)

/-- Whether a property of the node is readable: if all are, or by a fold for the property. -/
def canReadProperty (site : Site) (parts : List DecisionPart) (property : Property) : Bool :=
  site.canReadProperties parts ||
    site.fold parts .readProperty (some property) fun answers _ => answers.canReadProperty property

/-- The answers at a place. Permission checks are folded anew, and read flags may be remembered. -/
def answers (site : Site) (parts : List DecisionPart) : NodeAnswers where
  canRead := site.canRead parts
  canReadProperty := site.canReadProperty parts
  canReadAll := site.canReadAll parts
  canReadProperties := site.canReadProperties parts
  isGranted asked := site.fold parts asked none fun answers bits => answers.isGranted bits
  isGrantedProperty asked property :=
    site.fold parts asked (some property) fun answers bits =>
      answers.isGrantedProperty bits property

end Site

namespace Arrangement

mutual

/-- The part of the permissions that a provider evaluates for a decision that is not taken apart:
a composite asks its own members. -/
def coversWhole (snapshot : Snapshot m L D) (permission : TreePermission L D)
    (property : Option Property) (asked : Permissions) : Arrangement L → Permissions
  | empty => ∅
  | leaf single => (snapshot.leaf single).coversDecision permission property asked
  | composite _ members => coversWholes snapshot permission property asked members

/-- The parts that several providers evaluate together. -/
def coversWholes (snapshot : Snapshot m L D) (permission : TreePermission L D)
    (property : Option Property) (asked : Permissions) : List (Arrangement L) → Permissions
  | [] => ∅
  | member :: members =>
    coversWhole snapshot permission property asked member ∪
      coversWholes snapshot permission property asked members

end

end Arrangement

namespace TreePermission

mutual

/-- The part of the permissions that a provider evaluates for a decision. A composite takes a
combined decision apart and asks the provider of each part. -/
def coverage (snapshot : Snapshot m L D) (property : Option Property) (asked : Permissions) :
    TreePermission L D → Arrangement L → Permissions
  | .node permission, arrangement =>
    arrangement.coversWhole snapshot (.node permission) property asked
  | .combined site parts, arrangement =>
    match arrangement with
    | .empty => ∅
    | .leaf single => (snapshot.leaf single).coversDecision (.combined site parts) property asked
    | .composite _ _ => coverageParts snapshot property asked parts

/-- What the providers of all parts evaluate together. -/
def coverageParts (snapshot : Snapshot m L D) (property : Option Property)
    (asked : Permissions) : List (Arrangement L × TreePermission L D) → Permissions
  | [] => ∅
  | (arrangement, permission) :: parts =>
    coverage snapshot property asked permission arrangement ∪
      coverageParts snapshot property asked parts

end

variable [NodeDecision D]

mutual

def answers (snapshot : Snapshot m L D) : TreePermission L D → NodeAnswers
  | .node permission => permission.answers
  | .combined site parts => site.answers (decisionParts snapshot parts)

/-- The parts of a combined decision with what their providers cover at the moment. -/
def decisionParts (snapshot : Snapshot m L D) :
    List (Arrangement L × TreePermission L D) → List DecisionPart
  | [] => []
  | (arrangement, permission) :: parts =>
    { covers := fun property asked => permission.coverage snapshot property asked arrangement
      answers := answers snapshot permission } :: decisionParts snapshot parts

end

mutual

/-- The decision with all its read flags asked for and remembered, those of its parts included. -/
def remember (snapshot : Snapshot m L D) : TreePermission L D → TreePermission L D
  | .node permission => .node permission
  | .combined site parts =>
    let known := decisionParts snapshot parts
    .combined
      { site with
        memo :=
          { read := some (site.canRead known), readAll := some (site.canReadAll known)
            readProperties := some (site.canReadProperties known) } }
      (rememberParts snapshot parts)

/-- The parts with all their read flags remembered. -/
def rememberParts (snapshot : Snapshot m L D) :
    List (Arrangement L × TreePermission L D) → List (Arrangement L × TreePermission L D)
  | [] => []
  | (arrangement, permission) :: parts =>
    (arrangement, remember snapshot permission) :: rememberParts snapshot parts

end

end TreePermission

end Authorization
