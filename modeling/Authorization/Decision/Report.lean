import Authorization.Decision.Answers

/-!
# Reports of decisions

What can be told about a decision on a tree: its kind, its read flags and, for combined decisions,
the place and the reports of the parts.
-/

namespace Authorization

/-- The kinds of decisions. -/
inductive DecisionKind where
  | all
  | empty
  | noRecourse
  | single
  | combined
  deriving DecidableEq

namespace DecisionKind

def word : DecisionKind → String
  | all => "all"
  | empty => "empty"
  | noRecourse => "no_recourse"
  | single => "leaf"
  | combined => "composite"

end DecisionKind

/-- What a combined decision is about. -/
structure SiteReport where
  path : String
  present : Bool
  type : TreeType
  composition : Composition

/-- What is told about a decision. -/
inductive DecisionReport where
  | mk (kind : DecisionKind) (canRead canReadAll canReadProperties : Bool)
    (site : Option SiteReport) (parts : List DecisionReport)

namespace NodePermission

def kind {D : Type} : NodePermission D → DecisionKind
  | all => .all
  | empty => .empty
  | noRecourse => .noRecourse
  | decided _ => .single

end NodePermission

namespace TreePermission

variable {m : Type → Type} {L D : Type} [NodeDecision D]

mutual

/-- What is reported about a decision and the parts it combines. -/
def report (snapshot : Snapshot m L D) : TreePermission L D → DecisionReport
  | .node permission =>
    .mk permission.kind permission.answers.canRead permission.answers.canReadAll
      permission.answers.canReadProperties none []
  | .combined site parts =>
    let known := decisionParts snapshot parts
    .mk .combined (site.canRead known) (site.canReadAll known) (site.canReadProperties known)
      (some ⟨site.tree.path, site.tree.present, site.type, site.composition⟩)
      (reportParts snapshot parts)

def reportParts (snapshot : Snapshot m L D) :
    List (Arrangement L × TreePermission L D) → List DecisionReport
  | [] => []
  | (_, permission) :: parts => report snapshot permission :: reportParts snapshot parts

end

end TreePermission

end Authorization
