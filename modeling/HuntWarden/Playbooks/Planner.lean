import HuntWarden.Common.Ids
import HuntWarden.Investigation.Freeze
import HuntWarden.Playbooks.Registry

/-! The playbook planner. A call takes the next batch of candidate facts, writes hypotheses, obligations and
    actions for them, moves its checkpoint, and brings the obligations of the categories up to date. -/

namespace HuntWarden.Playbooks

open Outcome Projection CompletionValidator

inductive ProposedBy where
  | discovery | playbook | model | analyst
  deriving DecidableEq, Repr

inductive HypothesisStatus where
  | open_ | supported | refuted | limited | superseded
  deriving DecidableEq, Repr

structure InvestigationHypothesis where
  hypothesisId : String
  subjectRef : String
  claim : String
  proposedBy : ProposedBy
  supportRefs : List String
  counterEvidenceRefs : List String
  alternativeExplanations : List String
  status : HypothesisStatus
  revision : ℕ
  deriving DecidableEq, Repr

structure DiscoveryCheckpoint where
  checkpointId : String
  namespace_ : NamespaceName
  requestDigest : String
  status : CheckpointStatus
  scannedCount : ℕ
  matchedCount : ℕ
  returnedCount : ℕ
  cursorRef : Option String := none
  remainingDescription : Option String := none
  deriving DecidableEq, Repr

/-- `UNIQUE(task_id, epoch_id, namespace, request_digest)` -/
def DiscoveryCheckpoint.scope (checkpoint : DiscoveryCheckpoint) : NamespaceName × String :=
  (checkpoint.namespace_, checkpoint.requestDigest)

/-- The tables of one task and epoch that the planner works on. Facts are numbered in the order in which
    they are stored, and each is about an object of the epoch. -/
structure PlannerStore where
  checks : List CheckCategory
  facts : List FactRecord
  references : List String
  assessments : List Assessment
  relations : List AssessmentRelation
  edges : List EdgeRecord
  coverage : List CoverageRun
  missingCriteria : CoverageRun → List String
  hypotheses : Table InvestigationHypothesis.hypothesisId
  investigation : InvestigationStore
  checkpoints : Table DiscoveryCheckpoint.scope
  numbered : facts.Pairwise fun a b => a.factSeq < b.factSeq
  referenced : ∀ fact ∈ facts, fact.subjectRef ∈ references

structure PlaybookPlanResult where
  hypothesisIds : List String
  obligationIds : List String
  actionIds : List String
  deriving DecidableEq, Repr

/-- What a call gets from outside. -/
structure PlanRuntime where
  texts : Texts
  projection : Projection.Runtime
  digestObject : Json → String
  ids : FreshIds
  taskId : String
  epochId : String
  authorizationVersion : String
  now : ℕ

abbrev PlannerProgram := Program PlannerStore Thrown

variable (r : PlanRuntime)

/-! ### What is to be planned -/

section

variable (s : PlannerStore)

def effectiveRiskIds : List String :=
  ((projectEffectiveAssessments r.projection s.assessments s.relations).filter
    (isRisk ·.conclusion)).flatMap (·.effectiveAssessmentIds)

def riskAssessments : List Assessment :=
  s.assessments.filter fun a =>
    (Js.truthyText a.subjectRef).isSome && decide (a.assessmentId ∈ effectiveRiskIds r s)

def hasRisk (subjectRef : String) : Bool :=
  (riskAssessments r s).any (·.subjectRef = some subjectRef)

def riskCategories (subjectRef : String) : List CheckCategory :=
  Js.distinct (((riskAssessments r s).filter (·.subjectRef = some subjectRef)).map (·.category))

def checkpointKey : NamespaceName × String := (.taskIoc, "PLAYBOOK_CANDIDATES:1")

def checkpoint : Option DiscoveryCheckpoint := s.checkpoints.get? checkpointKey

def processedFactSeq : ℕ := ((checkpoint s).map (·.scannedCount)).getD 0

def plannedRiskSubjects : List String :=
  (s.hypotheses.rows.filter (·.proposedBy = .playbook)).map (·.subjectRef)

/-- The fact with the higher number. -/
def later (fact : FactRecord) : Option FactRecord → FactRecord
  | none => fact
  | some known => if known.factSeq < fact.factSeq then fact else known

def latestBySubject (facts : List FactRecord) : List FactRecord :=
  (facts.foldl (fun latest fact => OrderedMap.upsert fact.subjectRef (later fact) latest) []).map
    (·.2)

def isCandidate (fact : FactRecord) : Bool :=
  (decide (processedFactSeq s < fact.factSeq) ||
      (hasRisk r s fact.subjectRef && decide (fact.subjectRef ∉ plannedRiskSubjects s))) &&
    isPlaybookCandidate r.texts fact (hasRisk r s fact.subjectRef) s.edges

def candidates : List FactRecord :=
  ((latestBySubject s.facts).filter (isCandidate r s)).insertionSort fun a b => a.factSeq ≤ b.factSeq

def selected : List FactRecord := (candidates r s).take playbookCandidateBatchSize

def categoriesOf (fact : FactRecord) : List CheckCategory :=
  categoriesForFact fact s.checks s.edges (riskCategories r s fact.subjectRef)

end

/-! ### Planning one fact -/

def putInvestigationHypothesis (hypothesis : InvestigationHypothesis) (s : PlannerStore) :
    Except Thrown PlannerStore := do
  require (hypothesis.subjectRef ∈ s.references)
    (invalidArgument "Hypothesis subjectRef 不属于当前 Epoch")
  let hypotheses ← orThrow (s.hypotheses.insert? hypothesis)
    (uniqueConstraint "investigation_hypotheses.hypothesis_id")
  return { s with hypotheses }

def newHypothesis (fact : FactRecord) (category : CheckCategory) (s : PlannerStore) :
    InvestigationHypothesis where
  hypothesisId := r.ids.draw "HYP-" (s.hypotheses.rows.map (·.hypothesisId))
  subjectRef := fact.subjectRef
  claim := claimFor category fact.namespace_
  proposedBy := .playbook
  supportRefs := [fact.factId]
  counterEvidenceRefs := []
  alternativeExplanations := benignAlternatives category
  status := .open_
  revision := 0

/-- The playbook's own hypothesis about a subject. -/
def existingHypothesis (subjectRef claim : String) (s : PlannerStore) : Option InvestigationHypothesis :=
  s.hypotheses.rows.find? fun h =>
    h.subjectRef = subjectRef && h.claim = claim && h.proposedBy = .playbook

def ensureHypothesis (fact : FactRecord) (category : CheckCategory) :
    PlannerProgram InvestigationHypothesis :=
  Program.update fun s =>
    match existingHypothesis fact.subjectRef (claimFor category fact.namespace_) s with
    | some existing => .ok (existing, s)
    | none => do
      let hypothesis := newHypothesis r fact category s
      let s' ← putInvestigationHypothesis hypothesis s
      return (hypothesis, s')

def dedupeKey (operation : PlannedOperation) (subjectRef : String) : String :=
  operation.obligationKind ++ ":" ++ subjectRef

def newObligation (operation : PlannedOperation) (subjectRef : String) (s : PlannerStore) :
    InvestigationObligation where
  obligationId := r.ids.draw "OBL-" (s.investigation.obligations.rows.map (·.obligationId))
  dedupeKey := dedupeKey operation subjectRef
  obligationKind := operation.obligationKind
  subjectRefs := [subjectRef]
  required := operation.required
  status := .queued
  resultRefs := []
  gapRefs := []

def putObligation (value : InvestigationObligation) (s : PlannerStore) :
    Except Thrown (InvestigationObligation × PlannerStore) := do
  let (investigation, stored) ← s.investigation.putInvestigationObligation value
  return (stored, { s with investigation })

def putAction (value : InvestigationAction) (s : PlannerStore) :
    Except Thrown (InvestigationAction × PlannerStore) := do
  let (investigation, stored) ← s.investigation.putInvestigationAction value
  return (stored, { s with investigation })

/-- The key of an action: what it does, to which object, in which round of observation. -/
def idempotencyKey (operation : PlannedOperation) (fact : FactRecord) : String :=
  r.digestObject (.obj [("taskId", .str r.taskId), ("epochId", .str r.epochId),
    ("operationRef", .str operation.operationRef), ("subjectRef", .str fact.subjectRef),
    ("argsDigest", .str (r.digestObject operation.args)),
    ("observationRound", .str ("SUBJECT:" ++ fact.subjectRef))])

def newAction (operation : PlannedOperation) (fact : FactRecord) (obligationId : String)
    (s : PlannerStore) : InvestigationAction where
  actionId := r.ids.draw "IACT-" (s.investigation.actions.rows.map (·.actionId))
  idempotencyKey := idempotencyKey r operation fact
  obligationIds := [obligationId]
  dependsOn := []
  authorizationVersion := r.authorizationVersion
  replayPolicy := operation.replayPolicy
  priority := operation.priority
  status := .ready
  revision := 0
  resultRefs := none
  error := none
  createdAt := r.now

/-- The obligation of an operation and the action that is to meet it. -/
def putOperation (fact : FactRecord) (operation : PlannedOperation) :
    PlannerProgram (String × String) := do
  let obligation ← Program.update fun s => putObligation (newObligation r operation fact.subjectRef s) s
  let action ← Program.update fun s => putAction (newAction r operation fact obligation.obligationId s) s
  return (obligation.obligationId, action.actionId)

def planCategory (edges : List EdgeRecord) (fact : FactRecord) (category : CheckCategory) :
    PlannerProgram PlaybookPlanResult :=
  match operationsForFact r.texts fact category edges with
  | [] => pure ⟨[], [], []⟩
  | operation :: rest => do
    let hypothesis ← ensureHypothesis r fact category
    let planned ← Program.gather (putOperation r fact) (operation :: rest)
    return ⟨[hypothesis.hypothesisId], planned.map (·.1), planned.map (·.2)⟩

def PlaybookPlanResult.join (results : List PlaybookPlanResult) : PlaybookPlanResult where
  hypothesisIds := results.flatMap (·.hypothesisIds)
  obligationIds := results.flatMap (·.obligationIds)
  actionIds := results.flatMap (·.actionIds)

/-- A selected fact in each of its categories; `initial` is the store as the call has found it. -/
def planFact (initial : PlannerStore) (fact : FactRecord) : PlannerProgram PlaybookPlanResult := do
  let planned ← Program.gather (planCategory r initial.edges fact) (categoriesOf r initial fact)
  return .join planned

/-! ### The categories -/

/-- `!coverage ? "OPEN" : coverage.status === "COMPLETE" ? "SATISFIED" : "LIMITED"` -/
def desiredStatus : Option CoverageRun → ObligationStatus
  | none => .open_
  | some coverage => if coverage.status = .complete then .satisfied else .limited

def coverageOf (s : PlannerStore) (category : CheckCategory) : Option CoverageRun :=
  s.coverage.find? (·.category = category)

def categoryObligation (category : CheckCategory) (s : PlannerStore) : InvestigationObligation where
  obligationId := r.ids.draw "OBL-" (s.investigation.obligations.rows.map (·.obligationId))
  dedupeKey := "CATEGORY_SCOPE:" ++ category.name
  obligationKind := "CATEGORY_SCOPE_" ++ category.name.toUpper
  subjectRefs := []
  required := true
  status := desiredStatus (coverageOf s category)
  resultRefs := ((coverageOf s category).map (·.coverageId)).toList
  gapRefs := ((coverageOf s category).map s.missingCriteria).getD ["COVERAGE_NOT_RECORDED"]

def coverageClosing (s : PlannerStore) (coverage : Option CoverageRun) : InvestigationStore.Closing where
  status _ := desiredStatus coverage
  resultRefs o := match coverage with
    | some coverage => [coverage.coverageId]
    | none => o.resultRefs
  gapRefs o := match coverage with
    | some coverage => s.missingCriteria coverage
    | none => o.gapRefs

/-- The obligation of a category follows its coverage as long as it is open. -/
def settleCategory (category : CheckCategory) (obligation : InvestigationObligation)
    (s : PlannerStore) : Except Thrown PlannerStore :=
  let coverage := coverageOf s category
  if obligation.status ≠ desiredStatus coverage ∧ obligation.status.isOpen then do
    let investigation ← s.investigation.updateInvestigationObligation obligation.obligationId
      obligation.status (coverageClosing s coverage)
    return { s with investigation }
  else .ok s

def planCategoryScope (category : CheckCategory) : PlannerProgram String := do
  let obligation ← Program.update fun s => putObligation (categoryObligation r category s) s
  Program.write (settleCategory category obligation)
  return obligation.obligationId

/-! ### One call -/

/-- `Math.max(processed, ...latest, 0)` -/
def maxFactSeq (processed : ℕ) (facts : List FactRecord) : ℕ :=
  (facts.map (·.factSeq)).foldl max processed

def processedAfterBatch (s : PlannerStore) : ℕ :=
  match (selected r s).getLast? with
  | some fact => fact.factSeq
  | none => maxFactSeq (processedFactSeq s) (latestBySubject s.facts)

def remaining (s : PlannerStore) : ℕ := (candidates r s).length - (selected r s).length

/-- The checkpoint after the batch; `initial` is the store as the call has found it. -/
def nextCheckpoint (initial s : PlannerStore) : DiscoveryCheckpoint :=
  let previous := checkpoint initial
  let rest := remaining r initial
  { checkpointId := (previous.map (·.checkpointId)).getD
      (r.ids.draw "DCHK-" (s.checkpoints.rows.map (·.checkpointId)))
    namespace_ := checkpointKey.1
    requestDigest := checkpointKey.2
    status := if 0 < rest then .running else .complete
    scannedCount := processedAfterBatch r initial
    matchedCount := (previous.map (·.matchedCount)).getD 0 + (selected r initial).length
    returnedCount := (previous.map (·.returnedCount)).getD 0 + (selected r initial).length
    cursorRef := if 0 < rest then some (toString (processedAfterBatch r initial)) else none
    remainingDescription := if 0 < rest then some s!"{rest} 个 Playbook 候选待处理" else none }

def plan : PlannerProgram PlaybookPlanResult := do
  let initial ← Program.gets id
  let planned ← Program.gather (planFact r initial) (selected r initial)
  Program.write fun s => .ok { s with checkpoints := s.checkpoints.put (nextCheckpoint r initial s) }
  let scopes ← Program.gather (planCategoryScope r) initial.checks
  let result := PlaybookPlanResult.join planned
  return ⟨Js.distinct result.hypothesisIds, Js.distinct (result.obligationIds ++ scopes),
    Js.distinct result.actionIds⟩

end HuntWarden.Playbooks
