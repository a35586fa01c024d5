import HuntWarden.Common.Ids
import HuntWarden.Lib.Statements
import HuntWarden.Rules.DeterministicRules
import HuntWarden.Storage.BatchRuns

/-! The rule engine, and the scheduler that feeds it. A cycle of the scheduler takes the events behind its
    watermark, has the rules evaluate the facts they announce, and then moves the watermark: one statement
    after another, and the process may end before any of them. -/

namespace HuntWarden.Rules

open Outcome

/-- The columns of a task that the engine reads. -/
structure RuleTask where
  taskId : String
  checks : List CheckCategory
  activeEpochId : Option String
  deriving DecidableEq, Repr

structure ConsumerRow where
  consumer : String
  version : String
  taskId : String
  epochId : String
  lastEventSeq : ℕ
  deriving DecidableEq, Repr

/-- `PRIMARY KEY(consumer, version, task_id, epoch_id)` -/
def ConsumerRow.key (row : ConsumerRow) : String × String × String × String :=
  (row.consumer, row.version, row.taskId, row.epochId)

def assessmentKey (a : RecordedAssessment) : String := a.assessmentId

structure RuleStore where
  batch : BatchStore
  tasks : Table RuleTask.taskId
  assessments : Table assessmentKey
  evidence : Table EvidenceRecord.evidenceId
  consumers : Table ConsumerRow.key
  /-- The facts whose evaluation has come to its end, for the statements below only. -/
  evaluated : List String

abbrev Statement := RuleStore → Except Thrown RuleStore

namespace RuleStore

def empty : RuleStore where
  batch := .empty
  tasks := .empty
  assessments := .empty
  evidence := .empty
  consumers := .empty
  evaluated := []

variable (s : RuleStore) (taskId epochId : String)

/-! ### Reading -/

def listFacts (sourceKind : Option FactSourceKind) : List FactRecord :=
  FactStore.bySeq (s.batch.factStore.facts.rows.filter
    (FactStore.ListFactsOptions.admits { sourceKind } taskId epochId))

def listAssessments : List RecordedAssessment :=
  s.assessments.rows.filter fun a => a.taskId = taskId && a.epochId = epochId

/-- The events under their numbers, which are never given twice. -/
def numberedEvents : List (ℕ × InvestigationEvent) :=
  s.batch.events.rows.zipIdx.map fun (event, position) => (position + 1, event)

def listInvestigationEvents (afterEventSeq limit : ℕ) : List (ℕ × InvestigationEvent) :=
  (s.numberedEvents.filter fun (eventSeq, event) =>
    event.taskId = taskId && event.epochId = epochId && afterEventSeq < eventSeq).take limit

def getInvestigationConsumerWatermark (consumer version : String) : ℕ :=
  ((s.consumers.get? (consumer, version, taskId, epochId)).map (·.lastEventSeq)).getD 0

/-- The task, as long as the epoch is the one it is working on. -/
def activeTask : Option RuleTask :=
  (s.tasks.get? taskId).filter fun task => task.activeEpochId = some epochId

def validationContext : AssessmentValidation.Context where
  taskId
  epochId
  refs := s.batch.factStore.refs.rows.filter fun ref => ref.taskId = taskId && ref.epochId = epochId
  facts := s.listFacts taskId epochId none
  edges := s.batch.factStore.listEdges taskId epochId
  relationProvenance :=
    s.batch.relationProvenance.rows.filter fun p => p.taskId = taskId && p.epochId = epochId
  evidence := s.evidence.rows.filter fun item => item.taskId = taskId
  queryRefs := (s.batch.factStore.snapshots.rows.filter fun snapshot =>
    snapshot.taskId = taskId && snapshot.epochId = epochId).map (·.queryRef)

/-! ### Writing -/

def onBatch (body : BatchStore → Except Thrown BatchStore) : Except Thrown RuleStore := do
  let batch ← body s.batch
  return { s with batch }

def createTask (task : RuleTask) : Except Thrown RuleStore := do
  let tasks ← orThrow (s.tasks.insert? task) (uniqueConstraint "tasks.task_id")
  return { s with tasks }

/-- A new epoch is the active one of its task. -/
def createScanEpoch (epoch : EpochRecord) : Except Thrown RuleStore := do
  let task ← orThrow (s.tasks.get? epoch.taskId) (invalidArgument s!"未知任务: {epoch.taskId}")
  let batch ← s.batch.onFacts (·.createScanEpoch epoch)
  return { s with batch, tasks := s.tasks.set { task with activeEpochId := some epoch.epochId } }

/-- `saveTask` writes back what a caller holds of the task: its epoch may be an old one, its checks never change. -/
def saveTask (taskId : String) (activeEpochId : Option String) : RuleStore :=
  match s.tasks.get? taskId with
  | none => s
  | some task => { s with tasks := s.tasks.set { task with activeEpochId } }

def putAssessment (a : RecordedAssessment) : Except Thrown RuleStore := do
  AssessmentValidation.validateAssessment (s.validationContext a.taskId a.epochId) a
  let assessments ← orThrow (s.assessments.insert? a) (uniqueConstraint "assessments_v2.assessment_id")
  return { s with assessments }

def putEvidence (item : EvidenceRecord) : Except Thrown RuleStore := do
  let evidence ← orThrow (s.evidence.insert? item) (uniqueConstraint "evidence.evidence_id")
  return { s with evidence }

def advanceInvestigationConsumerWatermark (consumer version : String) (expected next : ℕ) :
    Except Thrown RuleStore := do
  require (expected ≤ next) (invalidArgument "consumer watermark 不能倒退")
  require (s.getInvestigationConsumerWatermark taskId epochId consumer version = expected)
    (invalidArgument "consumer watermark 已被其他执行路径更新")
  return { s with consumers := s.consumers.put ⟨consumer, version, taskId, epochId, next⟩ }

end RuleStore

/-! ### The engine -/

/-- What was observed on the target. -/
def isTargetObservation (fact : FactRecord) : Bool :=
  fact.source.evidenceOrigin = some "TARGET_OBSERVATION" ||
    (fact.source.evidenceOrigin = none && fact.source.kind = .preset)

/-- A rule has already said so of the fact. -/
def concludes (rule : V2Rule) (factId : String) (a : RecordedAssessment) : Bool :=
  a.authorType = .rule && factId ∈ a.factRefs && startsWith a.rationale rule.ruleRef

def applies (rule : V2Rule) (fact : FactRecord) : Bool :=
  fact.namespace_ = rule.namespace_ && rule.matches_ fact.privatePayload

def partialNote : String := " 输入为 PARTIAL，未覆盖范围必须继续调查。"

def ruleAssessment (assessmentId now : String) (rule : V2Rule) (fact : FactRecord) (taskId epochId : String) :
    RecordedAssessment where
  assessmentId
  taskId
  epochId
  authorType := .rule
  category := rule.category
  subjectRef := some fact.subjectRef
  scope := .subject
  verdict := rule.verdict.verdict
  severity := rule.severity
  confidence := if fact.completeness = .partialFact then min rule.confidence (13 / 20) else rule.confidence
  rationale := rule.ruleRef ++ (" " ++ rule.rationale fact.modelPayload ++
    if fact.completeness = .partialFact then partialNote else "")
  evidenceRefs := []
  factRefs := [fact.factId]
  queryRefs := []
  createdAt := now

variable (registry : Registry) (ids : FreshIds)

/-- The rules that match a fact and have not said so yet, in the order of the registry. -/
def pending (checks : List CheckCategory) (existing : List RecordedAssessment) (facts : List FactRecord) :
    List (V2Rule × FactRecord) :=
  registry.rules.flatMap fun rule =>
    if rule.category ∈ checks then
      ((facts.filter (applies rule)).filter fun fact =>
        !existing.any (concludes rule fact.factId)).map fun fact => (rule, fact)
    else []

def conclude (taskId epochId now : String) (due : V2Rule × FactRecord) : Statement := fun s =>
  s.putAssessment (ruleAssessment (ids.draw "ASM-" (s.assessments.rows.map assessmentKey)) now due.1 due.2
    taskId epochId)

def evaluateFacts (s : RuleStore) (taskId epochId now : String) (facts : List FactRecord) : List Statement :=
  match s.activeTask taskId epochId with
  | none => []
  | some task =>
    (pending registry task.checks (s.listAssessments taskId epochId) facts).map
        (conclude ids taskId epochId now) ++
      [fun s => .ok { s with evaluated := s.evaluated ++ facts.map (·.factId) }]

def evaluate (s : RuleStore) (taskId epochId presetRunPrefix now : String) : List Statement :=
  evaluateFacts registry ids s taskId epochId now
    ((s.listFacts taskId epochId (some .preset)).filter fun fact =>
      fact.source.presetRunId = some presetRunPrefix)

def evaluateFactRefs (s : RuleStore) (taskId epochId now : String) (factRefs : List String) :
    List Statement :=
  evaluateFacts registry ids s taskId epochId now
    (((s.listFacts taskId epochId none).filter (·.factId ∈ factRefs)).filter isTargetObservation)

/-! ### The scheduler -/

def schedulerConsumer : String := "investigation-scheduler"

def schedulerVersion : String := "1.0.0"

def eventPage : ℕ := 5000

/-- The facts that an event announces. -/
def announced (event : InvestigationEvent) : List String :=
  if event.eventType = "FACT_BATCH_COMMITTED" then
    (((event.payload.get? "factRefs").bind Json.asArray?).getD []).filterMap Json.asString?
  else []

/-- An event that does not announce facts. -/
structure OtherEvent where
  event : InvestigationEvent
  other : event.eventType ≠ "FACT_BATCH_COMMITTED"

/-- A statement of the planners: it writes an event beside rows of its own, or it is refused. -/
inductive PlannerStatement where
  | event (event : OtherEvent)
  | refused (error : Thrown)

def PlannerStatement.run : PlannerStatement → Statement
  | .event appended => (·.onBatch (BatchStore.appendInvestigationEvent appended.event))
  | .refused error => fun _ => .error error

structure CycleCall where
  taskId : String
  epochId : String
  now : String
  planners : List PlannerStatement

def watermark (s : RuleStore) (taskId epochId : String) : ℕ :=
  s.getInvestigationConsumerWatermark taskId epochId schedulerConsumer schedulerVersion

/-- The events that a cycle takes. -/
def taken (s : RuleStore) (taskId epochId : String) : List (ℕ × InvestigationEvent) :=
  s.listInvestigationEvents taskId epochId (watermark s taskId epochId) eventPage

/-- The statements of a cycle until it comes to the actions. -/
def cycle (s : RuleStore) (call : CycleCall) : List Statement :=
  let events := taken s call.taskId call.epochId
  let factRefs := events.flatMap fun item => announced item.2
  (if factRefs = [] then []
    else evaluateFactRefs registry ids s call.taskId call.epochId call.now factRefs) ++
  (call.planners.map PlannerStatement.run ++
  match events.getLast? with
  | none => []
  | some last => [fun s' => s'.advanceInvestigationConsumerWatermark call.taskId call.epochId
      schedulerConsumer schedulerVersion (watermark s call.taskId call.epochId) last.1])

/-! ### The operations -/

inductive RuleOp where
  | createTask (task : RuleTask)
  | createScanEpoch (epoch : EpochRecord)
  | saveTask (taskId : String) (activeEpochId : Option String)
  | finishScanEpoch (taskId epochId : String) (status : EpochStatus)
  | startToolRun (record : ToolRunRecord)
  | finishToolRun (toolCallId : String) (outcome : ToolOutcome) (result : Option Json)
      (error : Option String)
  | commitFactBatch (input : BatchInput) (fails : ℕ → Option Thrown)
  | appendEvent (event : OtherEvent)
  /-- Models, analysts and the controller assess as well. -/
  | putAssessment (a : RecordedAssessment) (other : a.authorType ≠ .rule)
  | putEvidence (item : EvidenceRecord)
  | evaluate (taskId epochId presetRunPrefix now : String) (cut : Option ℕ)
  | evaluateFactRefs (taskId epochId now : String) (factRefs : List String) (cut : Option ℕ)
  | cycle (call : CycleCall) (cut : Option ℕ)

variable (env : FactEnv)

def step (s : RuleStore) : RuleOp → RuleStore
  | .createTask task => transact s (s.createTask task)
  | .createScanEpoch epoch => transact s (s.createScanEpoch epoch)
  | .saveTask taskId activeEpochId => s.saveTask taskId activeEpochId
  | .finishScanEpoch taskId epochId status =>
    transact s (s.onBatch (·.onFacts (·.finishScanEpoch taskId epochId status)))
  | .startToolRun record => transact s (s.onBatch (·.startToolRun env.normalizer.digestObject record))
  | .finishToolRun toolCallId outcome result error =>
    { s with batch := s.batch.finishToolRun toolCallId outcome.status result error }
  | .commitFactBatch input fails => transact s (s.onBatch (·.commitFactBatch env fails input))
  | .appendEvent event => transact s (s.onBatch (BatchStore.appendInvestigationEvent event.event))
  | .putAssessment a _ => transact s (s.putAssessment a)
  | .putEvidence item => transact s (s.putEvidence item)
  | .evaluate taskId epochId presetRunPrefix now cut =>
    Statements.execute (evaluate registry ids s taskId epochId presetRunPrefix now) cut s
  | .evaluateFactRefs taskId epochId now factRefs cut =>
    Statements.execute (evaluateFactRefs registry ids s taskId epochId now factRefs) cut s
  | .cycle call cut => Statements.execute (cycle registry ids s call) cut s

def runOps (ops : List RuleOp) : RuleStore := Runs.run (step registry ids env) .empty ops

end HuntWarden.Rules
