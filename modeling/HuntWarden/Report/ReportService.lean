import HuntWarden.Assessments.Validation
import HuntWarden.Lib.References
import HuntWarden.Playbooks.Planner
import HuntWarden.Tools.WriteTool

/-! The report of an epoch. A projection of the store is what a report may say; the fallback prints it
    without a model, and the validator looks in a text for what the projection knows, and for references to
    what it does not know. -/

namespace HuntWarden

/-! ### The texts of the statuses -/

def CoverageStatus.name : CoverageStatus → String
  | .complete => "COMPLETE"
  | .partialCoverage => "PARTIAL"
  | .error => "ERROR"
  | .notRun => "NOT_RUN"

def Applicability.name : Applicability → String
  | .applicable => "APPLICABLE"
  | .notApplicable => "NOT_APPLICABLE"
  | .unknown => "UNKNOWN"

def AuthorType.name : AuthorType → String
  | .rule => "RULE"
  | .model => "MODEL"
  | .human => "HUMAN"
  | .system => "SYSTEM"

def AssessmentVerdict.name : AssessmentVerdict → String
  | .confirmedMalicious => "CONFIRMED_MALICIOUS"
  | .highlySuspicious => "HIGHLY_SUSPICIOUS"
  | .suspicious => "SUSPICIOUS"
  | .benign => "BENIGN"
  | .noObservedFinding => "NO_OBSERVED_FINDING"
  | .inconclusive => "INCONCLUSIVE"

def Severity.name : Severity → String
  | .critical => "CRITICAL"
  | .high => "HIGH"
  | .medium => "MEDIUM"
  | .low => "LOW"
  | .info => "INFO"

def Projection.Conclusion.name : Projection.Conclusion → String
  | .verdict v => v.name
  | .conflict => "CONFLICT"

def CompletionValidator.InvestigationStatus.name : CompletionValidator.InvestigationStatus → String
  | .open_ => "OPEN"
  | .limited => "LIMITED"
  | .closedWithFindings => "CLOSED_WITH_FINDINGS"
  | .closedNoObservedFinding => "CLOSED_NO_OBSERVED_FINDING"
  | .cancelled => "CANCELLED"

def CompletionValidator.CheckpointStatus.name : CompletionValidator.CheckpointStatus → String
  | .running => "RUNNING"
  | .complete => "COMPLETE"
  | .limited => "LIMITED"
  | .failed => "FAILED"

def Playbooks.HypothesisStatus.name : Playbooks.HypothesisStatus → String
  | .open_ => "OPEN"
  | .supported => "SUPPORTED"
  | .refuted => "REFUTED"
  | .limited => "LIMITED"
  | .superseded => "SUPERSEDED"

def ObligationStatus.name : ObligationStatus → String
  | .open_ => "OPEN"
  | .queued => "QUEUED"
  | .satisfied => "SATISFIED"
  | .limited => "LIMITED"
  | .cancelled => "CANCELLED"

def ApprovalStatus.name : ApprovalStatus → String
  | .pending => "PENDING"
  | .approved => "APPROVED"
  | .denied => "DENIED"
  | .consumed => "CONSUMED"
  | .expired => "EXPIRED"

def ActionReceiptStatus.name : ActionReceiptStatus → String
  | .started => "STARTED"
  | .succeeded => "SUCCEEDED"
  | .failed => "FAILED"
  | .unknown => "UNKNOWN"

def TaskMode.name : TaskMode → String
  | .scan => "SCAN"
  | .remediate => "REMEDIATE"

namespace Report

open Outcome References

/-! ### The store -/

structure ReportTask where
  taskId : String
  host : String
  mode : TaskMode
  checks : List CheckCategory
  request : String
  protocolVersion : Option ℕ
  activeEpochId : Option String

/-- `INVESTIGATION_GAP_CODES` -/
inductive InvestigationGapCode where
  | grantDenied | grantExpired | budgetDenied | modelDidNotInvestigate | queueCapacity
  deriving DecidableEq, Repr

def InvestigationGapCode.name : InvestigationGapCode → String
  | .grantDenied => "GRANT_DENIED"
  | .grantExpired => "GRANT_EXPIRED"
  | .budgetDenied => "BUDGET_DENIED"
  | .modelDidNotInvestigate => "MODEL_DID_NOT_INVESTIGATE"
  | .queueCapacity => "QUEUE_CAPACITY"

structure InvestigationGap where
  gapId : String
  category : Option CheckCategory
  code : InvestigationGapCode
  reasonCode : String

structure TypedEvidence extends EvidenceRecord where
  type : String

structure QueuedAction extends InvestigationAction where
  operationRef : String

structure AuditEvent where
  event : String
  level : String
  data : Json
  createdAt : String

/-- What the report reads: the tables of the epoch, and those of the task, each in the order in which it is
    listed. -/
structure ReportStore where
  coverageRuns : List CoverageRun
  assessments : List RecordedAssessment
  assessmentRelations : List AssessmentRelation
  session : Option Freeze.InvestigationSession
  snapshots : Table Freeze.CompletionSnapshot.snapshotRef
  gaps : List InvestigationGap
  hypotheses : List Playbooks.InvestigationHypothesis
  obligations : List InvestigationObligation
  actions : List QueuedAction
  checkpoints : List Playbooks.DiscoveryCheckpoint
  evidence : List TypedEvidence
  approvals : List ApprovalTicket
  receipts : List ActionReceipt
  toolRuns : List ToolRunRecord
  audit : List AuditEvent

/-! ### The projection -/

inductive ModelState where
  | concluded | notConcluded
  deriving DecidableEq, Repr

def ModelState.name : ModelState → String
  | .concluded => "CONCLUDED"
  | .notConcluded => "NOT_CONCLUDED"

/-- An approval or a receipt. -/
inductive WriteRecord where
  | approval (ticket : ApprovalTicket)
  | receipt (receipt : ActionReceipt)

namespace WriteRecord

def actionId : WriteRecord → String
  | .approval ticket => ticket.actionId
  | .receipt record => record.actionId

def status : WriteRecord → String
  | .approval ticket => ticket.status.name
  | .receipt record => record.status.name

end WriteRecord

structure ReportProjection where
  taskId : String
  epochId : String
  target : String
  mode : TaskMode
  checks : List CheckCategory
  request : String
  coverage : List CoverageRun
  assessments : List RecordedAssessment
  effectiveAssessments : List Projection.EffectiveAssessmentProjection
  investigationGaps : List InvestigationGap
  evidence : List TypedEvidence
  writes : List WriteRecord
  recovery : List AuditEvent
  toolRunIds : List String
  modelState : List (CheckCategory × ModelState)
  completion : Option Freeze.CompletionSnapshot
  hypotheses : List Playbooks.InvestigationHypothesis
  obligations : List InvestigationObligation
  actions : List QueuedAction
  discovery : List Playbooks.DiscoveryCheckpoint

/-- What the runtime brings in: the order of texts, and how an audit event reads as JSON. -/
structure Runtime where
  projection : Projection.Runtime
  stringify : AuditEvent → String

namespace ReportStore

variable (s : ReportStore)

def coverageOf (category : CheckCategory) : Option CoverageRun :=
  (s.coverageRuns.filter fun run => run.category = category).getLast?

def modelState (category : CheckCategory) : ModelState :=
  if s.assessments.any fun assessment => assessment.authorType = .model ∧ assessment.category = category ∧
      assessment.scope = .observedCategory then .concluded
  else .notConcluded

def completion : Option Freeze.CompletionSnapshot :=
  s.session.bind fun session => (Js.truthyText session.completionSnapshotRef).bind s.snapshots.get?

def isRecovery (epochId : String) (event : AuditEvent) : Bool :=
  event.data.get? "epochId" = some (.str epochId) &&
    (decide ("recover".toList <:+: event.event.toList) || decide ("interrupt".toList <:+: event.event.toList))

/-- `ORDER BY … DESC LIMIT ?`, turned round -/
def latest {α : Type} (limit : ℕ) (rows : List α) : List α := rows.drop (rows.length - limit)

def projectionV2 (r : Runtime) (task : ReportTask) : Except Thrown ReportProjection := do
  let epochId ← orThrow (Js.truthyText task.activeEpochId) (.native "v2 报告缺少 active epoch")
  return {
    taskId := task.taskId
    epochId
    target := task.host
    mode := task.mode
    checks := task.checks
    request := task.request
    coverage := task.checks.filterMap s.coverageOf
    assessments := s.assessments
    effectiveAssessments := Projection.projectEffectiveAssessments r.projection
      (s.assessments.map (·.toAssessment)) s.assessmentRelations
    investigationGaps := s.gaps
    evidence := s.evidence.filter fun item =>
      (item.metadata.bind (Json.get? "epochId")) = some (.str epochId)
    writes := (s.approvals.filter fun item => item.epochId = some epochId).map .approval ++
      (s.receipts.filter fun item => item.epochId = some epochId).map .receipt
    recovery := (latest 500 s.audit).filter (isRecovery epochId)
    toolRunIds := ((latest 100000 s.toolRuns).filter fun item => item.epochId = some epochId).map
      (·.toolCallId)
    modelState := task.checks.map fun category => (category, s.modelState category)
    completion := s.completion
    hypotheses := s.hypotheses
    obligations := s.obligations
    actions := s.actions
    discovery := s.checkpoints }

end ReportStore

/-! ### The fallback -/

/-- `refs.join(", ")` -/
def listed (refs : List String) : List Piece := (refs.map Piece.val).intersperse (.lit ", ")

/-- `refs.join(", ") || "无"` -/
def listedOrNone (refs : List String) : List Piece :=
  if String.intercalate ", " refs = "" then [.lit "无"] else listed refs

/-- A part that is there only when there is something to list. -/
def listedAfter (label : String) (refs : List String) : List Piece :=
  if refs.isEmpty then [] else .lit label :: listed refs

/-- ` / ${text}`, unless the text is missing or empty. -/
def noted (text : Option String) : List Piece :=
  (Js.truthyText text).elim [] fun text => [.lit " / ", .val text]

namespace ReportProjection

variable (p : ReportProjection)

def runOf (category : CheckCategory) : Option CoverageRun :=
  p.coverage.find? fun item => item.category = category

/-- Each category that is checked has a state. -/
def stateOf (category : CheckCategory) : ModelState :=
  ((p.modelState.find? fun item => item.1 = category).map (·.2)).getD .notConcluded

def unsafe_ (run : CoverageRun) : Bool := run.status ≠ .complete || run.applicability = .unknown

def coverageLine (category : CheckCategory) : List Piece :=
  match p.runOf category with
  | none => [.lit "- ", .val category.name, .lit ": NOT_RUN / UNKNOWN / INCOMPLETE；",
      .val ("MODEL: " ++ (p.stateOf category).name)]
  | some run => [Piece.lit "- ", .val category.name, .lit ": ", .val run.coverageId, .lit " / ", .val run.status.name,
      .lit " / ", .val run.applicability.name] ++ (if unsafe_ run then [Piece.lit " / INCOMPLETE"] else []) ++
      [Piece.lit "；", .val ("MODEL: " ++ (p.stateOf category).name)]

def completionLine : List Piece :=
  match p.completion with
  | some completion => [.lit "- ", .val completion.snapshotRef, .lit ": ",
      .val completion.investigationStatus.name, .lit " / eventSeq ", .val (toString completion.maxEventSeq)]
  | none => [.lit "- INVESTIGATION: OPEN / INCOMPLETE"]

def checkpointLine (checkpoint : Playbooks.DiscoveryCheckpoint) : List Piece :=
  [Piece.lit "- ", .val checkpoint.checkpointId, .lit ": DISCOVERY ", .val checkpoint.namespace_.name, .lit " / ",
    .val checkpoint.status.name, .lit " / scanned ", .val (toString checkpoint.scannedCount),
    .lit " / matched ", .val (toString checkpoint.matchedCount), .lit " / returned ",
    .val (toString checkpoint.returnedCount)] ++ noted checkpoint.remainingDescription

def hypothesisLine (hypothesis : Playbooks.InvestigationHypothesis) : List Piece :=
  [.lit "- ", .val hypothesis.hypothesisId, .lit ": ", .val hypothesis.status.name, .lit " / subject ",
    .val hypothesis.subjectRef, .lit " / ", .val hypothesis.claim]

def obligationLine (obligation : InvestigationObligation) : List Piece :=
  [Piece.lit "- ", .val obligation.obligationId, .lit ": OBLIGATION ", .val obligation.obligationKind, .lit " / ",
    .val obligation.status.name, .lit " / required ", .val (toString obligation.required)] ++
    listedAfter " / gaps " obligation.gapRefs

def actionLine (action : QueuedAction) : List Piece :=
  [Piece.lit "- ", .val action.actionId, .lit ": ACTION ", .val action.operationRef, .lit " / ",
    .val action.status.name] ++ noted action.error

def assessmentLine (item : RecordedAssessment) : List Piece :=
  [Piece.lit "- ", .val item.assessmentId, .lit ": ", .val item.authorType.name, .lit " / ",
    .val item.category.name, .lit " / ", .val item.verdict.name, .lit " / ", .val item.severity.name,
    .lit " / subject ", .val (item.subjectRef.getD "OBSERVED_CATEGORY"), .lit " / Facts "] ++
    listedOrNone item.factRefs ++ [Piece.lit " / Evidence "] ++ listedOrNone item.evidenceRefs ++
    [Piece.lit "\n  ", .val item.rationale]

def effectiveLine (item : Projection.EffectiveAssessmentProjection) : List Piece :=
  [Piece.lit "- ", .val item.projectionKey, .lit ": ", .val item.conclusion.name] ++
    (if item.conclusion = .conflict then [Piece.lit " / UNRESOLVED"] else []) ++ [Piece.lit " / effective "] ++
    listedOrNone item.effectiveAssessmentIds ++ [Piece.lit " / superseded "] ++
    listedOrNone item.supersededAssessmentIds ++ listedAfter " / ignored relations " item.ignoredRelationIds

def gapLine (gap : InvestigationGap) : List Piece :=
  [.lit "- ", .val gap.gapId, .lit ": ", .val gap.code.name, .lit " / ", .val gap.reasonCode, .lit " / ",
    .val ((gap.category.map (·.name)).getD "task")]

def evidenceLine (item : TypedEvidence) : List Piece :=
  [.lit "- ", .val item.evidenceId, .lit ": ", .val item.type, .lit " / SHA-256 ",
    .val (item.sha256.getD "N/A")]

def writeLine (item : WriteRecord) : List Piece :=
  [.lit "- ", .val item.actionId, .lit ": ", .val item.status]

/-- Lines for the items, or the line that says that there are none. -/
def linesOf {α : Type} (none : String) (line : α → List Piece) (items : List α) : List (List Piece) :=
  if items.isEmpty then [[.lit none]] else items.map line

def heading (text : String) : List (List Piece) := [[.lit ""], [.lit text], [.lit ""]]

/-! The sections, each with its heading. -/

def taskSection : List (List Piece) :=
  heading "## 任务与 Epoch" ++
  [[Piece.lit "- 任务：", .val p.taskId], [Piece.lit "- Epoch：", .val p.epochId], [Piece.lit "- 目标：", .val p.target],
    [Piece.lit "- 模式：", .val p.mode.name], [Piece.lit "- 请求：", .val p.request]]

def coverageSection : List (List Piece) :=
  heading "## Coverage 与模型状态" ++ p.checks.map p.coverageLine

def investigationSection : List (List Piece) :=
  heading "## 调查闭合与调度状态" ++ [p.completionLine] ++ p.discovery.map checkpointLine ++
  p.hypotheses.map hypothesisLine ++ p.obligations.map obligationLine ++ p.actions.map actionLine

def assessmentSection : List (List Piece) :=
  heading "## Assessment Ledger" ++
  linesOf "- 尚无 RULE / MODEL / HUMAN Assessment；不得推断为无风险。" assessmentLine p.assessments

def effectiveSection : List (List Piece) :=
  heading "## Effective Assessment Projection" ++
  linesOf "- 尚无有效结论投影；不得推断为无风险。" effectiveLine p.effectiveAssessments

def gapSection : List (List Piece) :=
  heading "## Investigation Gaps" ++ linesOf "- 无模型调查限制记录。" gapLine p.investigationGaps

def evidenceSection : List (List Piece) := heading "## Evidence" ++ p.evidence.map evidenceLine

def recoveryLine (r : Runtime) (event : AuditEvent) : List Piece := [.lit "- ", .val (r.stringify event)]

def writeSection (r : Runtime) : List (List Piece) :=
  heading "## 审批、动作与恢复" ++ linesOf "- 无写操作。" writeLine p.writes ++
  linesOf "- 未发生恢复流程。" (recoveryLine r) p.recovery

def limitSection : List (List Piece) :=
  heading "## 固定限制" ++
  [[.lit "Coverage 完整性与风险判断正交；不完整、未调查和不适用均不等于安全。"], [.lit ""]]

def lines (r : Runtime) : List (List Piece) :=
  [[.lit "# HuntWarden v2 主机取证报告"]] ++ p.taskSection ++ p.coverageSection ++ p.investigationSection ++
  p.assessmentSection ++ p.effectiveSection ++ p.gapSection ++ p.evidenceSection ++ p.writeSection r ++
  limitSection

def fallbackV2 (r : Runtime) : String := String.ofList (joined (p.lines r))

end ReportProjection

/-! ### The validator -/

inductive ReferenceKind where
  | assessment | coverage | gap | evidence | action
  deriving DecidableEq, Repr

def hexOrHyphen (c : Char) : Bool := c.isDigit || "abcdefABCDEF-".toList.contains c

theorem part_of_hexOrHyphen {c : Char} (h : hexOrHyphen c) : part c := by
  rw [hexOrHyphen, Bool.or_eq_true, List.contains_iff_mem] at h
  rcases h with h | h
  · simp [part, word, Char.isAlphanum, h]
  · have hpart : "abcdefABCDEF-".toList.all part = true := by decide
    exact List.all_eq_true.1 hpart c h

/-- Every character of every place may stand in a reference. -/
theorem forall_part {head : List (List Char)} (h : head.all (·.all part) = true) :
    ∀ place ∈ head, ∀ c ∈ place, part c := fun place hplace =>
  List.all_eq_true.1 (List.all_eq_true.1 h place hplace)

/-- `/\bHEAD-[0-9a-f-]{36}/gi` -/
def idPattern (head : List (List Char)) (hne : head ≠ []) (hpart : ∀ place ∈ head, ∀ c ∈ place, part c) :
    Pattern where
  head
  class_ := hexOrHyphen
  count := 36
  head_ne_nil := hne
  head_part := hpart
  class_part _ := part_of_hexOrHyphen

namespace ReferenceKind

def label : ReferenceKind → String
  | .assessment => "Assessment"
  | .coverage => "Coverage"
  | .gap => "InvestigationGap"
  | .evidence => "Evidence"
  | .action => "Action"

def pattern : ReferenceKind → Pattern
  | .assessment => idPattern [['A', 'a'], ['S', 's'], ['M', 'm'], ['-']] (by decide) (forall_part rfl)
  | .coverage => idPattern [['C', 'c'], ['O', 'o'], ['V', 'v'], ['-']] (by decide) (forall_part rfl)
  | .gap => idPattern [['I', 'i'], ['G', 'g'], ['A', 'a'], ['P', 'p'], ['-']] (by decide) (forall_part rfl)
  | .evidence => idPattern [['E', 'e'], ['V', 'v'], ['-']] (by decide) (forall_part rfl)
  | .action => idPattern [['A', 'a'], ['C', 'c'], ['T', 't'], ['-']] (by decide) (forall_part rfl)

end ReferenceKind

def kinds : List ReferenceKind := [.assessment, .coverage, .gap, .evidence, .action]

structure ReportValidation where
  valid : Bool
  errors : List String
  deriving DecidableEq, Repr

namespace ReportProjection

variable (p : ReportProjection)

/-- The ids of the projection that a text may refer to. -/
def allowed : ReferenceKind → List String
  | .assessment => p.assessments.map (·.assessmentId)
  | .coverage => p.coverage.map (·.coverageId)
  | .gap => p.investigationGaps.map (·.gapId)
  | .evidence => (p.evidence.map (·.evidenceId)).filter (· ≠ "")
  | .action => (p.writes.map (·.actionId)).filter (· ≠ "") ++ p.toolRunIds

def referenceErrors (markdown : String) : List String :=
  kinds.flatMap fun kind => ((kind.pattern.references markdown.toList).map String.ofList).filterMap fun id =>
    if id ∈ p.allowed kind then none else some s!"未知 {kind.label} 引用: {id}"

end ReportProjection

/-- `markdown.includes(text)` -/
def includes (markdown text : String) : Bool := decide (text.toList <:+: markdown.toList)

/-- An error unless the markdown shows all of the texts. -/
def shown (markdown : String) (texts : List String) (error : String) : List String :=
  if texts.all (includes markdown) then [] else [error]

namespace ReportProjection

variable (p : ReportProjection) (markdown : String)

def categoryErrors (category : CheckCategory) : List String :=
  match p.runOf category with
  | none => [s!"缺少 CoverageRun: {category.name}"]
  | some run =>
    shown markdown [run.coverageId] s!"报告未展示 Coverage ID: {run.coverageId}" ++
    shown markdown [run.status.name, run.applicability.name]
      s!"报告未展示 Coverage 状态: {category.name}/{run.status.name}/{run.applicability.name}" ++
    shown markdown ["MODEL: " ++ (p.stateOf category).name]
      s!"报告未展示模型状态: {category.name}/MODEL: {(p.stateOf category).name}"

def assessmentErrors (assessment : RecordedAssessment) : List String :=
  shown markdown [assessment.assessmentId] s!"报告未展示 Assessment: {assessment.assessmentId}" ++
  shown markdown [assessment.verdict.name]
    s!"报告未展示 Assessment verdict: {assessment.assessmentId}/{assessment.verdict.name}"

def effectiveErrors (effective : Projection.EffectiveAssessmentProjection) : List String :=
  shown markdown [effective.projectionKey, effective.conclusion.name]
    s!"报告未展示有效结论: {effective.projectionKey}/{effective.conclusion.name}" ++
  if effective.conclusion = .conflict then
    shown markdown ["UNRESOLVED"] s!"冲突结论必须显示 UNRESOLVED: {effective.projectionKey}"
  else []

def writeErrors (item : WriteRecord) : List String :=
  if item.actionId = "" then []
  else shown markdown [item.actionId, item.status] s!"报告未展示动作: {item.actionId}/{item.status}"

def completionErrors : List String :=
  match p.completion with
  | some completion => shown markdown [completion.snapshotRef, completion.investigationStatus.name]
      s!"报告未展示调查完成快照: {completion.snapshotRef}/{completion.investigationStatus.name}"
  | none => shown markdown ["INVESTIGATION: OPEN / INCOMPLETE"]
      "未冻结调查必须显示 INVESTIGATION: OPEN / INCOMPLETE"

def incompleteErrors : List String :=
  if p.coverage.any unsafe_ then shown markdown ["INCOMPLETE"] "不完整 Coverage 必须显示 INCOMPLETE" else []

def errors : List String :=
  p.referenceErrors markdown ++
  shown markdown [p.epochId] s!"报告未展示 Epoch: {p.epochId}" ++
  p.checks.flatMap (p.categoryErrors markdown) ++
  p.assessments.flatMap (assessmentErrors markdown) ++
  p.effectiveAssessments.flatMap (effectiveErrors markdown) ++
  p.investigationGaps.flatMap (fun gap => shown markdown [gap.gapId, gap.code.name]
    s!"报告未展示 InvestigationGap: {gap.gapId}/{gap.code.name}") ++
  p.writes.flatMap (writeErrors markdown) ++
  p.completionErrors markdown ++
  p.obligations.flatMap (fun obligation => shown markdown [obligation.obligationId, obligation.status.name]
    s!"报告未展示调查义务: {obligation.obligationId}/{obligation.status.name}") ++
  p.actions.flatMap (fun action => shown markdown [action.actionId, action.status.name]
    s!"报告未展示调查动作: {action.actionId}/{action.status.name}") ++
  p.discovery.flatMap (fun checkpoint => shown markdown [checkpoint.checkpointId, checkpoint.status.name]
    s!"报告未展示发现检查点: {checkpoint.checkpointId}/{checkpoint.status.name}") ++
  p.incompleteErrors markdown

def validateV2 : ReportValidation where
  valid := (p.errors markdown).isEmpty
  errors := Js.distinct (p.errors markdown)

end ReportProjection

/-- `validate(taskId, markdown)`, of a task that is found. -/
def validate (r : Runtime) (s : ReportStore) (task : ReportTask) (markdown : String) : ReportValidation :=
  if task.protocolVersion = some 2 then
    match s.projectionV2 r task with
    | .ok projection => projection.validateV2 markdown
    | .error _ => ⟨false, ["任务没有可校验的 v2 Epoch：v1 历史任务只保留已生成的报告文件"]⟩
  else ⟨false, ["任务没有可校验的 v2 Epoch：v1 历史任务只保留已生成的报告文件"]⟩

end Report

end HuntWarden
