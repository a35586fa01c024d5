import HuntWarden.Evaluation.Manifest

/-! `evaluateInvestigation`: the checks of the manifest and, for a blind release, of its ledger and archived truth; the
    measures of every case; and the metrics of the first runs against the thresholds. -/

namespace HuntWarden.InvestigationEvaluator

open CompletionValidator (Evidence InvestigationStatus CheckpointStatus)
open Projection (Conclusion EffectiveAssessmentProjection projectEffectiveAssessments sortTexts)
open StableJson

/-! ### The store -/

structure EvaluatedTask where
  taskId : String
  protocolVersion : Option ℕ
  activeEpochId : Option String

structure EvaluatedEpoch where
  epochId : String
  controllerCommit : Option String
  controllerTreeClean : Option Bool
  controllerCommitAtFinish : Option String
  controllerTreeCleanAtFinish : Option Bool
  helperSha256 : Option String
  running : Bool
  startedAt : String
  finishedAt : Option String

structure EvaluatedAssessment extends Assessment where
  factRefs : List String

inductive ActionOrigin where
  | discovery | playbook | model | other
  deriving DecidableEq

structure EvaluatedAttempt where
  attemptId : String
  actionId : String
  attempt : ℕ
  status : ActionStatus
  error : Option String
  startedAt : String
  finishedAt : Option String

structure EvaluatedGap where
  code : String
  reasonCode : String

structure EvaluatedCheckpoint where
  status : CheckpointStatus
  remainingDescription : Option String

structure EvaluatedSession where
  stopped : Bool
  investigationStatus : InvestigationStatus
  createdAt : String
  updatedAt : String

/-- What was recorded for one task and epoch; the evidence is that of the task. -/
structure RunData where
  facts : List FactRecord
  evidence : List Evidence
  assessments : List EvaluatedAssessment
  assessmentRelations : List AssessmentRelation
  obligations : List InvestigationObligation
  attempts : List EvaluatedAttempt
  edges : List EdgeRecord
  provenance : List CompletionValidator.RelationProvenance
  requestedBy : String → ActionOrigin
  session : Option EvaluatedSession
  gaps : List EvaluatedGap
  missingCriteria : List String
  checkpoints : List EvaluatedCheckpoint

structure EvaluationStore where
  getTask : String → Option EvaluatedTask
  taskId_eq : ∀ taskId task, getTask taskId = some task → task.taskId = taskId
  listScanEpochs : String → List EvaluatedEpoch
  runData : String → String → RunData

/-! ### The runtime -/

/-- The order of texts and the instants they denote, the hash and the numbers of its texts, how the quotient of two
    counts is rounded, the confidence interval, the case of texts, and the schema library. -/
structure Runtime extends Projection.Runtime where
  numbers : NumberText
  hash : Hash
  round : ℚ → ℚ
  wilson : ℕ → ℕ → ℚ × ℚ
  lowerCase : String → String
  typeBox : TypeBox

inductive EvaluationError where
  | message (text : String)
  deriving DecidableEq

variable (r : Runtime)

def Runtime.digestObject (value : Json) : String := StableJson.digestObject r.collation r.numbers r.hash value

/-! ### The checks -/

def countOf (manifest : InvestigationEvaluationManifest) (disposition : Disposition) : ℕ :=
  (manifest.cases.filter fun item => item.runKind = .first && item.disposition = disposition).length

def validateBlindRelease (value : InvestigationEvaluationManifest) : Except EvaluationError Unit :=
  match value.truthSet with
  | none => .error (.message "BLIND_RELEASE 必须声明冻结真值集、独立角色和答案隔离")
  | some truthSet =>
    if r.lowerCase (Js.trim truthSet.curator) = r.lowerCase (Js.trim truthSet.runner) then
      .error (.message "BLIND_RELEASE 的真值集维护者不能同时担任运行者")
    else if r.dateParse truthSet.frozenAt = none then .error (.message "BLIND_RELEASE 的 frozenAt 必须是有效时间")
    else if countOf value .malicious < 100 ∨ countOf value .benign < 100 ∨ countOf value .limited < 1 then
      .error (.message (s!"BLIND_RELEASE 首跑样本不足: malicious={countOf value .malicious}, " ++
        s!"benign={countOf value .benign}, limited={countOf value .limited}"))
    else if value.thresholds.minCollectionRecall.getD 0 < r.round (19 / 20) ∨
        value.thresholds.minDiscoveryRecall < r.round (19 / 20) ∨
        value.thresholds.minEvidencePreservation < r.round (19 / 20) ∨
        r.round (1 / 20) < value.thresholds.maxBenignFalsePositive then
      .error (.message "BLIND_RELEASE 阈值不得低于采集率/恶意发现率/保全率 95% 或放宽良性误报率 5%")
    else if (!isDigest 40 value.environment.commit && !isDigest 64 value.environment.commit) ||
        value.environment.commit.toList.all (· = '0') then
      .error (.message "BLIND_RELEASE 必须绑定非零完整提交摘要")
    else .ok ()

/-- The first check that a case fails, after those before it. -/
def checkCase (before : List CaseDefinition) (item : CaseDefinition) : Except EvaluationError Unit :=
  if item.caseId ∈ before.map (·.caseId) then .error (.message s!"重复 caseId: {item.caseId}")
  else if item.taskId ∈ before.map (·.taskId) then .error (.message s!"重复 taskId: {item.taskId}")
  else if item.runKind = .first ∧ item.retryOfCaseId.getD "" ≠ "" then
    .error (.message s!"首次运行不能设置 retryOfCaseId: {item.caseId}")
  else if item.disposition = .limited ∧ item.expectedGapCodes.getD [] = [] then
    .error (.message s!"受限 case 必须声明 expectedGapCodes: {item.caseId}")
  else .ok ()

def checkCases : List CaseDefinition → List CaseDefinition → Except EvaluationError Unit
  | _, [] => .ok ()
  | before, item :: items => (checkCase before item).bind fun _ => checkCases (before ++ [item]) items

/-- A retry keeps the truth of its first run. -/
def checkRetry (cases : List CaseDefinition) (item : CaseDefinition) : Except EvaluationError Unit :=
  if item.runKind ≠ .retry then .ok ()
  else
    match (item.retryOfCaseId.filter (· ≠ "")).bind fun id => cases.find? (·.caseId = id) with
    | none => .error (.message s!"重试 case 必须引用同清单首次运行: {item.caseId}")
    | some first =>
      if first.runKind ≠ .first then .error (.message s!"重试 case 必须引用同清单首次运行: {item.caseId}")
      else if first.disposition ≠ item.disposition ∨ first.entryMode ≠ item.entryMode ∨
          first.expectedCategories ≠ item.expectedCategories ∨ first.expectedFacts ≠ item.expectedFacts ∨
          first.expectedRelations.getD [] ≠ item.expectedRelations.getD [] ∨
          first.expectedGapCodes.getD [] ≠ item.expectedGapCodes.getD [] then
        .error (.message s!"重试 case 必须保留首次运行的真值定义: {item.caseId}")
      else .ok ()

def checkRetries (cases : List CaseDefinition) : List CaseDefinition → Except EvaluationError Unit
  | [] => .ok ()
  | item :: items => (checkRetry cases item).bind fun _ => checkRetries cases items

def isBlindRelease (manifest : InvestigationEvaluationManifest) : Bool := manifest.evaluationMode = some .blindRelease

/-- One line for each error. -/
def describeErrors (errors : List ValueError) : String :=
  "\n".intercalate (errors.map fun error =>
    (if error.instancePath = "" then "/" else error.instancePath) ++ ": " ++ error.message)

def parseInvestigationEvaluationManifest (input : InvestigationEvaluationManifest) :
    Except EvaluationError InvestigationEvaluationManifest :=
  let errors := r.typeBox.errors InvestigationEvaluationManifestSchema input.json
  if ¬ errors.isEmpty then .error (.message ("调查评测清单无效:\n" ++ describeErrors errors))
  else (checkCases [] input.cases).bind fun _ => (checkRetries input.cases input.cases).bind fun _ =>
    if isBlindRelease input then (validateBlindRelease r input).map fun _ => input else .ok input

def verifyInvestigationTruthArchive (truth archivedTruth : Json) (archiveSha256 : String) :
    Except EvaluationError Unit :=
  if ¬ r.typeBox.check InvestigationEvaluationTruthSchema truth ∨ truth.get? "truthSet" = none then
    .error (.message "正式评分真值必须使用无 Task/Epoch 的严格 schema v2")
  else if ¬ isDigest 64 archiveSha256 ∨ truth.at? ["truthSet", "archiveSha256"] ≠ some (.str archiveSha256) then
    .error (.message "独立真值归档 SHA-256 不一致")
  else if ¬ r.typeBox.check ArchivedInvestigationTruthSchema archivedTruth ∨
      archivedTruth.get? "truthSet" = none then
    .error (.message "归档 truth.json 必须使用无 Task/Epoch 的严格真值 schema")
  else if (archivedTruth.at? ["truthSet", "archiveSha256"]).any (· ≠ .str archiveSha256) then
    .error (.message "归档 truth.json 的 SHA-256 声明不一致")
  else if r.digestObject truth ≠
      r.digestObject (archivedTruth.setIn "truthSet" "archiveSha256" (.str archiveSha256)) then
    .error (.message "真值清单内容与归档 truth.json 不一致")
  else .ok ()

/-- `new Map(run.cases.map((item) => [item.caseId, item])).get(caseId)` -/
def runCase? (run : InvestigationRunRecord) (caseId : String) : Option RunCase :=
  run.cases.reverse.find? (·.caseId = caseId)

/-- The ledger has the case with the same task, epoch, kind and retry link. -/
def agrees (run : InvestigationRunRecord) (definition : CaseDefinition) : Bool :=
  match runCase? run definition.caseId with
  | none => false
  | some actual => actual.taskId.getD "" ≠ "" && actual.epochId.getD "" ≠ "" &&
      actual.taskId = some definition.taskId && actual.epochId = definition.epochId &&
      actual.runKind = definition.runKind && actual.retryOfCaseId = definition.retryOfCaseId

def checkLedger (run : InvestigationRunRecord) : List CaseDefinition → Except EvaluationError Unit
  | [] => .ok ()
  | definition :: definitions =>
    if agrees run definition then checkLedger run definitions
    else .error (.message s!"BLIND_RELEASE 案例与实际运行账本不一致: {definition.caseId}")

/-- `!Number.isFinite(startedAt) || !Number.isFinite(finishedAt) || finishedAt < startedAt || frozenAt > startedAt`,
    the other way round. -/
def frozenBefore (frozenAt startedAt finishedAt : Option ℤ) : Bool :=
  match startedAt, finishedAt with
  | some started, some finished => started ≤ finished && !(frozenAt.any (started < ·))
  | _, _ => false

def validateBlindRun (manifest : InvestigationEvaluationManifest)
    (qualification : Option InvestigationEvaluationQualification) : Except EvaluationError InvestigationRunRecord :=
  match qualification, qualification.bind (·.run) with
  | some qualification, some run =>
    if ¬ r.typeBox.check InvestigationRunRecordSchema run.json then
      .error (.message "BLIND_RELEASE 必须提供包含 Helper 摘要的完整 schema v1 运行账本和真值归档")
    else if run.evaluationMode ≠ .blindRelease ∨ run.clean = false ∨ run.commit ≠ manifest.environment.commit ∨
        run.suiteId ≠ manifest.suiteId then
      .error (.message "BLIND_RELEASE 运行模式、干净提交或套件不一致；DEVELOPMENT 不能提升为正式资格")
    else if ¬ frozenBefore (manifest.truthSet.bind fun truthSet => r.dateParse truthSet.frozenAt)
        (r.dateParse run.startedAt) (r.dateParse run.finishedAt) then
      .error (.message "BLIND_RELEASE 真值必须在完整运行时间区间前冻结")
    else if run.plannedCases ≠ manifest.cases.length ∨ run.cases.length ≠ run.plannedCases then
      .error (.message "BLIND_RELEASE 必须保留完整 FIRST/RETRY 运行分母")
    else if (Js.distinct (run.cases.map (·.caseId))).length ≠ run.cases.length then
      .error (.message "BLIND_RELEASE 运行账本包含重复 caseId")
    else (checkLedger run manifest.cases).bind fun _ =>
      (verifyInvestigationTruthArchive r manifest.truthJson qualification.archivedTruth
        qualification.archiveSha256).map fun _ => run
  | _, _ => .error (.message "BLIND_RELEASE 必须提供包含 Helper 摘要的完整 schema v1 运行账本和真值归档")

/-! ### One case -/

structure InvestigationEpochIdentity where
  epochId : String
  controllerCommit : Option String
  controllerTreeClean : Option Bool
  controllerCommitAtFinish : Option String
  controllerTreeCleanAtFinish : Option Bool
  helperSha256 : Option String
  deriving DecidableEq

def investigationEpochIdentity (epoch : EvaluatedEpoch) : InvestigationEpochIdentity where
  epochId := epoch.epochId
  controllerCommit := epoch.controllerCommit
  controllerTreeClean := epoch.controllerTreeClean
  controllerCommitAtFinish := epoch.controllerCommitAtFinish
  controllerTreeCleanAtFinish := epoch.controllerTreeCleanAtFinish
  helperSha256 := epoch.helperSha256

def investigationEpochIdentityFailures (epoch : EvaluatedEpoch) (run : InvestigationRunRecord) : List String :=
  (if epoch.controllerCommit ≠ some run.commit then ["CONTROLLER_COMMIT_MISMATCH"] else []) ++
    (if epoch.controllerTreeClean ≠ some true then ["CONTROLLER_TREE_NOT_CLEAN"] else []) ++
    (if epoch.controllerCommitAtFinish ≠ some run.commit then ["CONTROLLER_FINISH_COMMIT_MISMATCH"] else []) ++
    (if epoch.controllerTreeCleanAtFinish ≠ some true then ["CONTROLLER_FINISH_TREE_NOT_CLEAN"] else []) ++
    (if epoch.helperSha256 ≠ some run.helperSha256 then ["HELPER_SHA256_MISMATCH"] else [])

/-- The epoch has ended, and within the run. -/
def withinRun (run : InvestigationRunRecord) (epoch : EvaluatedEpoch) : Bool :=
  !epoch.running &&
    match r.dateParse epoch.startedAt, r.dateParse (epoch.finishedAt.getD "") with
    | some started, some finished => started ≤ finished &&
        !((r.dateParse run.startedAt).any (started < ·)) && !((r.dateParse run.finishedAt).any (· < finished))
    | _, _ => false

def epochFailures (run : InvestigationRunRecord) (caseId : String) (epoch : EvaluatedEpoch) : List String :=
  (investigationEpochIdentityFailures epoch run).map (fun failure => s!"{caseId}/{epoch.epochId}: {failure}") ++
    if withinRun r run epoch then [] else [s!"{caseId}/{epoch.epochId}: EPOCH_OUTSIDE_FROZEN_RUN"]

/-- `value[a][b]…` along own properties. -/
def fieldValue (value : Json) (path : List Char) : Option Json :=
  value.at? ((path.splitOn '.').map String.ofList)

/-- `["SATISFIED", "LIMITED", "CANCELLED"].includes(status)` -/
def isSettled : ObligationStatus → Bool
  | .satisfied | .limited | .cancelled => true
  | _ => false

/-- `["SUSPICIOUS", "HIGHLY_SUSPICIOUS", "CONFIRMED_MALICIOUS", "CONFLICT"].includes(conclusion)` -/
def isRisky : Conclusion → Bool
  | .verdict .suspicious | .verdict .highlySuspicious | .verdict .confirmedMalicious | .conflict => true
  | _ => false

def matchesEndpoint (endpoint : ExpectedEndpoint) (fact : FactRecord) : Bool :=
  fact.namespace_ = endpoint.namespace_ &&
    fieldValue (.obj fact.privatePayload) endpoint.field.toList = some endpoint.value

/-- The facts that each expected fact finds. -/
def matchedFacts (definition : CaseDefinition) (data : RunData) : List (List FactRecord) :=
  definition.expectedFacts.map fun matcher => data.facts.filter (matchesEndpoint matcher.toExpectedEndpoint)

/-- Whole and verified evidence of the epoch for the fact's subject. -/
def isPreserved (data : RunData) (epochId : String) (fact : FactRecord) : Bool :=
  data.evidence.any fun item => item.metadata.any fun metadata =>
    metadata.get? "subjectRef" = some (.str fact.subjectRef) && metadata.get? "complete" = some (.bool true) &&
      metadata.get? "integrityStatus" = some (.str "VERIFIED") && metadata.get? "epochId" = some (.str epochId)

/-- The expected facts that need evidence, with the facts found for them. -/
def requiredEvidence (definition : CaseDefinition) (data : RunData) : List (ExpectedFact × List FactRecord) :=
  (definition.expectedFacts.zip (matchedFacts definition data)).filter fun entry => entry.1.evidenceRequired = some true

def isMatchedRelation (data : RunData) (expected : ExpectedRelation) : Bool :=
  let fromRefs := (data.facts.filter (matchesEndpoint expected.from_)).map (·.subjectRef)
  let toRefs := (data.facts.filter (matchesEndpoint expected.to_)).map (·.subjectRef)
  data.edges.any fun edge =>
    edge.relation = expected.relation && fromRefs.contains edge.fromRef && toRefs.contains edge.toRef &&
      expected.derivation.all fun derivation =>
        (data.provenance.reverse.find? (·.edgeRef = edge.edgeId)).any (·.derivation = derivation)

def riskProjections (data : RunData) : List EffectiveAssessmentProjection :=
  (projectEffectiveAssessments r.toRuntime (data.assessments.map (·.toAssessment)) data.assessmentRelations).filter
    fun item => isRisky item.conclusion

def riskyCategories (data : RunData) : List CheckCategory := Js.distinct ((riskProjections r data).map (·.category))

def isMaliciousDiscovered (definition : CaseDefinition) (data : RunData) : Bool :=
  let matched := (matchedFacts definition data).flatten
  definition.disposition = .malicious && (riskProjections r data).any fun projection =>
    projection.scope = .subject && projection.subjectRef.any (matched.map (·.subjectRef)).contains &&
      definition.expectedCategories.contains projection.category &&
      projection.effectiveAssessmentIds.any fun assessmentId =>
        (data.assessments.reverse.find? (·.assessmentId = assessmentId)).any fun assessment =>
          assessment.subjectRef = projection.subjectRef &&
            assessment.factRefs.any (matched.map (·.factId)).contains

def requiredObligations (data : RunData) : List InvestigationObligation := data.obligations.filter (·.required)

def openRequiredObligationIds (data : RunData) : List String :=
  ((requiredObligations data).filter (·.status.isOpen)).map (·.obligationId)

def checkpointStatusName : CheckpointStatus → String
  | .running => "RUNNING"
  | .complete => "COMPLETE"
  | .limited => "LIMITED"
  | .failed => "FAILED"

def observedGapCodes (data : RunData) : List String :=
  sortTexts (Js.distinct (data.obligations.flatMap (·.gapRefs) ++
    data.gaps.flatMap (fun item => [item.code, item.reasonCode]) ++ data.missingCriteria ++
    (data.checkpoints.filter fun item => item.status = .limited || item.status = .failed).map fun item =>
      item.remainingDescription.getD (checkpointStatusName item.status)))

def investigationStatusName : InvestigationStatus → String
  | .open_ => "OPEN"
  | .limited => "LIMITED"
  | .closedWithFindings => "CLOSED_WITH_FINDINGS"
  | .closedNoObservedFinding => "CLOSED_NO_OBSERVED_FINDING"
  | .cancelled => "CANCELLED"

def completionStatus (data : RunData) : String :=
  data.session.elim "NOT_STARTED" fun session => investigationStatusName session.investigationStatus

def isLimitRecognized (definition : CaseDefinition) (data : RunData) : Bool :=
  definition.disposition ≠ .limited || ["LIMITED", "CANCELLED"].contains (completionStatus data) &&
    (definition.expectedGapCodes.getD []).all (observedGapCodes data).contains

def isAutonomouslyClosed (data : RunData) : Bool :=
  data.session.any (·.stopped) &&
    ["CLOSED_WITH_FINDINGS", "CLOSED_NO_OBSERVED_FINDING", "LIMITED"].contains (completionStatus data) &&
    (openRequiredObligationIds data).isEmpty

inductive FailureAttribution where
  | collectionMissing | investigationNotReached | adjudicationMissing | preservationFailed | obligationIncomplete
  | expectedLimitNotRecorded
  deriving DecidableEq

/-- What is counted of a case. -/
structure CaseMeasures where
  discoveredLabels : ℕ
  expectedLabels : ℕ
  preservedLabels : ℕ
  expectedPreservationLabels : ℕ
  matchedRelations : ℕ
  expectedRelations : ℕ
  obligations : ℕ
  closedObligations : ℕ
  maliciousDiscovered : Bool
  riskyCategories : List CheckCategory
  limitRecognized : Bool
  autonomouslyCompleted : Bool
  deriving DecidableEq

def measureCase (definition : CaseDefinition) (epochId : String) (data : RunData) : CaseMeasures where
  discoveredLabels := ((matchedFacts definition data).filter (· ≠ [])).length
  expectedLabels := definition.expectedFacts.length
  preservedLabels := ((requiredEvidence definition data).filter fun entry =>
    entry.2.any (isPreserved data epochId)).length
  expectedPreservationLabels := (requiredEvidence definition data).length
  matchedRelations := ((definition.expectedRelations.getD []).filter (isMatchedRelation data)).length
  expectedRelations := (definition.expectedRelations.getD []).length
  obligations := (requiredObligations data).length
  closedObligations := ((requiredObligations data).filter fun item => isSettled item.status).length
  maliciousDiscovered := isMaliciousDiscovered r definition data
  riskyCategories := riskyCategories r data
  limitRecognized := isLimitRecognized definition data
  autonomouslyCompleted := isAutonomouslyClosed data

def failureAttributions (definition : CaseDefinition) (data : RunData) (measures : CaseMeasures) :
    List FailureAttribution :=
  let reachedRefs := data.obligations.flatMap (·.resultRefs)
  (if measures.discoveredLabels < measures.expectedLabels then [FailureAttribution.collectionMissing] else []) ++
    (if (matchedFacts definition data).any fun items =>
        items ≠ [] && !(items.any fun fact => reachedRefs.contains fact.factId) then
      [FailureAttribution.investigationNotReached] else []) ++
    (if definition.disposition = .malicious ∧ measures.maliciousDiscovered = false then
      [FailureAttribution.adjudicationMissing] else []) ++
    (if measures.preservedLabels < measures.expectedPreservationLabels then
      [FailureAttribution.preservationFailed] else []) ++
    (if openRequiredObligationIds data ≠ [] then [FailureAttribution.obligationIncomplete] else []) ++
    (if measures.limitRecognized = false then [FailureAttribution.expectedLimitNotRecorded] else [])

/-- The instants of the session and the attempts: from the first to the last, if there are two. -/
def durationMs (data : RunData) : Option ℤ :=
  let texts := data.session.elim [] (fun session => [session.createdAt, session.updatedAt]) ++
    data.attempts.flatMap fun attempt => attempt.startedAt :: attempt.finishedAt.toList
  match (texts.filter (· ≠ "")).filterMap r.dateParse with
  | first :: second :: rest =>
    some ((second :: rest).foldl max first - (second :: rest).foldl min first)
  | _ => none

structure InvestigationCaseEvaluation where
  caseId : String
  taskId : String
  epochId : String
  epochs : List InvestigationEpochIdentity
  disposition : Disposition
  runKind : RunKind
  retryOfCaseId : Option String
  measures : CaseMeasures
  openRequiredObligationIds : List String
  autonomousExecutedActions : ℕ
  completionStatus : String
  observedGapCodes : List String
  durationMs : Option ℤ
  actionAttempts : List EvaluatedAttempt
  failureAttributions : List FailureAttribution

def evaluateCase (definition : CaseDefinition) (taskId epochId : String) (epochs : List EvaluatedEpoch)
    (data : RunData) : InvestigationCaseEvaluation where
  caseId := definition.caseId
  taskId := taskId
  epochId := epochId
  epochs := epochs.map investigationEpochIdentity
  disposition := definition.disposition
  runKind := definition.runKind
  retryOfCaseId := definition.retryOfCaseId.filter (· ≠ "")
  measures := measureCase r definition epochId data
  openRequiredObligationIds := openRequiredObligationIds data
  autonomousExecutedActions := (data.attempts.filter fun attempt => data.requestedBy attempt.actionId ≠ .other).length
  completionStatus := completionStatus data
  observedGapCodes := observedGapCodes data
  durationMs := durationMs r data
  actionAttempts := data.attempts
  failureAttributions := failureAttributions definition data (measureCase r definition epochId data)

/-! ### The metrics -/

structure MetricAccumulator where
  caseCount : ℕ
  collected : ℕ
  collectionExpected : ℕ
  maliciousDiscovered : ℕ
  maliciousCases : ℕ
  preserved : ℕ
  preservationExpected : ℕ
  closedObligations : ℕ
  obligations : ℕ
  benignFalsePositive : ℕ
  benignCases : ℕ
  matchedRelations : ℕ
  expectedRelations : ℕ
  recognizedLimits : ℕ
  limitedCases : ℕ
  autonomousCompleted : ℕ
  deriving DecidableEq

def emptyAccumulator : MetricAccumulator := ⟨0, 0, 0, 0, 0, 0, 0, 0, 0, 0, 0, 0, 0, 0, 0, 0⟩

/-- `1` where it holds. -/
def one (b : Bool) : ℕ := if b then 1 else 0

def MetricAccumulator.add (accumulator : MetricAccumulator) (definition : CaseDefinition) (measures : CaseMeasures) :
    MetricAccumulator where
  caseCount := accumulator.caseCount + 1
  collected := accumulator.collected + measures.discoveredLabels
  collectionExpected := accumulator.collectionExpected + measures.expectedLabels
  maliciousDiscovered := accumulator.maliciousDiscovered +
    one (definition.disposition = .malicious && measures.maliciousDiscovered)
  maliciousCases := accumulator.maliciousCases + one (definition.disposition = .malicious)
  preserved := accumulator.preserved + measures.preservedLabels
  preservationExpected := accumulator.preservationExpected + measures.expectedPreservationLabels
  closedObligations := accumulator.closedObligations + measures.closedObligations
  obligations := accumulator.obligations + measures.obligations
  benignFalsePositive := accumulator.benignFalsePositive +
    one (definition.disposition = .benign && measures.riskyCategories ≠ [])
  benignCases := accumulator.benignCases + one (definition.disposition = .benign)
  matchedRelations := accumulator.matchedRelations + measures.matchedRelations
  expectedRelations := accumulator.expectedRelations + measures.expectedRelations
  recognizedLimits := accumulator.recognizedLimits +
    one (definition.disposition = .limited && measures.limitRecognized)
  limitedCases := accumulator.limitedCases + one (definition.disposition = .limited)
  autonomousCompleted := accumulator.autonomousCompleted + one measures.autonomouslyCompleted

structure RateMetric where
  numerator : ℕ
  denominator : ℕ
  rate : Option ℚ
  confidence95 : Option (ℚ × ℚ)
  deriving DecidableEq

def metric (numerator denominator : ℕ) : RateMetric :=
  if denominator = 0 then ⟨numerator, denominator, none, none⟩
  else ⟨numerator, denominator, some (r.round (numerator / denominator)), some (r.wilson numerator denominator)⟩

structure InvestigationMetricSet where
  collectionRecall : RateMetric
  discoveryRecall : RateMetric
  evidencePreservation : RateMetric
  obligationClosure : RateMetric
  benignFalsePositive : RateMetric
  relationshipRecall : RateMetric
  limitedRecognition : RateMetric
  autonomousCompletion : RateMetric
  deriving DecidableEq

def metricSet (values : MetricAccumulator) : InvestigationMetricSet where
  collectionRecall := metric r values.collected values.collectionExpected
  discoveryRecall := metric r values.maliciousDiscovered values.maliciousCases
  evidencePreservation := metric r values.preserved values.preservationExpected
  obligationClosure := metric r values.closedObligations values.obligations
  benignFalsePositive := metric r values.benignFalsePositive values.benignCases
  relationshipRecall := metric r values.matchedRelations values.expectedRelations
  limitedRecognition := metric r values.recognizedLimits values.limitedCases
  autonomousCompletion := metric r values.autonomousCompleted values.caseCount

inductive Comparator where
  | atLeast | atMost
  deriving DecidableEq

structure ThresholdResult where
  metric : String
  comparator : Comparator
  expected : ℚ
  actual : Option ℚ
  pass : Bool
  deriving DecidableEq

def compareMetric (metricName : String) (comparator : Comparator) (expected : ℚ) (actual : Option ℚ) :
    ThresholdResult where
  metric := metricName
  comparator := comparator
  expected := expected
  actual := actual
  pass := actual.any fun actual =>
    match comparator with
    | .atLeast => expected ≤ actual
    | .atMost => actual ≤ expected

def thresholdResultsOf (thresholds : Thresholds) (metrics : InvestigationMetricSet) : List ThresholdResult :=
  [compareMetric "collectionRecall" .atLeast (thresholds.minCollectionRecall.getD thresholds.minDiscoveryRecall)
      metrics.collectionRecall.rate,
    compareMetric "discoveryRecall" .atLeast thresholds.minDiscoveryRecall metrics.discoveryRecall.rate,
    compareMetric "evidencePreservation" .atLeast thresholds.minEvidencePreservation metrics.evidencePreservation.rate,
    compareMetric "obligationClosure" .atLeast thresholds.minObligationClosure metrics.obligationClosure.rate,
    compareMetric "benignFalsePositive" .atMost thresholds.maxBenignFalsePositive metrics.benignFalsePositive.rate] ++
  (thresholds.minRelationshipRecall.map fun expected =>
    compareMetric "relationshipRecall" .atLeast expected metrics.relationshipRecall.rate).toList ++
  (thresholds.minLimitedRecognition.map fun expected =>
    compareMetric "limitedRecognition" .atLeast expected metrics.limitedRecognition.rate).toList ++
  (thresholds.minAutonomousCompletion.map fun expected =>
    compareMetric "autonomousCompletion" .atLeast expected metrics.autonomousCompletion.rate).toList

/-! ### The evaluation -/

/-- The task, the epoch and all epochs of a case. -/
def openCase (store : EvaluationStore) (definition : CaseDefinition) :
    Except EvaluationError (EvaluatedTask × String × List EvaluatedEpoch) :=
  match store.getTask definition.taskId with
  | none => .error (.message s!"评测 case 引用未知 v2 task: {definition.caseId}")
  | some task =>
    if task.protocolVersion ≠ some 2 then .error (.message s!"评测 case 引用未知 v2 task: {definition.caseId}")
    else
      match (definition.epochId.or task.activeEpochId).filter (· ≠ "") with
      | none => .error (.message s!"评测 case 缺少 epoch: {definition.caseId}")
      | some epochId =>
        if (store.listScanEpochs task.taskId).any (·.epochId = epochId) then
          .ok (task, epochId, store.listScanEpochs task.taskId)
        else .error (.message s!"评测 case 引用未知 epoch: {definition.caseId}")

/-- What the loop over the cases has gathered. -/
structure Progress where
  qualificationFailures : List String
  cases : List InvestigationCaseEvaluation
  firstRun : MetricAccumulator
  retries : MetricAccumulator

def Progress.empty : Progress := ⟨[], [], emptyAccumulator, emptyAccumulator⟩

def Progress.record (progress : Progress) (run : Option InvestigationRunRecord) (definition : CaseDefinition)
    (taskId epochId : String) (epochs : List EvaluatedEpoch) (data : RunData) : Progress where
  qualificationFailures := progress.qualificationFailures ++
    run.elim [] fun run => epochs.flatMap (epochFailures r run definition.caseId)
  cases := progress.cases ++ [evaluateCase r definition taskId epochId epochs data]
  firstRun := if definition.runKind = .first then
    progress.firstRun.add definition (measureCase r definition epochId data) else progress.firstRun
  retries := if definition.runKind = .first then progress.retries
    else progress.retries.add definition (measureCase r definition epochId data)

def evaluateCases (store : EvaluationStore) (run : Option InvestigationRunRecord) :
    List CaseDefinition → Progress → Except EvaluationError Progress
  | [], progress => .ok progress
  | definition :: definitions, progress =>
    (openCase store definition).bind fun opened =>
      evaluateCases store run definitions (progress.record r run definition opened.1.taskId opened.2.1 opened.2.2
        (store.runData opened.1.taskId opened.2.1))

inductive EvaluationStatus where
  | pass | fail
  deriving DecidableEq

structure Population where
  firstRunCases : ℕ
  retryCases : ℕ
  maliciousFirstRunCases : ℕ
  benignFirstRunCases : ℕ
  limitedFirstRunCases : ℕ
  deriving DecidableEq

structure InvestigationEvaluationResult where
  manifest : InvestigationEvaluationManifest
  runIdentity : Option InvestigationRunRecord
  qualificationFailures : List String
  status : EvaluationStatus
  population : Population
  metrics : InvestigationMetricSet
  retryMetrics : Option InvestigationMetricSet
  thresholdResults : List ThresholdResult
  cases : List InvestigationCaseEvaluation

def resultOf (manifest : InvestigationEvaluationManifest) (run : Option InvestigationRunRecord) (progress : Progress) :
    InvestigationEvaluationResult :=
  let metrics := metricSet r progress.firstRun
  let thresholdResults := thresholdResultsOf manifest.thresholds metrics
  { manifest := manifest
    runIdentity := run
    qualificationFailures := progress.qualificationFailures
    status := if progress.qualificationFailures = [] ∧ thresholdResults.all (·.pass) then .pass else .fail
    population :=
      { firstRunCases := (manifest.cases.filter (·.runKind = .first)).length
        retryCases := progress.retries.caseCount
        maliciousFirstRunCases := countOf manifest .malicious
        benignFirstRunCases := countOf manifest .benign
        limitedFirstRunCases := countOf manifest .limited }
    metrics := metrics
    retryMetrics := if 0 < progress.retries.caseCount then some (metricSet r progress.retries) else none
    thresholdResults := thresholdResults
    cases := progress.cases }

/-- The ledger that a blind release has to bring. -/
def runOf (manifest : InvestigationEvaluationManifest)
    (qualification : Option InvestigationEvaluationQualification) :
    Except EvaluationError (Option InvestigationRunRecord) :=
  if isBlindRelease manifest then (validateBlindRun r manifest qualification).map some else .ok none

def evaluateInvestigation (store : EvaluationStore) (manifest : InvestigationEvaluationManifest)
    (qualification : Option InvestigationEvaluationQualification) :
    Except EvaluationError InvestigationEvaluationResult :=
  (parseInvestigationEvaluationManifest r manifest).bind fun manifest =>
    (runOf r manifest qualification).bind fun run =>
      (evaluateCases r store run manifest.cases .empty).map (resultOf r manifest run)

end HuntWarden.InvestigationEvaluator
