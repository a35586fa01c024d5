import HuntWarden.Lib.Js
import HuntWarden.Storage.FactBatches

/-! What an assessment must satisfy before it is stored: it is of the task and epoch at hand, says something
    in a bounded text, and refers only to what is known there. A confirmed finding must rest on complete
    evidence of the object or of one it is observed to be related to. -/

namespace HuntWarden

open Outcome

inductive Severity where
  | critical | high | medium | low | info
  deriving DecidableEq, Repr

/-- An assessment with all its columns. -/
structure RecordedAssessment extends Assessment where
  severity : Severity
  confidence : ℚ
  rationale : String
  evidenceRefs : List String
  factRefs : List String
  queryRefs : List String
  deriving DecidableEq, Repr

structure EvidenceRecord where
  evidenceId : String
  taskId : String
  sha256 : Option String := none
  metadata : Option Json := none
  deriving DecidableEq

namespace AssessmentValidation

/-- What is known in the task and epoch. -/
structure Context where
  taskId : String
  epochId : String
  refs : List ObjectReference
  facts : List FactRecord
  edges : List EdgeRecord
  relationProvenance : List RelationProvenance
  evidence : List EvidenceRecord
  queryRefs : List String

variable (context : Context)

def isHexDigest (text : String) : Bool :=
  text.length = 64 && text.toList.all fun ch => ch.isDigit || decide (ch ∈ ['a', 'b', 'c', 'd', 'e', 'f'])

def completeEvidenceMetadata (item : EvidenceRecord) : Bool :=
  item.metadata.any fun metadata =>
    let range := (metadata.get? "range").filter Json.isRecord
    let length := range.bind (Json.get? "length")
    let digest := (metadata.get? "artifactDigest").bind Json.asString?
    metadata.get? "complete" = some (.bool true) &&
    metadata.get? "integrityStatus" ≠ some (.str "FAILED") &&
    range.bind (Json.get? "start") = some (.num 0) &&
    range.bind (Json.get? "complete") = some (.bool true) &&
    (length.any fun value => value.isSafeInteger && (value.asNumber?.any fun n => 0 ≤ n)) &&
    metadata.get? "artifactSize" = length &&
    digest.any fun digest => isHexDigest digest &&
      (Js.truthyText item.sha256).all fun sha256 => sha256 = digest

/-- The edges between two objects that were observed. -/
def observedEdges (left right : String) : List EdgeRecord :=
  context.edges.filter fun edge =>
    ((edge.fromRef = left && edge.toRef = right) || (edge.toRef = left && edge.fromRef = right)) &&
    context.relationProvenance.any fun item =>
      item.edgeRef = edge.edgeId && item.derivation = .observed

/-- Evidence of a class taken from its virtual machine names the class. -/
def namesClass (metadata : Json) (subjectRef : String) : Bool :=
  context.facts.any fun fact => fact.subjectRef = subjectRef && fact.namespace_ = .class_ &&
    Js.identical (fact.privatePayload.lookup "className") (metadata.get? "className") &&
    Js.identical (fact.privatePayload.lookup "loaderId") (metadata.get? "classLoaderId")

def evidenceSupportsSubject (metadata : Json) (subjectRef : Option String) : Bool :=
  match Js.truthyText subjectRef, (metadata.get? "subjectRef").bind Json.asString? with
  | some subject, some source =>
    source = subject ||
    metadata.get? "captureMethod" = some (.str "JVM_RETRANSFORM") &&
      (observedEdges context source subject).any (fun edge => edge.relation = "loads_class") &&
      namesClass context metadata subject
  | _, _ => false

def completeEvidence (input : RecordedAssessment) : Bool :=
  input.evidenceRefs.any fun id => context.evidence.any fun item =>
    item.evidenceId = id && completeEvidenceMetadata item &&
    item.metadata.any fun metadata => metadata.get? "epochId" = some (.str context.epochId) &&
      evidenceSupportsSubject context metadata input.subjectRef

def hostFacts (input : RecordedAssessment) : List FactRecord :=
  context.facts.filter fun fact => fact.factId ∈ input.factRefs && fact.source.kind ≠ .external

/-- A strong signal of the host, or two that do not depend on each other. -/
def independentSignals (input : RecordedAssessment) : Bool :=
  (hostFacts context input).any
    (fun fact => fact.modelPayload.lookup "signalStrength" = some (.str "STRONG")) ||
  2 ≤ (Js.distinct ((hostFacts context input).map fun fact =>
    s!"{fact.collector.name}:{fact.subjectRef}")).length

def knownSubject (subjectRef : String) : Bool :=
  context.refs.any fun ref => ref.ref = subjectRef && ref.taskId = context.taskId &&
    ref.epochId = context.epochId

def knownFact (factId : String) : Bool :=
  context.facts.any fun fact => fact.factId = factId && fact.taskId = context.taskId &&
    fact.epochId = context.epochId

def knownEvidence (evidenceId : String) : Bool :=
  context.evidence.any fun item => item.evidenceId = evidenceId && item.taskId = context.taskId

/-- Each of the references is known, or the first that is not is named. -/
def requireAll (known : String → Bool) (kind : String) : List String → Except Thrown Unit
  | [] => .ok ()
  | ref :: rest => do
    require (known ref) (invalidArgument s!"Assessment 引用未知 {kind}: {ref}")
    requireAll known kind rest

def ofObject : AssessmentVerdict → Bool
  | .confirmedMalicious | .highlySuspicious | .suspicious | .benign => true
  | .noObservedFinding | .inconclusive => false

/-- A text that is neither blank nor longer than what is stored. -/
def isRationale (rationale : String) : Bool :=
  1 ≤ (Js.codeUnits (Js.trim rationale)).length && (Js.codeUnits rationale).length ≤ 8000

def validateConfirmed (input : RecordedAssessment) : Except Thrown Unit :=
  if input.verdict = .confirmedMalicious then do
    require (completeEvidence context input) (invalidArgument
      "CONFIRMED_MALICIOUS 必须绑定当前 epoch 被裁定对象或经实测关系验证的直接相关对象的完整 Evidence")
    require (independentSignals context input)
      (invalidArgument "CONFIRMED_MALICIOUS 需要一个强主机信号或两个独立主机事实信号")
  else .ok ()

def validateAssessment (input : RecordedAssessment) : Except Thrown Unit := do
  require (input.taskId = context.taskId && input.epochId = context.epochId)
    (invalidArgument "Assessment 必须绑定当前 task + epoch")
  require (0 ≤ input.confidence && input.confidence ≤ 1)
    (invalidArgument "Assessment confidence 必须在 0..1")
  require (isRationale input.rationale)
    (invalidArgument "Assessment rationale 不能为空且不能超过 8000 字符")
  require (input.scope ≠ .subject || (Js.truthyText input.subjectRef).isSome)
    (invalidArgument "主体 Assessment 必须绑定 subjectRef")
  require (input.scope ≠ .observedCategory || (Js.truthyText input.subjectRef).isNone)
    (invalidArgument "类别 Assessment 不得绑定 subjectRef")
  require (!ofObject input.verdict || (Js.truthyText input.subjectRef).isSome)
    (invalidArgument "对象级风险或良性裁定必须绑定 subjectRef")
  require (input.verdict ≠ .noObservedFinding || input.scope = .observedCategory)
    (invalidArgument "NO_OBSERVED_FINDING 只能用于类别观察范围")
  require ((Js.truthyText input.subjectRef).all (knownSubject context))
    (invalidArgument "Assessment 引用未知或跨 epoch 的 subjectRef")
  requireAll (knownFact context) "Fact" input.factRefs
  requireAll (knownEvidence context) "Evidence" input.evidenceRefs
  requireAll (· ∈ context.queryRefs) "Query" input.queryRefs
  validateConfirmed context input

end AssessmentValidation

/-! ### What a category is shown as -/

inductive SafetyState where
  | risk | noObservedFinding | incomplete | notApplicable
  deriving DecidableEq, Repr

structure SafetyProjection where
  state : SafetyState
  modelConcluded : Bool
  deriving DecidableEq, Repr

def isRiskVerdict : AssessmentVerdict → Bool
  | .confirmedMalicious | .highlySuspicious | .suspicious => true
  | .benign | .noObservedFinding | .inconclusive => false

def safetyState (coverage : Option CoverageRun) (assessments : List Assessment) : SafetyState :=
  if assessments.any fun item => isRiskVerdict item.verdict then .risk
  else
    match coverage with
    | none => .incomplete
    | some run =>
      if run.status ≠ .complete ∨ run.applicability = .unknown then .incomplete
      else if run.applicability = .notApplicable then .notApplicable
      else if assessments.any fun item => item.verdict = .noObservedFinding then .noObservedFinding
      else .incomplete

def safetyProjection (coverage : Option CoverageRun) (assessments : List Assessment) : SafetyProjection where
  state := safetyState coverage assessments
  modelConcluded := assessments.any fun item => item.authorType = .model

/-- A run that is not complete says neither that nothing was found nor that the category does not apply. -/
theorem safetyProjection_of_not_complete {run : CoverageRun} (h : run.status ≠ .complete)
    (assessments : List Assessment) :
    (safetyProjection (some run) assessments).state ≠ .noObservedFinding ∧
      (safetyProjection (some run) assessments).state ≠ .notApplicable := by
  by_cases hrisk : (assessments.any fun item => isRiskVerdict item.verdict) = true
  · simp [safetyProjection, safetyState, hrisk]
  · simp [safetyProjection, safetyState, hrisk, h]

end HuntWarden
