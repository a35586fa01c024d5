import HuntWarden.Protocol.Manifest

/-! The records of the second protocol: what was observed, and what is concluded from it. -/

namespace HuntWarden

/-- `Record<string, unknown>`: names in the order in which they were set. -/
abbrev Payload := List (String × Json)

inductive Consistency where
  | objectStable | cursorBestEffort | pointInTime | externalBaseline
  deriving DecidableEq, Repr

def Consistency.name : Consistency → String
  | .objectStable => "OBJECT_STABLE"
  | .cursorBestEffort => "CURSOR_BEST_EFFORT"
  | .pointInTime => "POINT_IN_TIME"
  | .externalBaseline => "EXTERNAL_BASELINE"

inductive FactSourceKind where
  | preset | model | system | external
  deriving DecidableEq, Repr

def FactSourceKind.name : FactSourceKind → String
  | .preset => "PRESET"
  | .model => "MODEL"
  | .system => "SYSTEM"
  | .external => "EXTERNAL"

structure FactSource where
  kind : FactSourceKind
  evidenceOrigin : Option String := none
  presetRunId : Option String := none
  presetId : Option String := none
  presetVersion : Option String := none
  stepId : Option String := none
  externalProvider : Option String := none
  deriving DecidableEq, Repr

/-- A record of texts without the absent ones. -/
def recordOf (fields : List (String × Option String)) : Json :=
  .obj (fields.filterMap fun (name, text) => text.map fun text => (name, .str text))

def FactSource.toJson (s : FactSource) : Json :=
  recordOf [("kind", some s.kind.name), ("evidenceOrigin", s.evidenceOrigin),
    ("presetRunId", s.presetRunId), ("presetId", s.presetId), ("presetVersion", s.presetVersion),
    ("stepId", s.stepId), ("externalProvider", s.externalProvider)]

structure Collector where
  name : String
  version : String
  deriving DecidableEq, Repr

def Collector.toJson (collector : Collector) : Json :=
  recordOf [("name", some collector.name), ("version", some collector.version)]

structure CoverageGap where
  code : String
  detail : Option String
  field : Option String
  resumable : Bool
  deriving DecidableEq, Repr

def CoverageGap.toJson (gap : CoverageGap) : Json :=
  match recordOf [("code", some gap.code), ("field", gap.field), ("detail", gap.detail)] with
  | .obj fields => .obj (fields ++ [("resumable", .bool gap.resumable)])
  | other => other

structure UnavailableField where
  field : String
  reasonCode : String
  deriving DecidableEq, Repr

def UnavailableField.toJson (u : UnavailableField) : Json :=
  recordOf [("field", some u.field), ("reasonCode", some u.reasonCode)]

inductive Completeness where
  | complete | partialFact
  deriving DecidableEq, Repr

def Completeness.name : Completeness → String
  | .complete => "COMPLETE"
  | .partialFact => "PARTIAL"

structure Provenance where
  targetFingerprint : String
  requestId : String
  wireDigest : String
  stableIdentityDigest : String
  deriving DecidableEq, Repr

structure FactRecord where
  factId : String
  factSeq : ℕ
  taskId : String
  epochId : String
  namespace_ : NamespaceName
  subjectRef : String
  observedAt : String
  sourceRunId : String
  source : FactSource
  collector : Collector
  consistency : Consistency
  completeness : Completeness
  gaps : List CoverageGap
  privatePayload : Payload
  modelPayload : Payload
  redactedFields : List String
  unavailableFields : List UnavailableField
  payloadDigest : String
  provenance : Provenance
  deriving DecidableEq, Repr

/-- `fact[field]`, for the fields a query may name; `none` is `undefined`. -/
def FactRecord.get? (fact : FactRecord) (field : String) : Option Json :=
  match field with
  | "factId" => some (.str fact.factId)
  | "factSeq" => some (.num fact.factSeq)
  | "namespace" => some (.str fact.namespace_.name)
  | "subjectRef" => some (.str fact.subjectRef)
  | "observedAt" => some (.str fact.observedAt)
  | "sourceRunId" => some (.str fact.sourceRunId)
  | "source" => some fact.source.toJson
  | "collector" => some fact.collector.toJson
  | "consistency" => some (.str fact.consistency.name)
  | "completeness" => some (.str fact.completeness.name)
  | "gaps" => some (.arr (fact.gaps.map CoverageGap.toJson))
  | "redactedFields" => some (.arr (fact.redactedFields.map .str))
  | "unavailableFields" => some (.arr (fact.unavailableFields.map UnavailableField.toJson))
  | _ => none

structure ObjectReference where
  ref : String
  taskId : String
  epochId : String
  namespace_ : NamespaceName
  stableIdentityDigest : String
  stableIdentity : Payload
  createdAt : String
  deriving DecidableEq, Repr

inductive CheckCategory where
  | webshell | javaMemoryShell | backdoorAccount | linuxPersistence | linuxIntrusionTriage
  deriving DecidableEq, Repr

def CheckCategory.name : CheckCategory → String
  | .webshell => "webshell"
  | .javaMemoryShell => "java_memory_shell"
  | .backdoorAccount => "backdoor_account"
  | .linuxPersistence => "linux_persistence"
  | .linuxIntrusionTriage => "linux_intrusion_triage"

structure EdgeRecord where
  edgeId : String
  taskId : String
  epochId : String
  relation : String
  fromRef : String
  toRef : String
  sourceRunId : String
  observedAt : String
  deriving DecidableEq, Repr

inductive CoverageStatus where
  | complete | partialCoverage | error | notRun
  deriving DecidableEq, Repr

inductive Applicability where
  | applicable | notApplicable | unknown
  deriving DecidableEq, Repr

structure CoverageRun where
  coverageId : String
  category : CheckCategory
  status : CoverageStatus
  applicability : Applicability
  deriving DecidableEq, Repr

inductive AuthorType where
  | rule | model | human | system
  deriving DecidableEq, Repr

inductive AssessmentScope where
  | subject | observedCategory
  deriving DecidableEq, Repr

def AssessmentScope.name : AssessmentScope → String
  | .subject => "SUBJECT"
  | .observedCategory => "OBSERVED_CATEGORY"

inductive AssessmentVerdict where
  | confirmedMalicious | highlySuspicious | suspicious | benign | noObservedFinding | inconclusive
  deriving DecidableEq, Repr

structure Assessment where
  assessmentId : String
  taskId : String
  epochId : String
  authorType : AuthorType
  category : CheckCategory
  subjectRef : Option String
  scope : AssessmentScope
  verdict : AssessmentVerdict
  createdAt : String
  deriving DecidableEq, Repr

inductive AssessmentRelationKind where
  | supports | contradicts | adjudicates | supersedes
  deriving DecidableEq, Repr

structure AssessmentRelation where
  relationId : String
  taskId : String
  epochId : String
  kind : AssessmentRelationKind
  fromAssessmentId : String
  toAssessmentId : String
  createdAt : String
  deriving DecidableEq, Repr

end HuntWarden
