import HuntWarden.Common.StableJson
import HuntWarden.Investigation.CompletionValidator
import HuntWarden.Lib.Schema

/-! What an evaluation of investigations is given: the manifest of its cases and thresholds, the ledger of the runs,
    and the archived truth, each with its schema. -/

namespace HuntWarden.InvestigationEvaluator

open Schema

/-! ### The manifest -/

inductive EvaluationMode where
  | development | blindRelease
  deriving DecidableEq

def EvaluationMode.name : EvaluationMode → String
  | .development => "DEVELOPMENT"
  | .blindRelease => "BLIND_RELEASE"

inductive Disposition where
  | malicious | benign | limited
  deriving DecidableEq

def Disposition.name : Disposition → String
  | .malicious => "MALICIOUS"
  | .benign => "BENIGN"
  | .limited => "LIMITED"

inductive EntryMode where
  | zeroIoc | singleLead
  deriving DecidableEq

def EntryMode.name : EntryMode → String
  | .zeroIoc => "ZERO_IOC"
  | .singleLead => "SINGLE_LEAD"

inductive RunKind where
  | first | retry
  deriving DecidableEq

def RunKind.name : RunKind → String
  | .first => "FIRST"
  | .retry => "RETRY"

def derivationName : CompletionValidator.RelationDerivation → String
  | .observed => "OBSERVED"
  | .derived => "DERIVED"
  | .inferred => "INFERRED"

structure ExpectedEndpoint where
  namespace_ : NamespaceName
  field : String
  value : Json
  deriving DecidableEq

structure ExpectedFact extends ExpectedEndpoint where
  evidenceRequired : Option Bool
  deriving DecidableEq

structure ExpectedRelation where
  relation : String
  from_ : ExpectedEndpoint
  to_ : ExpectedEndpoint
  derivation : Option CompletionValidator.RelationDerivation
  deriving DecidableEq

structure CaseDefinition where
  caseId : String
  taskId : String
  epochId : Option String
  disposition : Disposition
  entryMode : EntryMode
  runKind : RunKind
  retryOfCaseId : Option String
  expectedCategories : List CheckCategory
  expectedFacts : List ExpectedFact
  expectedRelations : Option (List ExpectedRelation)
  expectedGapCodes : Option (List String)
  deriving DecidableEq

structure TruthSet where
  archiveSha256 : String
  frozenAt : String
  curator : String
  runner : String
  deriving DecidableEq

structure Environment where
  targetOs : String
  architecture : String
  provider : Option String
  applicationVersion : String
  manifestVersion : String
  helperVersion : String
  investigationEngineVersion : String
  ruleRegistryVersion : String
  playbookRegistryVersion : String
  commit : String
  budgetProfile : String
  deriving DecidableEq

structure Thresholds where
  minDiscoveryRecall : ℚ
  minCollectionRecall : Option ℚ
  minEvidencePreservation : ℚ
  minObligationClosure : ℚ
  maxBenignFalsePositive : ℚ
  minRelationshipRecall : Option ℚ
  minLimitedRecognition : Option ℚ
  minAutonomousCompletion : Option ℚ
  deriving DecidableEq

structure InvestigationEvaluationManifest where
  suiteId : String
  evaluationMode : Option EvaluationMode
  truthSet : Option TruthSet
  environment : Environment
  cases : List CaseDefinition
  thresholds : Thresholds
  deriving DecidableEq

/-! ### As JSON -/

/-- A record without the absent fields. -/
def recordWith (fields : List (String × Option Json)) : Json :=
  .obj (fields.filterMap fun field => field.2.map fun value => (field.1, value))

def text (value : String) : Option Json := some (.str value)

def endpointFields (endpoint : ExpectedEndpoint) : List (String × Option Json) :=
  [("namespace", text endpoint.namespace_.name), ("field", text endpoint.field), ("value", some endpoint.value)]

def ExpectedFact.json (fact : ExpectedFact) : Json :=
  recordWith (endpointFields fact.toExpectedEndpoint ++ [("evidenceRequired", fact.evidenceRequired.map .bool)])

def ExpectedRelation.json (expected : ExpectedRelation) : Json :=
  recordWith [("relation", text expected.relation), ("from", some (recordWith (endpointFields expected.from_))),
    ("to", some (recordWith (endpointFields expected.to_))),
    ("derivation", expected.derivation.map fun derivation => .str (derivationName derivation))]

/-- The fields of a case but for its task and epoch. -/
def CaseDefinition.truthFields (definition : CaseDefinition) : List (String × Option Json) :=
  [("disposition", text definition.disposition.name), ("entryMode", text definition.entryMode.name),
    ("runKind", text definition.runKind.name), ("retryOfCaseId", definition.retryOfCaseId.map .str),
    ("expectedCategories", some (.arr (definition.expectedCategories.map fun category => .str category.name))),
    ("expectedFacts", some (.arr (definition.expectedFacts.map ExpectedFact.json))),
    ("expectedRelations", definition.expectedRelations.map fun expected => .arr (expected.map ExpectedRelation.json)),
    ("expectedGapCodes", definition.expectedGapCodes.map fun codes => .arr (codes.map .str))]

def CaseDefinition.json (definition : CaseDefinition) : Json :=
  recordWith (("caseId", text definition.caseId) :: ("taskId", text definition.taskId) ::
    ("epochId", definition.epochId.map .str) :: definition.truthFields)

def CaseDefinition.truthJson (definition : CaseDefinition) : Json :=
  recordWith (("caseId", text definition.caseId) :: definition.truthFields)

def TruthSet.json (truthSet : TruthSet) : Json :=
  recordWith [("archiveSha256", text truthSet.archiveSha256), ("frozenAt", text truthSet.frozenAt),
    ("curator", text truthSet.curator), ("runner", text truthSet.runner), ("independentFromTuning", some (.bool true)),
    ("isolation", some (.obj [("targetAuthorizationContainsTruth", .bool false), ("helperReceivesTruth", .bool false),
      ("modelReceivesTruth", .bool false)]))]

def Environment.json (environment : Environment) : Json :=
  recordWith [("targetOs", text environment.targetOs), ("architecture", text environment.architecture),
    ("transport", text "SSH"), ("provider", environment.provider.map .str),
    ("applicationVersion", text environment.applicationVersion), ("protocolVersion", some (.num 2)),
    ("manifestVersion", text environment.manifestVersion), ("helperVersion", text environment.helperVersion),
    ("investigationEngineVersion", text environment.investigationEngineVersion),
    ("ruleRegistryVersion", text environment.ruleRegistryVersion),
    ("playbookRegistryVersion", text environment.playbookRegistryVersion), ("commit", text environment.commit),
    ("budgetProfile", text environment.budgetProfile)]

def Thresholds.json (thresholds : Thresholds) : Json :=
  recordWith [("minDiscoveryRecall", some (.num thresholds.minDiscoveryRecall)),
    ("minCollectionRecall", thresholds.minCollectionRecall.map .num),
    ("minEvidencePreservation", some (.num thresholds.minEvidencePreservation)),
    ("minObligationClosure", some (.num thresholds.minObligationClosure)),
    ("maxBenignFalsePositive", some (.num thresholds.maxBenignFalsePositive)),
    ("minRelationshipRecall", thresholds.minRelationshipRecall.map .num),
    ("minLimitedRecognition", thresholds.minLimitedRecognition.map .num),
    ("minAutonomousCompletion", thresholds.minAutonomousCompletion.map .num)]

def InvestigationEvaluationManifest.jsonWith (manifest : InvestigationEvaluationManifest)
    (caseJson : CaseDefinition → Json) : Json :=
  recordWith [("schemaVersion", some (.num 2)), ("suiteId", text manifest.suiteId),
    ("evaluationMode", manifest.evaluationMode.map fun mode => .str mode.name),
    ("truthSet", manifest.truthSet.map TruthSet.json), ("environment", some manifest.environment.json),
    ("cases", some (.arr (manifest.cases.map caseJson))), ("thresholds", some manifest.thresholds.json)]

def InvestigationEvaluationManifest.json (manifest : InvestigationEvaluationManifest) : Json :=
  manifest.jsonWith CaseDefinition.json

/-- `{ ...manifest, cases }`, for the cases without task and epoch. -/
def InvestigationEvaluationManifest.truthJson (manifest : InvestigationEvaluationManifest) : Json :=
  manifest.jsonWith CaseDefinition.truthJson

/-! ### The ledger of the runs -/

inductive RunState where
  | finished | failed
  deriving DecidableEq

def RunState.name : RunState → String
  | .finished => "FINISHED"
  | .failed => "FAILED"

inductive CaseState where
  | started | finished | failed
  deriving DecidableEq

def CaseState.name : CaseState → String
  | .started => "STARTED"
  | .finished => "FINISHED"
  | .failed => "FAILED"

structure RunCase where
  caseId : String
  runKind : RunKind
  retryOfCaseId : Option String
  state : CaseState
  taskId : Option String
  epochId : Option String
  deriving DecidableEq

structure InvestigationRunRecord where
  suiteId : String
  evaluationMode : EvaluationMode
  commit : String
  clean : Bool
  helperSha256 : String
  startedAt : String
  finishedAt : String
  state : RunState
  plannedCases : ℕ
  cases : List RunCase
  deriving DecidableEq

def RunCase.json (item : RunCase) : Json :=
  recordWith [("caseId", text item.caseId), ("runKind", text item.runKind.name),
    ("retryOfCaseId", item.retryOfCaseId.map .str), ("state", text item.state.name), ("taskId", item.taskId.map .str),
    ("epochId", item.epochId.map .str)]

def InvestigationRunRecord.json (run : InvestigationRunRecord) : Json :=
  recordWith [("schemaVersion", some (.num 1)), ("suiteId", text run.suiteId),
    ("evaluationMode", text run.evaluationMode.name), ("commit", text run.commit), ("clean", some (.bool run.clean)),
    ("helperSha256", text run.helperSha256), ("startedAt", text run.startedAt), ("finishedAt", text run.finishedAt),
    ("state", text run.state.name), ("plannedCases", some (.num run.plannedCases)),
    ("cases", some (.arr (run.cases.map RunCase.json)))]

/-- The ledger, none where it is no record of that kind, and the archived truth with its digest. -/
structure InvestigationEvaluationQualification where
  run : Option InvestigationRunRecord
  archivedTruth : Json
  archiveSha256 : String

/-! ### The schemas -/

def anyTextWithin (minLength maxLength : ℕ) : Schema := textWithin minLength maxLength fun _ => true

def isHexDigit (ch : Char) : Bool := 'a' ≤ ch && ch ≤ 'f' || '0' ≤ ch && ch ≤ '9'

/-- `^[a-f0-9]{length}$` -/
def isDigest (length : ℕ) (value : String) : Bool := value.toList.length = length && value.toList.all isHexDigit

def isIdChar (ch : Char) : Bool := ch.isAlphanum || ['.', '_', '-'].contains ch

/-- `^[A-Za-z0-9._-]+$` -/
def isIdText (value : String) : Bool := value ≠ "" && value.toList.all isIdChar

def namespaceNames : List String :=
  ["host", "process", "socket", "file", "account", "ssh_key", "delegation_rule", "ssh_trust_config", "cron_entry",
    "unit", "persistence", "module", "log_source", "log_event", "auth_event", "exec_event", "web_stack", "web_root",
    "jvm", "java_component", "class", "package", "task_ioc"]

def categories : List String :=
  ["webshell", "java_memory_shell", "backdoor_account", "linux_persistence", "linux_intrusion_triage"]

def endpointProperties : List (String × Bool × Schema) :=
  [needs "namespace" (oneOf namespaceNames), needs "field" (anyTextWithin 1 128),
    needs "value" (.union [anyTextWithin 0 4096, .number false none none, .boolean])]

def ExpectedFactSchema : Schema :=
  .record true (endpointProperties ++ [allows "evidenceRequired" .boolean])

def ExpectedEndpointSchema : Schema := .record true endpointProperties

def EnvironmentSchema : Schema := .record true
  [needs "targetOs" (anyTextWithin 1 256), needs "architecture" (anyTextWithin 1 64),
    needs "transport" (.literal (.str "SSH")), allows "provider" (anyTextWithin 1 256),
    needs "applicationVersion" (anyTextWithin 1 64), needs "protocolVersion" (.literal (.num 2)),
    needs "manifestVersion" (anyTextWithin 1 64), needs "helperVersion" (anyTextWithin 1 64),
    needs "investigationEngineVersion" (anyTextWithin 1 64),
    needs "ruleRegistryVersion" (anyTextWithin 1 64),
    needs "playbookRegistryVersion" (anyTextWithin 1 64),
    needs "commit" (textWithin 7 64 fun value => value.toList.all isHexDigit),
    needs "budgetProfile" (anyTextWithin 1 64)]

/-- `truthSet`, where the archived one may leave its digest out. -/
def truthSetSchema (archived : Bool) : Schema := .record true
  [("archiveSha256", !archived, .text 0 none (isDigest 64)), needs "frozenAt" (anyTextWithin 20 64),
    needs "curator" (anyTextWithin 1 128), needs "runner" (anyTextWithin 1 128),
    needs "independentFromTuning" (.literal (.bool true)),
    needs "isolation" (.record true [needs "targetAuthorizationContainsTruth" (.literal (.bool false)),
      needs "helperReceivesTruth" (.literal (.bool false)), needs "modelReceivesTruth" (.literal (.bool false))])]

def truthCaseProperties : List (String × Bool × Schema) :=
  [needs "caseId" (textWithin 1 128 isIdText),
    needs "disposition" (oneOf ["MALICIOUS", "BENIGN", "LIMITED"]),
    needs "entryMode" (oneOf ["ZERO_IOC", "SINGLE_LEAD"]),
    needs "runKind" (oneOf ["FIRST", "RETRY"]),
    allows "retryOfCaseId" (textWithin 1 128 isIdText),
    needs "expectedCategories" (.array (oneOf categories) 1 (some 5) true),
    needs "expectedFacts" (.array ExpectedFactSchema 1 (some 100) false),
    allows "expectedRelations" (.array (.record true
      [needs "relation" (anyTextWithin 1 128), needs "from" ExpectedEndpointSchema,
        needs "to" ExpectedEndpointSchema,
        allows "derivation" (oneOf ["OBSERVED", "DERIVED", "INFERRED"])]) 0 (some 100) false),
    allows "expectedGapCodes" (.array (anyTextWithin 1 128) 1 (some 100) true)]

def caseProperties : List (String × Bool × Schema) :=
  needs "taskId" (anyTextWithin 1 128) :: allows "epochId" (anyTextWithin 1 128) ::
    truthCaseProperties

def rate : Schema := .number false (some 0) (some 1)

def manifestSchema (archived : Bool) (caseSchema : List (String × Bool × Schema)) : Schema := .record true
  [needs "schemaVersion" (.literal (.num 2)), needs "suiteId" (textWithin 1 128 isIdText),
    allows "evaluationMode" (oneOf ["DEVELOPMENT", "BLIND_RELEASE"]),
    allows "truthSet" (truthSetSchema archived), needs "environment" EnvironmentSchema,
    needs "cases" (.array (.record true caseSchema) 1 (some 500) false),
    needs "thresholds" (.record true
      [needs "minDiscoveryRecall" rate, allows "minCollectionRecall" rate, needs "minEvidencePreservation" rate,
        needs "minObligationClosure" rate, needs "maxBenignFalsePositive" rate, allows "minRelationshipRecall" rate,
        allows "minLimitedRecognition" rate, allows "minAutonomousCompletion" rate])]

def InvestigationEvaluationManifestSchema : Schema := manifestSchema false caseProperties

def InvestigationEvaluationTruthSchema : Schema := manifestSchema false truthCaseProperties

def ArchivedInvestigationTruthSchema : Schema := manifestSchema true truthCaseProperties

/-- `^[a-f0-9]{40}$` and `^[a-f0-9]{64}$` for the commit and the helper, and one to 500 planned cases. -/
def InvestigationRunRecordSchema : Schema := .record false
  [needs "schemaVersion" (.literal (.num 1)), needs "suiteId" anyText,
    needs "evaluationMode" (oneOf ["DEVELOPMENT", "BLIND_RELEASE"]), needs "commit" (.text 0 none (isDigest 40)),
    needs "clean" .boolean, needs "helperSha256" (.text 0 none (isDigest 64)), needs "startedAt" anyText,
    needs "finishedAt" anyText, needs "state" (oneOf ["FINISHED", "FAILED"]),
    needs "plannedCases" (.number true (some 1) (some 500)),
    needs "cases" (.array (.record false
      [needs "caseId" anyText, needs "runKind" (oneOf ["FIRST", "RETRY"]), allows "retryOfCaseId" anyText,
        needs "state" (oneOf ["STARTED", "FINISHED", "FAILED"]), allows "taskId" anyText,
        allows "epochId" anyText]) 0 none false)]

end HuntWarden.InvestigationEvaluator
