import HuntWarden.Storage.Facts

/-! A batch of facts with all that is committed beside it: the versions of the objects, the origin of the
    edges, the batch itself, the end of the tool run and the event. The statements run in one transaction,
    and each of them can fail. -/

namespace HuntWarden

open Outcome Normalizer

structure VersionAssertion where
  kind : String
  valueDigest : String
  deriving DecidableEq, Repr

structure EntityVersion where
  versionRef : String
  entityRef : String
  taskId : String
  epochId : String
  namespace_ : NamespaceName
  identityDigest : String
  contentDigest : String
  sourceFactRef : String
  validFrom : String
  validTo : Option String := none
  assertions : List VersionAssertion
  deriving DecidableEq, Repr

/-- `UNIQUE(task_id, epoch_id, entity_ref, source_fact_ref)` -/
def EntityVersion.source (version : EntityVersion) : String × String × String × String :=
  (version.taskId, version.epochId, version.entityRef, version.sourceFactRef)

inductive RelationDerivation where
  | observed | derived | inferred
  deriving DecidableEq, Repr

structure RelationProvenance where
  edgeRef : String
  taskId : String
  epochId : String
  fromVersionRef : Option String
  toVersionRef : Option String
  derivation : RelationDerivation
  sourceRefs : List String
  resolverVersion : String
  timeErrorMs : ℕ
  deriving DecidableEq, Repr

structure FactBatchRow where
  batchId : String
  taskId : String
  epochId : String
  sourceRunId : String
  firstFactSeq : Option ℕ
  lastFactSeq : Option ℕ
  factCount : ℕ
  edgeCount : ℕ
  deriving DecidableEq, Repr

inductive ToolRunStatus where
  | started | succeeded | failed | blocked
  deriving DecidableEq, Repr

structure ToolRunRecord where
  toolCallId : String
  taskId : String
  epochId : Option String
  toolName : String
  risk : String
  replayPolicy : String
  args : Json
  status : ToolRunStatus
  result : Option Json := none
  error : Option String := none
  deriving DecidableEq

structure InvestigationEvent where
  eventId : String
  taskId : String
  epochId : String
  sourceBatchRef : Option String
  eventType : String
  payload : Json
  deriving DecidableEq

/-- The end of the tool run that a batch comes from. -/
structure BatchToolRun where
  toolCallId : String
  succeeded : Bool
  result : Option Json := none
  resultFactory : Option (PreparedFactBatch → Except Thrown Json) := none
  error : Option String := none

def BatchToolRun.status (toolRun : BatchToolRun) : ToolRunStatus :=
  if toolRun.succeeded then .succeeded else .failed

def BatchToolRun.terminalResult (toolRun : BatchToolRun) (prepared : PreparedFactBatch) :
    Except Thrown (Option Json) :=
  match toolRun.resultFactory with
  | some resultFactory => (resultFactory prepared).map some
  | none => .ok toolRun.result

structure BatchInput extends FactBatchInput where
  toolRun : Option BatchToolRun := none

structure BatchStore where
  factStore : FactStore
  versions : IndexedTable EntityVersion.versionRef EntityVersion.source
  relationProvenance : Table RelationProvenance.edgeRef
  batches : Table FactBatchRow.batchId
  toolRuns : Table ToolRunRecord.toolCallId
  events : Table InvestigationEvent.eventId
  batchesDrawn : ℕ

/-- The store as the statements of a transaction have left it so far, and how many they were. -/
structure Transaction where
  store : BatchStore
  executed : ℕ

namespace Transaction

/-- One statement. `fails` says which statements the database refuses, and with what. -/
def run (fails : ℕ → Option Thrown) (t : Transaction)
    (statement : BatchStore → Except Thrown BatchStore) : Except Thrown Transaction :=
  match fails t.executed with
  | some error => .error error
  | none => do
    let store ← statement t.store
    return ⟨store, t.executed + 1⟩

/-- A statement for each item. -/
def runAll {α : Type} (fails : ℕ → Option Thrown) (t : Transaction)
    (statement : α → BatchStore → Except Thrown BatchStore) : List α → Except Thrown Transaction
  | [] => .ok t
  | a :: rest => do
    let t ← t.run fails (statement a)
    runAll fails t statement rest

end Transaction

namespace BatchStore

def empty : BatchStore := ⟨.empty, .empty, .empty, .empty, .empty, .empty, 0⟩

/-! ### The versions of an object -/

def ofEntity (taskId epochId entityRef : String) (version : EntityVersion) : Bool :=
  version.taskId = taskId && version.epochId = epochId && version.entityRef = entityRef

/-- `… AND valid_to IS NULL` -/
def openVersions (s : BatchStore) (taskId epochId entityRef : String) : List EntityVersion :=
  s.versions.rows.filter fun version =>
    ofEntity taskId epochId entityRef version && version.validTo.isNone

/-- `ORDER BY valid_from`: the index keeps the versions of one time in the order of their insertion. -/
def listEntityVersions (s : BatchStore) (taskId epochId entityRef : String) : List EntityVersion :=
  (s.versions.rows.filter (ofEntity taskId epochId entityRef)).insertionSort
    fun left right => left.validFrom ≤ right.validFrom

/-- `ORDER BY valid_from DESC LIMIT 1`: the index read from its end. -/
def latestVersion (s : BatchStore) (taskId epochId entityRef : String) : Option String :=
  (s.listEntityVersions taskId epochId entityRef).getLast?.map (·.versionRef)

/-- The version is closed when the next one begins. -/
def closing (observedAt : String) : IndexedTable.Rewrite EntityVersion.versionRef EntityVersion.source where
  apply version := { version with validTo := some observedAt }
  key_apply _ := rfl
  alt_apply _ := rfl

def closeVersion (observedAt : String) (s : BatchStore) (version : EntityVersion) : BatchStore :=
  { s with
    versions := s.versions.modify (fun row => row.versionRef = version.versionRef) (closing observedAt) }

def versionRef (digestObject : Json → String) (fact : FactRecord) : String :=
  "EVER-" ++ String.ofList ((digestObject (.obj [("subjectRef", .str fact.subjectRef),
    ("identityDigest", .str fact.provenance.stableIdentityDigest),
    ("contentDigest", .str fact.payloadDigest),
    ("sourceFactRef", .str fact.factId)])).toList.take 40)

def entityVersion (digestObject : Json → String) (fact : FactRecord) : EntityVersion where
  versionRef := versionRef digestObject fact
  entityRef := fact.subjectRef
  taskId := fact.taskId
  epochId := fact.epochId
  namespace_ := fact.namespace_
  identityDigest := fact.provenance.stableIdentityDigest
  contentDigest := fact.payloadDigest
  sourceFactRef := fact.factId
  validFrom := fact.observedAt
  assertions := [⟨"OBSERVATION_PAYLOAD", fact.payloadDigest⟩]

def insertVersion (version : EntityVersion) (s : BatchStore) : Except Thrown BatchStore := do
  let versions ← orThrow (s.versions.insert? version) (uniqueConstraint "entity_versions.version_ref")
  return { s with versions }

/-! ### The statements of a commit -/

def putRef (s : BatchStore) (ref : ObjectReference) : BatchStore :=
  { s with factStore := { s.factStore with refs := s.factStore.refs.insertOrIgnore ref } }

def putFact (fact : FactRecord) (s : BatchStore) : Except Thrown BatchStore := do
  let facts ← orThrow (s.factStore.facts.insert? fact) (uniqueConstraint "facts_v2.fact_id")
  return { s with factStore := { s.factStore with facts } }

/-- One fact: unless its content is that of an open version, those are closed and a new one begins. -/
def commitFact (digestObject : Json → String) (fails : ℕ → Option Thrown) (t : Transaction)
    (fact : FactRecord) : Except Thrown Transaction := do
  let t ← t.run fails (putFact fact)
  let versions := t.store.openVersions fact.taskId fact.epochId fact.subjectRef
  if versions.any fun version => version.contentDigest = fact.payloadDigest then return t
  else
    let t ← t.runAll fails (fun version s => .ok (closeVersion fact.observedAt s version)) versions
    t.run fails (insertVersion (entityVersion digestObject fact))

def commitFacts (digestObject : Json → String) (fails : ℕ → Option Thrown) (t : Transaction) (nextSeq : ℕ) :
    List FactRecord → Except Thrown Transaction
  | [] => .ok t
  | fact :: rest => do
    let t ← commitFact digestObject fails t { fact with factSeq := nextSeq }
    commitFacts digestObject fails t (nextSeq + 1) rest

def putEdge (edge : EdgeRecord) (s : BatchStore) : Except Thrown BatchStore := do
  let edges ← orThrow (s.factStore.edges.insert? edge) (uniqueConstraint "fact_edges_v2.edge_id")
  return { s with factStore := { s.factStore with edges } }

def observedProvenance (s : BatchStore) (edge : EdgeRecord) : RelationProvenance where
  edgeRef := edge.edgeId
  taskId := edge.taskId
  epochId := edge.epochId
  fromVersionRef := s.latestVersion edge.taskId edge.epochId edge.fromRef
  toVersionRef := s.latestVersion edge.taskId edge.epochId edge.toRef
  derivation := .observed
  sourceRefs := [edge.sourceRunId]
  resolverVersion := "fact-normalizer@2.1.0"
  timeErrorMs := 0

def putObservedProvenance (edge : EdgeRecord) (s : BatchStore) : Except Thrown BatchStore := do
  let relationProvenance ← orThrow (s.relationProvenance.insert? (s.observedProvenance edge))
    (uniqueConstraint "relation_provenance.edge_ref")
  return { s with relationProvenance }

def commitEdges (fails : ℕ → Option Thrown) (t : Transaction) :
    List EdgeRecord → Except Thrown Transaction
  | [] => .ok t
  | edge :: rest => do
    let t ← t.run fails (putEdge edge)
    let t ← t.run fails (putObservedProvenance edge)
    commitEdges fails t rest

def batchRow (input : BatchInput) (batchId : String) (nextSeq : ℕ) (prepared : PreparedFactBatch) :
    FactBatchRow where
  batchId
  taskId := input.taskId
  epochId := input.epochId
  sourceRunId := input.sourceRunId
  firstFactSeq := (FactStore.numbered nextSeq prepared.facts).head?.map (·.factSeq)
  lastFactSeq := (FactStore.numbered nextSeq prepared.facts).getLast?.map (·.factSeq)
  factCount := prepared.facts.length
  edgeCount := prepared.edges.length

def putBatch (row : FactBatchRow) (s : BatchStore) : Except Thrown BatchStore := do
  let batches ← orThrow (s.batches.insert? row) (uniqueConstraint "fact_batches_v2.batch_id")
  return { s with batches }

def getToolRun (s : BatchStore) (toolCallId : String) : Option ToolRunRecord := s.toolRuns.get? toolCallId

def finishToolRun (s : BatchStore) (toolCallId : String) (status : ToolRunStatus) (result : Option Json)
    (error : Option String) : BatchStore :=
  match s.getToolRun toolCallId with
  | none => s
  | some run => { s with toolRuns := s.toolRuns.set { run with status, result, error } }

/-- The tool run must be the one of the batch and still under way. -/
def finishBatchRun (input : BatchInput) (prepared : PreparedFactBatch) (toolRun : BatchToolRun)
    (s : BatchStore) : Except Thrown BatchStore := do
  let run ← orThrow ((s.getToolRun toolRun.toolCallId).filter fun run =>
      run.taskId = input.taskId ∧ run.epochId = some input.epochId)
    (invalidArgument "FactBatch ToolRun 不属于当前任务与 Epoch")
  require (run.status = .started && toolRun.toolCallId = input.sourceRunId)
    (invalidArgument "FactBatch ToolRun 状态或 sourceRunId 绑定无效")
  let result ← toolRun.terminalResult prepared
  return s.finishToolRun toolRun.toolCallId toolRun.status result toolRun.error

def finishRun (fails : ℕ → Option Thrown) (input : BatchInput) (prepared : PreparedFactBatch)
    (t : Transaction) : Except Thrown Transaction :=
  match input.toolRun with
  | some toolRun => t.run fails (finishBatchRun input prepared toolRun)
  | none => .ok t

def batchEvent (input : BatchInput) (eventId batchId : String) (prepared : PreparedFactBatch) :
    InvestigationEvent where
  eventId
  taskId := input.taskId
  epochId := input.epochId
  sourceBatchRef := some batchId
  eventType := "FACT_BATCH_COMMITTED"
  payload := .obj [("batchId", .str batchId), ("sourceRunId", .str input.sourceRunId),
    ("factRefs", .arr (prepared.facts.map fun fact => .str fact.factId)),
    ("edgeRefs", .arr (prepared.edges.map fun edge => .str edge.edgeId))]

def appendInvestigationEvent (event : InvestigationEvent) (s : BatchStore) : Except Thrown BatchStore := do
  let events ← orThrow (s.events.insert? event) (uniqueConstraint "investigation_events.event_id")
  return { s with events }

variable (env : FactEnv)

def commitFactBatch (fails : ℕ → Option Thrown) (s : BatchStore) (input : BatchInput) :
    Except Thrown BatchStore := do
  let epoch := (s.factStore.epochs.get? input.epochId).filter fun epoch => epoch.taskId = input.taskId
  let epoch ← orThrow (epoch.filter fun epoch => epoch.status = .running)
    (securityError .recoveryUncertain "FactBatch 必须写入当前 RUNNING epoch")
  require (epoch.targetFingerprint = input.targetFingerprint)
    (securityError .invalidTarget "FactBatch 目标身份与 epoch 不匹配")
  let (prepared, drawn) ← prepareFactBatch env.normalizer input.toFactBatchInput
    (s.factStore.findObjectReferenceByIdentity input.taskId input.epochId) s.factStore.drawn
  let batchId := env.normalizer.ids.createId .batch s.batchesDrawn
  let nextSeq := FactStore.maxSeq s.factStore.facts.rows + 1
  let t ← (Transaction.mk s 0).runAll fails (fun ref s => .ok (putRef s ref)) prepared.refs
  let t ← commitFacts env.normalizer.digestObject fails t nextSeq prepared.facts
  let t ← commitEdges fails t prepared.edges
  let t ← t.run fails (putBatch (batchRow input batchId nextSeq prepared))
  let t ← finishRun fails input
    { prepared with facts := FactStore.numbered nextSeq prepared.facts } t
  let eventId := env.normalizer.ids.createId .action s.batchesDrawn
  let t ← t.run fails (appendInvestigationEvent (batchEvent input eventId batchId prepared))
  return { t.store with
    factStore := { t.store.factStore with drawn }
    batchesDrawn := s.batchesDrawn + 1 }

end BatchStore

end HuntWarden
