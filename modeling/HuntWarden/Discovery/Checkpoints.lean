import HuntWarden.Lib.Statements
import HuntWarden.Playbooks.Planner
import HuntWarden.Storage.BatchRuns

/-! Paginated enumerations and the checkpoint they share. Each answered page writes the cursor of the next
    page, then the checkpoint of its request, and only then the batch of its facts; requests and answers of
    several runs interleave, and any of the statements can be the last. -/

namespace HuntWarden.Enumeration

open Outcome Normalizer

structure RemoteCursor where
  cursorRef : String
  namespace_ : NamespaceName
  requestDigest : String
  helperCursor : String
  deriving DecidableEq, Repr

structure Scan where
  scannedCount : ℕ
  matchedCount : ℕ
  returnedCount : ℕ
  complete : Bool
  deriving DecidableEq, Repr

/-- A page as the helper sends it: what is returned is counted, and a page is the last one exactly when no
    cursor comes with it. -/
structure EnumerateResponse where
  objects : List WireObservation
  edges : List WireEdge
  gaps : List CoverageGap
  cursor : Option String
  scan : Option Scan
  wireDigest : String
  progress : ∀ p ∈ scan, p.returnedCount = objects.length ∧ p.complete = cursor.isNone

/-- A call of `enumerate`. Its request is the same for every page. -/
structure EnumerateCall where
  toolCallId : String
  namespace_ : NamespaceName
  request : Json
  cursorRef : Option String
  source : FactSource

/-- An answered page whose facts have been committed. -/
structure Page where
  toolCallId : String
  scope : NamespaceName × String
  cursorRef : Option String
  scan : Scan
  gaps : List CoverageGap
  next : Option String
  deriving DecidableEq, Repr

structure PageRuntime where
  env : FactEnv
  ids : FreshIds
  taskId : String
  epochId : String
  targetFingerprint : String
  modelToolResult : EnumerateCall → EnumerateResponse → Normalizer.PreparedFactBatch → Except Thrown Json

structure CheckpointStore where
  batch : BatchStore
  cursors : Table RemoteCursor.cursorRef
  checkpoints : Table Playbooks.DiscoveryCheckpoint.scope
  /-- The calls whose answer is awaited. -/
  inFlight : List EnumerateCall
  /-- The pages with a scan that have been committed, for the statements below only. -/
  committed : List Page

abbrev Statement := CheckpointStore → Except Thrown CheckpointStore

variable (r : PageRuntime)

def EnumerateCall.scope (call : EnumerateCall) : NamespaceName × String :=
  (call.namespace_, r.env.normalizer.digestObject call.request)

def EnumerateCall.continuing (call : EnumerateCall) : Bool := (Js.truthyText call.cursorRef).isSome

def EnumerateResponse.hasCursor (response : EnumerateResponse) : Bool :=
  (Js.truthyText response.cursor).isSome

namespace CheckpointStore

def empty : CheckpointStore := ⟨.empty, .empty, .empty, [], []⟩

variable (s : CheckpointStore)

/-! ### A call -/

/-- The cursor of a call must be one of its own request. -/
def cursorBound (call : EnumerateCall) : Bool :=
  (Js.truthyText call.cursorRef).all fun cursorRef => (s.cursors.get? cursorRef).any fun cursor =>
    (cursor.namespace_, cursor.requestDigest) = call.scope r

def toolRun (call : EnumerateCall) : ToolRunRecord where
  toolCallId := call.toolCallId
  taskId := r.taskId
  epochId := some r.epochId
  toolName := "enumerate"
  risk := "READ"
  replayPolicy := "SAFE_REOBSERVE"
  args := call.request
  status := .started

/-- A call is sent unless it has ended already, its cursor is of another request, or the budget is spent. -/
def request (call : EnumerateCall) (budget : Bool) : Except Thrown CheckpointStore := do
  let existing := (s.batch.getToolRun call.toolCallId).filter fun run =>
    run.taskId = r.taskId ∧ run.epochId = some r.epochId
  require (existing.all fun run => run.status = .started)
    (securityError .recoveryUncertain "ToolCall 已进入终态，拒绝再次执行远程取证")
  require (s.cursorBound r call) (invalidArgument "Cursor 与当前 enumerate 请求不匹配")
  let batch ← s.batch.startToolRun r.env.normalizer.digestObject (toolRun r call)
  return if budget then { s with batch, inFlight := s.inFlight ++ [call] }
    else { s with batch := batch.finishToolRun call.toolCallId .blocked none (some "BUDGET_EXHAUSTED") }

/-! ### The checkpoint -/

def previous (call : EnumerateCall) : Option Playbooks.DiscoveryCheckpoint := s.checkpoints.get? (call.scope r)

/-- The limits of the pages before are kept. -/
def inheritedLimit (call : EnumerateCall) : Bool :=
  call.continuing && (s.previous r call).any fun previous => previous.status = .limited

def nonResumable (response : EnumerateResponse) : List CoverageGap :=
  response.gaps.filter fun gap => !gap.resumable

/-- The scan stopped and does not say where to go on. -/
def stranded (response : EnumerateResponse) (scan : Scan) : Bool := !response.hasCursor && !scan.complete

def limited (call : EnumerateCall) (response : EnumerateResponse) (scan : Scan) : Bool :=
  s.inheritedLimit r call || !(nonResumable response).isEmpty || stranded response scan

def limitations (call : EnumerateCall) (response : EnumerateResponse) (scan : Scan) : List String :=
  (if s.inheritedLimit r call then
    [((s.previous r call).bind (·.remainingDescription)).getD "前页存在未解决的采集限制"] else []) ++
  (nonResumable response).map (fun gap => gap.code ++ ":" ++ gap.detail.getD "") ++
  (if stranded response scan then ["扫描未完成且未返回续页游标"] else [])

def remainingDescription (call : EnumerateCall) (response : EnumerateResponse) (scan : Scan)
    (cursorRef : Option String) : Option String :=
  if s.limited r call response scan then
    some (String.intercalate "；" (Js.distinct (s.limitations r call response scan)))
  else cursorRef.map fun cursorRef => "扫描未结束；下一页 cursor " ++ cursorRef

/-- A page that continues adds to what the checkpoint counts. -/
def counted (call : EnumerateCall) (count : Playbooks.DiscoveryCheckpoint → ℕ) (here : ℕ) : ℕ :=
  if call.continuing then ((s.previous r call).map count).getD 0 + here else here

def nextCheckpoint (call : EnumerateCall) (response : EnumerateResponse) (scan : Scan)
    (cursorRef : Option String) : Playbooks.DiscoveryCheckpoint where
  checkpointId := ((s.previous r call).map (·.checkpointId)).getD
    (r.ids.draw "DCP-" (s.checkpoints.rows.map (·.checkpointId)))
  namespace_ := call.namespace_
  requestDigest := r.env.normalizer.digestObject call.request
  status := if s.limited r call response scan then .limited
    else if response.hasCursor then .running else .complete
  scannedCount := s.counted r call (·.scannedCount) scan.scannedCount
  matchedCount := s.counted r call (·.matchedCount) scan.matchedCount
  returnedCount := s.counted r call (·.returnedCount) scan.returnedCount
  cursorRef
  remainingDescription := s.remainingDescription r call response scan cursorRef

/-- The state of an investigation belongs to an epoch that exists. -/
def putDiscoveryCheckpoint (value : Playbooks.DiscoveryCheckpoint) : Except Thrown CheckpointStore := do
  require ((s.batch.factStore.epochs.get? r.epochId).any fun epoch => epoch.taskId = r.taskId)
    (invalidArgument "调查状态必须绑定已存在的 task + epoch")
  let checkpointId := ((s.checkpoints.get? value.scope).map (·.checkpointId)).getD value.checkpointId
  return { s with checkpoints := s.checkpoints.put { value with checkpointId } }

/-- A run that gives up marks the checkpoint that waits for the cursor it has. -/
def limitDiscoveryCheckpoint (cursorRef : Option String) (reason : String) :
    Except Thrown CheckpointStore :=
  match (Js.truthyText cursorRef).bind fun cursorRef =>
    s.checkpoints.rows.find? fun checkpoint => checkpoint.cursorRef = some cursorRef with
  | none => .ok s
  | some checkpoint =>
    s.putDiscoveryCheckpoint r { checkpoint with status := .limited, remainingDescription := some reason }

/-! ### An answer -/

def nextCursorRef (response : EnumerateResponse) : Option String :=
  (Js.truthyText response.cursor).map fun _ => r.ids.draw "CURSOR-" (s.cursors.rows.map (·.cursorRef))

def putRemoteCursor (cursor : RemoteCursor) : Except Thrown CheckpointStore := do
  let cursors ← orThrow (s.cursors.insert? cursor) (uniqueConstraint "remote_cursors_v2.cursor_ref")
  return { s with cursors }

def batchInput (call : EnumerateCall) (response : EnumerateResponse) : BatchInput where
  taskId := r.taskId
  epochId := r.epochId
  sourceRunId := call.toolCallId
  source := { call.source with evidenceOrigin := some "TARGET_OBSERVATION" }
  targetFingerprint := r.targetFingerprint
  requestId := call.toolCallId
  collector := ⟨"enumerate", "3.0.0"⟩
  observations := response.objects
  edges := response.edges
  gaps := response.gaps
  wireDigest := response.wireDigest
  toolRun := some
    { toolCallId := call.toolCallId
      succeeded := true
      resultFactory := some (r.modelToolResult call response) }

def page (call : EnumerateCall) (response : EnumerateResponse) (cursorRef : Option String) (scan : Scan) :
    Page where
  toolCallId := call.toolCallId
  scope := call.scope r
  cursorRef := Js.truthyText call.cursorRef
  scan
  gaps := response.gaps
  next := cursorRef

def commit (call : EnumerateCall) (response : EnumerateResponse) (cursorRef : Option String)
    (fails : ℕ → Option Thrown) : Statement := fun s => do
  let batch ← s.batch.commitFactBatch r.env fails (batchInput r call response)
  return { s with batch, committed := s.committed ++ (response.scan.map (page r call response cursorRef)).toList }

/-- What is written before the facts of a page. -/
def prologue (call : EnumerateCall) (response : EnumerateResponse) : List Statement :=
  ((Js.truthyText response.cursor).toList.map fun helperCursor s' => s'.putRemoteCursor
    ⟨(s.nextCursorRef r response).getD "", call.namespace_, r.env.normalizer.digestObject call.request,
      helperCursor⟩) ++
  response.scan.toList.map fun scan s' => s'.putDiscoveryCheckpoint r
    (s'.nextCheckpoint r call response scan (s.nextCursorRef r response))

def answered (call : EnumerateCall) (response : EnumerateResponse) (fails : ℕ → Option Thrown) :
    List Statement :=
  s.prologue r call response ++ [commit r call response (s.nextCursorRef r response) fails]

/-- A call that failed is put on record, unless it has ended otherwise. -/
def failCall (call : EnumerateCall) : CheckpointStore :=
  match s.batch.getToolRun call.toolCallId with
  | some run =>
    if run.status = .started then
      { s with batch := s.batch.finishToolRun call.toolCallId .failed none none }
    else s
  | none => s

/-- The answer to a call, or that there was none. The process may end before any of the statements. -/
def answer (call : EnumerateCall) (response : Option EnumerateResponse) (fails : ℕ → Option Thrown)
    (cut : Option ℕ) : CheckpointStore :=
  let waiting := { s with inFlight := s.inFlight.filter fun other => other.toolCallId ≠ call.toolCallId }
  match response with
  | none => waiting.failCall call
  | some response =>
    match cut, Statements.complete (waiting.answered r call response fails) waiting with
    | none, .error _ =>
      (Statements.execute (waiting.answered r call response fails) none waiting).failCall call
    | cut, _ => Statements.execute (waiting.answered r call response fails) cut waiting

end CheckpointStore

/-! ### The operations -/

inductive CheckpointOp where
  | createScanEpoch (epoch : EpochRecord)
  | finishScanEpoch (taskId epochId : String) (status : EpochStatus)
  | request (call : EnumerateCall) (budget : Bool)
  | answer (call : EnumerateCall) (response : Option EnumerateResponse) (fails : ℕ → Option Thrown)
      (cut : Option ℕ)
  | limit (cursorRef : Option String) (reason : String)
  /-- A new process awaits no answers. -/
  | restart

def step (s : CheckpointStore) : CheckpointOp → CheckpointStore
  | .createScanEpoch epoch =>
    { s with batch := transact s.batch (s.batch.onFacts (·.createScanEpoch epoch)) }
  | .finishScanEpoch taskId epochId status =>
    { s with batch := transact s.batch (s.batch.onFacts (·.finishScanEpoch taskId epochId status)) }
  | .request call budget => transact s (s.request r call budget)
  | .answer call response fails cut =>
    if s.inFlight.any fun other => other.toolCallId = call.toolCallId then s.answer r call response fails cut
    else s
  | .limit cursorRef reason => transact s (s.limitDiscoveryCheckpoint r cursorRef reason)
  | .restart => { s with inFlight := [] }

def runOps (ops : List CheckpointOp) : CheckpointStore := Runs.run (step r) .empty ops

end HuntWarden.Enumeration
