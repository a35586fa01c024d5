import HuntWarden.Agent.ApprovalService
import HuntWarden.Executor.Ssh
import HuntWarden.Lib.Program
import HuntWarden.Storage.FactBatches

/-! A write on the target and its receipt. The receipt is put STARTED before the helper is called and ends
    by what comes back; an error on the way, the helper's or a local one, ends it by the error's code. -/

namespace HuntWarden

inductive ActionReceiptStatus where
  | started | succeeded | failed | unknown
  deriving DecidableEq, Repr

structure ActionReceipt where
  actionId : String
  taskId : String
  epochId : Option String
  tool : String
  targetFingerprint : String
  status : ActionReceiptStatus
  result : Option Json := none
  startedAt : ℕ
  finishedAt : Option ℕ := none
  deriving DecidableEq

/-- The tables a write and its recovery work on. -/
structure WriteStore where
  approvals : ApprovalStore
  runs : BatchStore
  receipts : Table ActionReceipt.actionId

namespace WriteStore

/-- `INSERT OR REPLACE` -/
def putActionReceipt (s : WriteStore) (receipt : ActionReceipt) : WriteStore :=
  { s with receipts := s.receipts.put receipt }

def finishToolRun (s : WriteStore) (toolCallId : String) (status : ToolRunStatus)
    (result : Option Json) (error : Option String) : WriteStore :=
  { s with runs := s.runs.finishToolRun toolCallId status result error }

def getToolRunForScope (s : WriteStore) (taskId epochId toolCallId : String) : Option ToolRunRecord :=
  (s.runs.getToolRun toolCallId).filter fun run => run.taskId = taskId ∧ run.epochId = some epochId

end WriteStore

namespace WriteTool

open Outcome Ssh

/-- The local steps of a write that can fail, each on its own. -/
inductive LocalStep where
  | started | checkpoint | receipt | modelResult | finish | audit | caughtReceipt | caughtFinish
  deriving DecidableEq, Repr

inductive WriteToolName where
  | quarantine_file | disable_account
  deriving DecidableEq, Repr

def WriteToolName.text : WriteToolName → String
  | quarantine_file => "quarantine_file"
  | disable_account => "disable_account"

/-- A write tool, and one call of it. -/
structure WriteCall where
  name : WriteToolName
  label : String
  allowedTools : List String
  task : TaskContext
  epochId : String
  toolCallId : String
  args : Json
  now : ℕ

/-- What the call meets: the checks of the tool before it sends, what comes of connecting, what the channel
    delivers, and which local steps fail. -/
structure WriteEnv where
  prepare : ApprovalTicket → Except Thrown Unit
  connection : Except Thrown (List ChannelEvent)
  fails : LocalStep → Option Thrown
  modelToolResult : Json → Json

abbrev WriteProgram := Program WriteStore Thrown

variable (c : Coercions) (d : Decoding) (digestObject : Json → String)

section

variable (env : WriteEnv) (call : WriteCall) (ticket : ApprovalTicket)

/-- A local step that writes. -/
def WriteEnv.step (name : LocalStep) (body : WriteStore → WriteStore) : WriteProgram Unit :=
  Program.write fun s =>
    match env.fails name with
    | some error => .error error
    | none => .ok (body s)

def requestId : String := ticket.actionId ++ ":WRITE"

/-- `run` of the tool: its own checks, then `invokeWrite` -/
def remote : Except Thrown Json := do
  env.prepare ticket
  invokeMaintenanceV2 d c call.name.text (requestId ticket) 55000 env.connection

def started : ActionReceipt where
  actionId := ticket.actionId
  taskId := call.task.taskId
  epochId := some call.epochId
  tool := call.name.text
  targetFingerprint := call.task.hostFingerprint
  status := .started
  startedAt := call.now

/-- `remote.status === "SUCCEEDED" ? "SUCCEEDED" : "FAILED"` -/
def receiptStatus (result : Json) : ActionReceiptStatus :=
  if result.get? "status" = some (.str "SUCCEEDED") then .succeeded else .failed

def succeededDetails : Json :=
  .obj [("status", .str "success"), ("actionId", .str ticket.actionId)]

/-- `error.message` -/
def message : Thrown → String
  | .security error => error.message
  | .native message => message

def uncertainCodes : List SecurityErrorCode := [.recoveryUncertain, .toolTimeout, .targetUnavailable]

/-- The errors after which the outcome of the write is not known. -/
def isUncertain : Thrown → Bool
  | .security error => error.code ∈ uncertainCodes
  | .native _ => false

def caughtStatus (error : Thrown) : ActionReceiptStatus :=
  if isUncertain error then .unknown else .failed

def notSucceeded : Thrown :=
  .security {
    code := .evidenceCollection
    message := s!"{call.label}未成功"
    details := [("actionId", .str ticket.actionId)] }

/-- The body of the `try`. -/
def settleReceipt : WriteProgram Json := do
  let result ← Program.reads fun _ => remote c d env call ticket
  env.step .checkpoint id
  env.step .receipt (·.putActionReceipt { started call ticket with
    status := receiptStatus result, result := some result, finishedAt := some call.now })
  Program.reads fun _ => require (receiptStatus result = .succeeded) (notSucceeded call ticket)
  env.step .modelResult id
  let toolResult := env.modelToolResult (succeededDetails ticket)
  env.step .finish (·.finishToolRun call.toolCallId .succeeded (some toolResult) none)
  env.step .audit id
  return toolResult

/-- The `catch`. -/
def recordFailure (error : Thrown) : WriteProgram Json := do
  env.step .caughtReceipt (·.putActionReceipt { started call ticket with
    status := caughtStatus error
    result := some (.obj [("error", .str (message error))])
    finishedAt := some call.now })
  env.step .caughtFinish fun s =>
    match s.getToolRunForScope call.task.taskId call.epochId call.toolCallId with
    | some run =>
      if run.status = .started then
        s.finishToolRun call.toolCallId .failed none (some (message error))
      else s
    | none => s
  Program.throw error

end

/-- `execute` of a write tool -/
def execute (env : WriteEnv) (call : WriteCall) : WriteProgram Json := do
  let ticket ← Program.update fun s => do
    let (approvals, ticket) ← ApprovalService.authorizeWrite digestObject s.approvals call.now
      call.allowedTools call.task call.name.text call.args
    return (ticket, { s with approvals })
  env.step .started (·.putActionReceipt (started call ticket))
  Program.onError (settleReceipt c d env call ticket) (recordFailure env call ticket)

end WriteTool

end HuntWarden
