import HuntWarden.Protocol.Wire

/-! The SSH channel to the helper. A command settles once, by whatever comes first: the channel is refused,
    the call is aborted, the timer fires, too much is printed, or the channel closes. Everything but an
    answer is thrown as an error with a code, and so is an answer that is not what it has to be. -/

namespace HuntWarden.Ssh

open Outcome Wire

/-- What reaches the client before its timer fires. -/
inductive ChannelEvent where
  | refused (message : String)
  | data (bytes : List UInt8)
  | stderr (bytes : List UInt8)
  | abort
  | close (code : Option ℤ)
  deriving DecidableEq, Repr

/-- How a command settles. The code of a channel that a signal or a lost connection closed is missing. -/
inductive Settled where
  | refused (message : String)
  | tooLarge
  | aborted
  | silent (code : Option ℤ) (stderr : List UInt8)
  | answered (stdout : List UInt8)
  | timedOut
  deriving DecidableEq, Repr

def maxOutputBytes : ℕ := 2 * 1024 * 1024

def helperOutputBudgetBytes : ℕ := 1572864

def settle (stdout stderr : List UInt8) : List ChannelEvent → Settled
  | [] => .timedOut
  | .refused message :: _ => .refused message
  | .data bytes :: events =>
    if (stdout ++ bytes).length > maxOutputBytes then .tooLarge else settle (stdout ++ bytes) stderr events
  | .stderr bytes :: events => settle stdout ((stderr ++ bytes).take maxOutputBytes) events
  | .abort :: _ => .aborted
  | .close code :: _ =>
    if code ≠ some 0 ∧ stdout = [] then .silent code stderr else .answered stdout

/-- What the language does with bytes: `JSON.parse(stdout.toString("utf8"))`, which may fail, and
    `stderr.toString("utf8").slice(0, 1000)`. -/
structure Decoding where
  json : List UInt8 → Option Json
  detail : List UInt8 → String

def exitCode : Option ℤ → String
  | none => "undefined"
  | some code => toString code

def tooLargeMessage : String :=
  s!"目标输出超过 {maxOutputBytes} 字节协议硬顶。目标端 helper 自身有 {helperOutputBudgetBytes} 字节（1.5 MiB）" ++
  "输出预算并会截断后置 partial，" ++
  "因此触发硬顶说明目标端 helper 未启用输出预算或协议异常：请确认目标端 helper 版本，" ++
  "并收窄本次原语的 limit、Scope 或任务时间窗后重试。" ++
  "本次结果已整体丢弃，这是数据量问题而不是目标能力缺失。"

def timedOutMessage (timeoutMs helperDeadlineMs : ℕ) : String :=
  s!"远程操作超过 {timeoutMs}ms，已关闭 SSH channel。" ++
  s!"目标端 helper 的墙钟预算为 {helperDeadlineMs}ms，" ++
  "正常情况下 v2 helper 会先到期并返回带 CoverageGap 的 PARTIAL；" ++
  "未返回说明 helper 运行异常，请在目标主机确认辅助程序状态后再重试。"

variable (d : Decoding)

def exec (timeoutMs helperDeadlineMs : ℕ) (events : List ChannelEvent) : Except Thrown (List UInt8) :=
  match settle [] [] events with
  | .refused message =>
    .error (securityError .targetUnavailable s!"无法启动远程辅助程序: {message}")
  | .tooLarge => .error (.security {
      code := .budgetExceeded
      message := tooLargeMessage
      details := [("limitBytes", .num maxOutputBytes), ("helperBudgetBytes", .num helperOutputBudgetBytes)] })
  | .aborted => .error (securityError .recoveryUncertain "远程操作被中止，执行状态需要恢复确认")
  | .silent code stderr => .error (securityError .unsupportedEnvironment
      s!"目标辅助程序退出码 {exitCode code}: {d.detail stderr}")
  | .answered stdout => .ok stdout
  | .timedOut => .error (securityError .toolTimeout (timedOutMessage timeoutMs helperDeadlineMs))

def helperDeadlineHeadroomMs : ℕ := 5000

def maintenanceVerbs : List String :=
  ["scope_resolve", "artifact_release", "get_action_receipt", "quarantine_file", "disable_account"]

/-- `error.message ?? error.code` -/
def errorMessage (c : Coercions) (envelope : Json) : String :=
  let error := (envelope.get? "error").getD .null
  match error.get? "message" with
  | none | some .null => Js.toText c ((error.get? "code").getD .null)
  | some message => Js.toText c message

def protocolCode (envelope : Json) : Json := ((envelope.get? "error").bind (·.get? "code")).getD .null

/-- The maintenance result of an answer. -/
def readAnswer (c : Coercions) (raw : Option Json) (requestId : String) : Except Thrown Json := do
  let parsed ← parseWireResponse raw requestId
  require (parsed.status ≠ .error) (.security {
    code := .recoveryUncertain
    message := errorMessage c parsed.envelope
    details := [("protocolCode", protocolCode parsed.envelope)] })
  orThrow ((parsed.envelope.get? "maintenanceResult").filter Json.isRecord)
    (unsupported "v2 maintenance 缺少 maintenanceResult")

/-- A maintenance call: what comes of connecting, and then of the channel. -/
def invokeMaintenanceV2 (c : Coercions) (verb requestId : String) (deadlineMs : ℕ)
    (connection : Except Thrown (List ChannelEvent)) : Except Thrown Json := do
  require (verb ∈ maintenanceVerbs) (invalidArgument "未知 v2 maintenance verb")
  let events ← connection
  let raw ← exec d (deadlineMs + helperDeadlineHeadroomMs) deadlineMs events
  readAnswer c (d.json raw) requestId

end HuntWarden.Ssh
