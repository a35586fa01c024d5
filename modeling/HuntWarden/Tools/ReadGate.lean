import HuntWarden.Helper.Files
import HuntWarden.Lib.Runs
import HuntWarden.Protocol.Capability
import HuntWarden.Storage.BatchRuns
import HuntWarden.Storage.Usage
import HuntWarden.Tools.RemoteTool

/-! What a text has to pass before it leaves the target for the model. `read`, and `match` when it asks for
    context, go through one gate: the class of the content as the stricter of what the helper claims and
    what the controller knows of the path, a grant for that object where the class asks for one, and a
    charge on the content counter. A proposed action passes the same gate once more before it is kept. -/

namespace HuntWarden.ReadGate

open Outcome BudgetStore RemoteTool Capability

open Helper (ContentClass)

/-! ### The class of a content -/

/-- How strict a class is. -/
def rank : ContentClass → ℕ
  | .safeText => 0
  | .sensitiveText => 1
  | .deniedText => 2

/-- The names before an extension that mark a secret. -/
def secretNames : List String := ["id_rsa", "id_ed25519", "credentials", "secret", "secrets"]

/-- `/\/(?:id_rsa|id_ed25519|credentials|secrets?)(?:\.[^/]*)?$/i` -/
def namesSecret (path : String) : Bool :=
  match Helper.splitSlashes path.toList with
  | [] => false
  | _ :: parts => parts.getLast?.any fun part => secretNames.any fun name =>
      part.map Char.toLower = name.toList || (name.toList ++ ['.']).isPrefixOf (part.map Char.toLower)

/-- What the controller says of a path. -/
def controllerClass (path : String) : ContentClass :=
  if path ∈ ["/etc/shadow", "/etc/gshadow", "/proc/kcore"] || Helper.isProcessMemory path ||
      namesSecret path ||
      ["/.aws/", "/.gnupg/", "/.kube/"].any (Helper.contains · path) then
    .deniedText
  else if path ∈ ["/etc/os-release", "/usr/lib/os-release", "/proc/version", "/proc/uptime",
      "/etc/hostname"] then
    .safeText
  else .sensitiveText

/-- What a helper's value is taken for. -/
def helperClass (helperValue : Option Json) : ContentClass :=
  match helperValue with
  | some (.str "SAFE_TEXT") => .safeText
  | some (.str "DENIED_TEXT") => .deniedText
  | _ => .sensitiveText

/-- The path a value stands for: a value that is no text stands for none. -/
def pathOf (pathValue : Option Json) : String := (pathValue.bind Json.asString?).getD ""

def effectiveContentClass (pathValue helperValue : Option Json) : ContentClass :=
  if rank (controllerClass (pathOf pathValue)) ≤ rank (helperClass helperValue) then
    helperClass helperValue
  else controllerClass (pathOf pathValue)

/-! ### The store, and what a call reads of it -/

structure ReadStore where
  batch : BatchStore
  grants : List ExpiringGrant
  usage : UsageStore
  budgets : BudgetStore

/-- What the tools of an epoch are bound to. -/
structure Deps where
  taskId : String
  epochId : String
  hostFingerprint : String
  capabilities : EffectiveCapabilities
  budgetOwner : BudgetOwner

namespace ReadStore

def listTaskGrants (s : ReadStore) (taskId : String) : List ExpiringGrant :=
  s.grants.filter fun grant => grant.taskId = taskId

def getToolRunForScope (s : ReadStore) (taskId epochId toolCallId : String) : Option ToolRunRecord :=
  (s.batch.getToolRun toolCallId).filter fun run => run.taskId = taskId ∧ run.epochId = some epochId

def getObjectReference (s : ReadStore) (taskId epochId ref : String)
    (namespace_ : Option NamespaceName) : Option ObjectReference :=
  (s.batch.factStore.refs.rows.find? fun row =>
      row.taskId = taskId && row.epochId = epochId && row.ref = ref).filter
    fun row => namespace_.all (row.namespace_ = ·)

/-- `listFacts(taskId, epochId).filter((item) => item.subjectRef === ref)` -/
def objectFacts (s : ReadStore) (deps : Deps) (ref : String) : List FactRecord :=
  (FactStore.bySeq (s.batch.factStore.facts.rows.filter fun fact =>
    fact.taskId = deps.taskId && fact.epochId = deps.epochId)).filter (·.subjectRef = ref)

end ReadStore

/-- `Object.assign({}, ...facts.map((fact) => fact.privatePayload))` -/
def latestPrivateFact (deps : Deps) (s : ReadStore) (ref : String) : Except Thrown Payload := do
  require (!(s.objectFacts deps ref).isEmpty) (invalidArgument "ObjectRef 尚无可复核 Fact")
  return ((s.objectFacts deps ref).map (·.privatePayload)).foldl Normalizer.spread []

structure ObjectBinding where
  namespace_ : NamespaceName
  identity : Payload
  locator : Payload
  deriving DecidableEq

/-- The field of the locator, when the fact has it as a text. -/
def locate (latest : Payload) (field : String) : Payload :=
  ((latest.lookup field).bind Json.asString?).toList.map fun value => (field, .str value)

def resolveObject (deps : Deps) (s : ReadStore) (ref : String)
    (namespace_ : Option NamespaceName := none) : Except Thrown ObjectBinding := do
  let value ← orThrow (s.getObjectReference deps.taskId deps.epochId ref namespace_)
    (securityError .invalidArgument "ObjectRef 不存在、类型错误或跨 task/epoch")
  let latest ← latestPrivateFact deps s ref
  return {
    namespace_ := value.namespace_
    identity := value.stableIdentity
    locator := locate latest "path" ++
      if value.namespace_ = .process then locate latest "exeInode" ++ locate latest "exeSha256"
      else [] }

variable (clock : Clock)

def assertCategoryGrant (deps : Deps) (s : ReadStore) (namespace_ : NamespaceName) :
    Except Thrown Unit := do
  let allowed ← categoryGrantAllowsNamespace clock namespace_.name (s.listTaskGrants deps.taskId)
  require allowed (securityError .permissionDenied
    s!"namespace {namespace_.name} 的 Category Grant 已失效或被撤销")

def assertEffectiveVerb (deps : Deps) (s : ReadStore) (namespace_ : NamespaceName) (verb : String) :
    Except Thrown Unit := do
  assertCategoryGrant clock deps s namespace_
  require (verb ∈ deps.capabilities.verbs &&
      (deps.capabilities.namespaces.lookup namespace_.name).any (verb ∈ ·.verbs))
    (securityError .unsupportedEnvironment s!"目标未声明能力 {namespace_.name}.{verb}")

/-- The grant covers reading that object on the target of the task. -/
def coversRead (deps : Deps) (ref : String) (grant : ExpiringGrant) : Bool :=
  grant.kind = .sensitiveRead && isActive clock grant &&
    grant.targetFingerprint = deps.hostFingerprint &&
    grant.binding.lookup "subjectRef" = some (.str ref)

def requireSensitiveGrant (deps : Deps) (s : ReadStore) (ref : String) : Except Thrown Unit :=
  require ((s.listTaskGrants deps.taskId).any (coversRead clock deps ref))
    (securityError .permissionDenied "SENSITIVE_TEXT 需要绑定当前对象的 Sensitive-read Grant")

/-- The checks on the content of one object; `denied` is what the tool says of content that never leaves. -/
def gateContent (deps : Deps) (s : ReadStore) (ref denied : String) : Except Thrown Unit := do
  let latest ← latestPrivateFact deps s ref
  let contentClass := effectiveContentClass (latest.lookup "path") (latest.lookup "contentClass")
  require (contentClass ≠ .deniedText) (securityError .permissionDenied denied)
  if contentClass ≠ .safeText then requireSensitiveGrant clock deps s ref else return ()

/-! ### The two tools -/

structure ReadParams where
  ref : String
  offset : ℕ
  length : ℕ
  encoding : String
  purpose : String

structure Matcher where
  engine : String
  pattern : Option String := none
  ruleSetRef : Option String := none

structure MatchParams where
  refs : List String
  matcher : Matcher
  maxHits : ℕ
  includeContext : Bool

inductive ContentCall where
  | read_ (params : ReadParams)
  | match_ (params : MatchParams)

namespace ContentCall

def verb : ContentCall → ForensicVerb
  | .read_ _ => .read
  | .match_ _ => .match

def toolName : ContentCall → String
  | .read_ _ => "read"
  | .match_ _ => "match"

/-- The parameters as they are kept with the tool run. -/
def args : ContentCall → Json
  | .read_ params => .obj [("ref", .str params.ref), ("offset", .num params.offset),
      ("length", .num params.length), ("encoding", .str params.encoding),
      ("purpose", .str params.purpose)]
  | .match_ params => .obj [("refs", .arr (params.refs.map Json.str)),
      ("matcher", .obj (("engine", .str params.matcher.engine) ::
        (params.matcher.pattern.toList.map fun pattern => ("pattern", Json.str pattern)) ++
        (params.matcher.ruleSetRef.toList.map fun ruleSetRef => ("ruleSetRef", Json.str ruleSetRef)))),
      ("maxHits", .num params.maxHits), ("includeContext", .bool params.includeContext)]

/-- The objects whose content the call asks for. -/
def contentRefs : ContentCall → List String
  | .read_ params => [params.ref]
  | .match_ params => if params.includeContext then params.refs else []

/-- `MATCH_CONTEXT_MAX_BYTES` -/
def matchContextMaxBytes : ℕ := 2560

/-- The bytes that the call is charged. -/
def contentBytes : ContentCall → ℕ
  | .read_ params => params.length
  | .match_ params => if params.includeContext then params.refs.length * matchContextMaxBytes else 0

/-- What the estimate of the cost reads of the parameters. -/
def costParams : ContentCall → RemoteParams
  | .read_ params => { length := some params.length }
  | .match_ params => { maxHits := some params.maxHits }

end ContentCall

inductive RequestParams where
  | read_ (binding : ObjectBinding) (offset length : ℕ) (encoding purpose : String)
  | match_ (objects : List ObjectBinding) (matcher : Matcher) (maxHits : ℕ) (includeContext : Bool)

/-- The counter of the content that the model was given. -/
def contentCounter (deps : Deps) : CounterId := ⟨deps.taskId, deps.epochId, "MODEL_CONTENT_BYTES"⟩

def buildRead (deps : Deps) (s : ReadStore) (params : ReadParams) :
    Except Thrown (UsageStore × RequestParams) := do
  let binding ← resolveObject deps s params.ref (some .file)
  assertEffectiveVerb clock deps s binding.namespace_ "read"
  gateContent clock deps s params.ref "DENIED_TEXT 永不进入模型"
  let usage ← s.usage.consumeUsage (contentCounter deps) (some params.length)
  return (usage, .read_ binding params.offset params.length params.encoding params.purpose)

/-- One object of a `match`; with its context it passes the gate of `read`. -/
def matchObject (deps : Deps) (s : ReadStore) (includeContext : Bool) (denied ref : String) :
    Except Thrown ObjectBinding := do
  let binding ← resolveObject deps s ref (some .file)
  assertEffectiveVerb clock deps s binding.namespace_ "match"
  if includeContext then gateContent clock deps s ref denied
  return binding

def matchEngine (deps : Deps) (matcher : Matcher) : Except Thrown Unit :=
  require (matcher.engine ∈ deps.capabilities.matchers)
    (securityError .unsupportedEnvironment s!"目标不支持 matcher {matcher.engine}")

/-- The charge for the contexts that a match may bring back. -/
def chargeContexts (deps : Deps) (s : ReadStore) (params : MatchParams) : Except Thrown UsageStore :=
  if params.includeContext then
    s.usage.consumeUsage (contentCounter deps)
      (some (params.refs.length * ContentCall.matchContextMaxBytes : ℕ))
  else .ok s.usage

def buildMatch (deps : Deps) (s : ReadStore) (params : MatchParams) :
    Except Thrown (UsageStore × RequestParams) := do
  matchEngine deps params.matcher
  let objects ← params.refs.mapM (matchObject clock deps s params.includeContext
    "DENIED_TEXT 不返回命中上下文；请以 includeContext=false 匹配后再用 read 取受控文本")
  let usage ← chargeContexts deps s params
  return (usage, .match_ objects params.matcher params.maxHits params.includeContext)

def build (deps : Deps) (s : ReadStore) : ContentCall → Except Thrown (UsageStore × RequestParams)
  | .read_ params => buildRead clock deps s params
  | .match_ params => buildMatch clock deps s params

/-- What the proposal of such a call as an action is checked for; nothing is charged yet. -/
def validateProposed (deps : Deps) (s : ReadStore) : ContentCall → Except Thrown Unit
  | .read_ params => do
    let binding ← resolveObject deps s params.ref (some .file)
    assertEffectiveVerb clock deps s binding.namespace_ "read"
    gateContent clock deps s params.ref "DENIED_TEXT 永不进入模型"
  | .match_ params => do
    matchEngine deps params.matcher
    let _ ← params.refs.mapM (matchObject clock deps s params.includeContext
      "DENIED_TEXT 不返回命中上下文")

structure ContentRequest where
  requestId : String
  epochId : String
  deadlineMs : ℕ
  reservationId : String
  estimate : WireCost
  params : RequestParams

/-- What became of a call: a request is on its way, or an earlier result is given once more. -/
inductive Proceeded where
  | sent (request : ContentRequest)
  | replayed (result : Json)

variable (c : Coercions) (digestObject : Json → String)

def startRecord (deps : Deps) (toolCallId : String) (call : ContentCall) : ToolRunRecord where
  toolCallId
  taskId := deps.taskId
  epochId := some deps.epochId
  toolName := call.toolName
  risk := "READ"
  replayPolicy := "SAFE_REOBSERVE"
  args := call.args
  status := .started

/-- A call that was built: it is entered as a tool run, and its cost is reserved. -/
def send (deps : Deps) (s : ReadStore) (toolCallId reservationId : String) (call : ContentCall)
    (params : RequestParams) : ReadStore × Except Thrown Proceeded :=
  let estimate := estimateRemoteCost call.verb call.costParams
  match s.batch.startToolRun digestObject (startRecord deps toolCallId call) with
  | .error error => (s, .error error)
  | .ok batch =>
    match reserveBudget c s.budgets reservationId ⟨deps.taskId, deps.epochId, deps.budgetOwner⟩
        estimate with
    | .error error =>
      ({ s with batch := batch.finishToolRun toolCallId .blocked none (some "BUDGET_EXHAUSTED") },
        .error error)
    | .ok budgets => ({ s with batch, budgets }, .ok (.sent {
        requestId := toolCallId
        epochId := deps.epochId
        deadlineMs := min 115000 60000
        reservationId
        estimate
        params }))

/-- `execute`, up to the request. -/
def execute (deps : Deps) (s : ReadStore) (toolCallId reservationId : String) (call : ContentCall) :
    ReadStore × Except Thrown Proceeded :=
  let existing := s.getToolRunForScope deps.taskId deps.epochId toolCallId
  match (existing.filter (·.status = .succeeded)).bind (·.result.filter Js.truthy) with
  | some result => (s, .ok (.replayed result))
  | none =>
    if existing.any (·.status ≠ .started) then
      (s, .error (securityError .recoveryUncertain "ToolCall 已进入终态，拒绝再次执行远程取证"))
    else
      match build clock deps s call with
      | .error error => (s, .error error)
      | .ok (usage, params) =>
        send c digestObject deps { s with usage } toolCallId reservationId call params

/-! ### The class is the stricter of the two -/

/-- Neither side loosens what the other says. -/
theorem rank_effectiveContentClass (pathValue helperValue : Option Json) :
    rank (effectiveContentClass pathValue helperValue) =
      max (rank (controllerClass (pathOf pathValue))) (rank (helperClass helperValue)) := by
  rw [effectiveContentClass]
  by_cases h : rank (controllerClass (pathOf pathValue)) ≤ rank (helperClass helperValue)
  · rw [if_pos h, Nat.max_eq_right h]
  · rw [if_neg h, Nat.max_eq_left (Nat.le_of_not_le h)]

example : effectiveContentClass (some (.str "/home/a/.ssh/ID_RSA.bak")) (some (.str "SAFE_TEXT")) =
    .deniedText := by decide

theorem rank_injective : Function.Injective rank := by
  intro a b h
  cases a <;> cases b <;> first | rfl | cases h

theorem rank_lt_denied {a : ContentClass} : rank a < 2 ↔ a ≠ .deniedText := by
  cases a <;> simp [rank]

theorem effectiveContentClass_ne_denied {pathValue helperValue : Option Json}
    (h : effectiveContentClass pathValue helperValue ≠ .deniedText) :
    controllerClass (pathOf pathValue) ≠ .deniedText ∧ helperClass helperValue ≠ .deniedText := by
  rw [← rank_lt_denied, rank_effectiveContentClass, Nat.max_lt] at h
  exact ⟨rank_lt_denied.1 h.1, rank_lt_denied.1 h.2⟩

theorem effectiveContentClass_eq_safe {pathValue helperValue : Option Json}
    (h : effectiveContentClass pathValue helperValue = .safeText) :
    controllerClass (pathOf pathValue) = .safeText ∧ helperClass helperValue = .safeText := by
  have hrank := rank_effectiveContentClass pathValue helperValue
  rw [h] at hrank
  have hzero : rank .safeText = 0 := rfl
  exact ⟨rank_injective (by omega), rank_injective (by omega)⟩

/-! ### What the facts of an object say -/

/-- The value that the facts of the object gave the field last. -/
def ReadStore.reported (s : ReadStore) (deps : Deps) (ref field : String) : Option Json :=
  ((s.objectFacts deps ref).flatMap (·.privatePayload)).reverse.lookup field

theorem lookup_append {field : String} (left right : Payload) :
    (left ++ right).lookup field = (left.lookup field).or (right.lookup field) := by
  induction left with
  | nil => rfl
  | cons entry left ih =>
    obtain ⟨name, value⟩ := entry
    rw [List.cons_append, OrderedMap.lookup_cons_if, OrderedMap.lookup_cons_if, ih]
    by_cases h : field = name
    · rw [if_pos h, if_pos h]
      rfl
    · rw [if_neg h, if_neg h]

theorem lookup_spread (field : String) (right : Payload) : ∀ left : Payload,
    (Normalizer.spread left right).lookup field =
      (right.reverse.lookup field).or (left.lookup field) := by
  induction right with
  | nil => exact fun left => rfl
  | cons entry right ih =>
    intro left
    obtain ⟨name, value⟩ := entry
    rw [Normalizer.spread, List.foldl_cons]
    refine (ih _).trans ?_
    rw [OrderedMap.lookup_upsert, List.reverse_cons, lookup_append, Option.or_assoc,
      OrderedMap.lookup_cons_if]
    by_cases h : field = name
    · rw [if_pos h, if_pos h]
      rfl
    · rw [if_neg h, if_neg h]
      rfl

theorem lookup_assign (field : String) : ∀ (payloads : List Payload) (left : Payload),
    (payloads.foldl Normalizer.spread left).lookup field =
      (payloads.flatten.reverse.lookup field).or (left.lookup field)
  | [], left => rfl
  | payload :: payloads, left => by
    rw [List.foldl_cons, lookup_assign field payloads, lookup_spread, List.flatten_cons,
      List.reverse_append, lookup_append, Option.or_assoc]

variable {clock c digestObject} {deps : Deps} {s s' : ReadStore} {ref : String}

theorem latestPrivateFact_ok {latest : Payload} (h : latestPrivateFact deps s ref = .ok latest)
    (field : String) : latest.lookup field = s.reported deps ref field := by
  obtain ⟨_, -, h⟩ := bind_ok.1 h
  rw [← pure_ok.1 h, lookup_assign, ReadStore.reported, List.flatMap_def]
  exact Option.or_none

/-! ### What the gate asks -/

/-- The grant has no end, or its end lies ahead. -/
def Unexpired (clock : Clock) (grant : ExpiringGrant) : Prop :=
  ∀ text, grant.expiresAt = some text → text ≠ "" →
    ∃ expiresAt, clock.dateParse text = some expiresAt ∧ clock.now < expiresAt

/-- A sensitive-read grant for that object on the target is in force. -/
def Granted (clock : Clock) (deps : Deps) (s : ReadStore) (ref : String) : Prop :=
  ∃ grant ∈ s.grants, grant.taskId = deps.taskId ∧ grant.kind = .sensitiveRead ∧
    grant.status = .active ∧ Unexpired clock grant ∧ grant.targetFingerprint = deps.hostFingerprint ∧
    grant.binding.lookup "subjectRef" = some (.str ref)

/-- The content of the object may leave: it is an object of the epoch, neither side denies its content, and
    both call it safe unless a grant covers it. -/
structure Covered (clock : Clock) (deps : Deps) (s : ReadStore) (ref : String) : Prop where
  object : ∃ row ∈ s.batch.factStore.refs.rows, row.ref = ref ∧ row.taskId = deps.taskId ∧
    row.epochId = deps.epochId ∧ row.namespace_ = .file
  controller_not_denied : controllerClass (pathOf (s.reported deps ref "path")) ≠ .deniedText
  helper_not_denied : helperClass (s.reported deps ref "contentClass") ≠ .deniedText
  safe_or_granted : controllerClass (pathOf (s.reported deps ref "path")) = .safeText ∧
      helperClass (s.reported deps ref "contentClass") = .safeText ∨ Granted clock deps s ref

theorem unexpired_of_isActive {grant : ExpiringGrant} (h : isActive clock grant = true) :
    grant.status = .active ∧ Unexpired clock grant := by
  obtain ⟨hstatus, hexpires⟩ := Bool.and_eq_true_iff.1 h
  refine ⟨of_decide_eq_true hstatus, fun text htext hne => ?_⟩
  rw [htext, Js.truthyText, Option.filter_some_pos (by simpa using hne), Option.all_some] at hexpires
  cases hparse : clock.dateParse text with
  | none =>
    rw [hparse] at hexpires
    cases hexpires
  | some expiresAt =>
    rw [hparse] at hexpires
    exact ⟨expiresAt, rfl, of_decide_eq_true hexpires⟩

theorem requireSensitiveGrant_ok (h : requireSensitiveGrant clock deps s ref = .ok ()) :
    Granted clock deps s ref := by
  obtain ⟨grant, hgrant, hcovers⟩ := List.any_eq_true.1 (require_ok.1 h)
  obtain ⟨hgrant, htask⟩ := List.mem_filter.1 hgrant
  simp only [coversRead, Bool.and_eq_true, decide_eq_true_eq] at hcovers
  obtain ⟨⟨⟨hkind, hactive⟩, htarget⟩, hsubject⟩ := hcovers
  obtain ⟨hstatus, hunexpired⟩ := unexpired_of_isActive hactive
  exact ⟨grant, hgrant, of_decide_eq_true htask, hkind, hstatus, hunexpired, htarget, hsubject⟩

theorem resolveObject_ok {binding : ObjectBinding}
    (h : resolveObject deps s ref (some .file) = .ok binding) :
    ∃ row ∈ s.batch.factStore.refs.rows, row.ref = ref ∧ row.taskId = deps.taskId ∧
      row.epochId = deps.epochId ∧ row.namespace_ = .file := by
  obtain ⟨row, hrow, -⟩ := bind_ok.1 h
  obtain ⟨hfound, hnamespace⟩ := Option.filter_eq_some_iff.1 (orThrow_ok.1 hrow)
  have hkey := List.find?_some hfound
  simp only [Bool.and_eq_true, decide_eq_true_eq] at hkey
  exact ⟨row, List.mem_of_find?_eq_some hfound, hkey.2, hkey.1.1, hkey.1.2,
    of_decide_eq_true hnamespace⟩

/-- An object that passes the gate is covered. -/
theorem gateContent_ok {binding : ObjectBinding} {denied : String}
    (hobject : resolveObject deps s ref (some .file) = .ok binding)
    (h : gateContent clock deps s ref denied = .ok ()) : Covered clock deps s ref := by
  obtain ⟨latest, hlatest, h⟩ := bind_ok.1 h
  obtain ⟨_, hclass, h⟩ := bind_ok.1 h
  have hdenied := effectiveContentClass_ne_denied (of_decide_eq_true (require_ok.1 hclass))
  rw [latestPrivateFact_ok hlatest, latestPrivateFact_ok hlatest] at hdenied h
  refine ⟨resolveObject_ok hobject, hdenied.1, hdenied.2, ?_⟩
  by_cases hsafe : effectiveContentClass (s.reported deps ref "path")
      (s.reported deps ref "contentClass") = .safeText
  · exact Or.inl (effectiveContentClass_eq_safe hsafe)
  · rw [if_pos hsafe] at h
    exact Or.inr (requireSensitiveGrant_ok h)

theorem mapM_ok {α β ε : Type} {f : α → Except ε β} {xs : List α} {ys : List β}
    (h : xs.mapM f = .ok ys) : ∀ x ∈ xs, ∃ y, f x = .ok y := by
  induction xs generalizing ys with
  | nil => exact fun x hx => absurd hx List.not_mem_nil
  | cons x xs ih =>
    rw [List.mapM_cons] at h
    obtain ⟨y, hy, h⟩ := bind_ok.1 h
    obtain ⟨ys', hys, -⟩ := bind_ok.1 h
    exact List.forall_mem_cons.2 ⟨⟨y, hy⟩, ih hys⟩

theorem matchObject_ok {binding : ObjectBinding} {denied : String}
    (h : matchObject clock deps s true denied ref = .ok binding) : Covered clock deps s ref := by
  obtain ⟨object, hobject, h⟩ := bind_ok.1 h
  obtain ⟨_, -, h⟩ := bind_ok.1 h
  obtain ⟨_, hgate, -⟩ := bind_ok.1 h
  exact gateContent_ok hobject hgate

theorem covered_of_mapM {params : MatchParams} {bindings : List ObjectBinding} {denied : String}
    (h : params.refs.mapM (matchObject clock deps s params.includeContext denied) = .ok bindings) :
    ∀ ref ∈ (ContentCall.match_ params).contentRefs, Covered clock deps s ref := by
  intro ref href
  cases hcontext : params.includeContext with
  | false =>
    rw [ContentCall.contentRefs, hcontext] at href
    exact absurd href List.not_mem_nil
  | true =>
    rw [ContentCall.contentRefs, hcontext] at href
    rw [hcontext] at h
    obtain ⟨binding, hbinding⟩ := mapM_ok h ref href
    exact matchObject_ok hbinding

/-- The counter has room for the bytes of the call, and they are booked on it alone. -/
structure Charged (deps : Deps) (call : ContentCall) (usage usage' : UsageStore) : Prop where
  fits : 0 < call.contentBytes →
    usage.used (contentCounter deps) + call.contentBytes ≤ usage.limit (contentCounter deps)
  booked : usage'.used (contentCounter deps) = usage.used (contentCounter deps) + call.contentBytes
  others : ∀ id, id ≠ contentCounter deps → usage'.used id = usage.used id
  bounded : usage.Bounded → usage'.Bounded

theorem Charged.used_le {call : ContentCall} {usage usage' : UsageStore}
    (h : Charged deps call usage usage') (id : CounterId) : usage.used id ≤ usage'.used id := by
  by_cases hid : id = contentCounter deps
  · rw [hid, h.booked]
    omega
  · exact Int.le_of_eq (h.others id hid).symm

theorem charged_of_consumeUsage {usage usage' : UsageStore} {call : ContentCall} {n : ℕ}
    (hbytes : call.contentBytes = n)
    (h : usage.consumeUsage (contentCounter deps) (some n) = .ok usage') :
    Charged deps call usage usage' := by
  obtain ⟨m, hm, -, hfits, hused⟩ := UsageStore.used_consumeUsage h
  have hn : m = n := by
    have hcast : (n : ℚ) = (m : ℚ) := Option.some.inj hm
    exact_mod_cast hcast.symm
  subst hn
  rw [hbytes.symm] at hfits hused
  exact ⟨fun _ => hfits, by rw [hused, if_pos rfl], fun id hid => by rw [hused, if_neg hid],
    fun hbounded => hbounded.consumeUsage h⟩

/-- What is built has passed the gate, and is charged. -/
theorem build_ok {call : ContentCall} {usage : UsageStore} {params : RequestParams}
    (h : build clock deps s call = .ok (usage, params)) :
    (∀ ref ∈ call.contentRefs, Covered clock deps s ref) ∧ Charged deps call s.usage usage := by
  cases call with
  | read_ params' =>
    obtain ⟨binding, hobject, h⟩ := bind_ok.1 h
    obtain ⟨_, -, h⟩ := bind_ok.1 h
    obtain ⟨_, hgate, h⟩ := bind_ok.1 h
    obtain ⟨usage', husage, h⟩ := bind_ok.1 h
    cases h
    refine ⟨fun ref href => ?_, charged_of_consumeUsage rfl husage⟩
    rw [List.mem_singleton.1 href]
    exact gateContent_ok hobject hgate
  | match_ params' =>
    obtain ⟨_, -, h⟩ := bind_ok.1 h
    obtain ⟨objects, hobjects, h⟩ := bind_ok.1 h
    obtain ⟨usage', husage, h⟩ := bind_ok.1 h
    cases h
    refine ⟨covered_of_mapM hobjects, ?_⟩
    cases hcontext : params'.includeContext with
    | true =>
      rw [chargeContexts, hcontext, if_pos rfl] at husage
      exact charged_of_consumeUsage (by rw [ContentCall.contentBytes, hcontext, if_pos rfl]) husage
    | false =>
      rw [chargeContexts, hcontext] at husage
      cases husage
      have hnone : (ContentCall.match_ params').contentBytes = 0 := by
        rw [ContentCall.contentBytes, hcontext]
        rfl
      exact ⟨fun hpos => absurd hpos (by rw [hnone]; exact Nat.lt_irrefl 0),
        by rw [hnone]; exact (Int.add_zero _).symm, fun id _ => rfl, id⟩

theorem validateProposed_ok {call : ContentCall} (h : validateProposed clock deps s call = .ok ()) :
    ∀ ref ∈ call.contentRefs, Covered clock deps s ref := by
  cases call with
  | read_ params =>
    obtain ⟨binding, hobject, h⟩ := bind_ok.1 h
    obtain ⟨_, -, hgate⟩ := bind_ok.1 h
    intro ref href
    rw [List.mem_singleton.1 href]
    exact gateContent_ok hobject hgate
  | match_ params =>
    obtain ⟨_, -, h⟩ := bind_ok.1 h
    obtain ⟨objects, hobjects, -⟩ := bind_ok.1 h
    exact covered_of_mapM hobjects

/-! ### One call -/

theorem send_usage (toolCallId reservationId : String) (call : ContentCall) (params : RequestParams) :
    (send c digestObject deps s toolCallId reservationId call params).1.usage = s.usage := by
  rw [send]
  split
  · rfl
  · split <;> rfl

/-- A call leaves the counters alone, or it was built, and leaves them charged. -/
theorem execute_usage (toolCallId reservationId : String) (call : ContentCall) :
    let result := execute clock c digestObject deps s toolCallId reservationId call
    result.1.usage = s.usage ∧ (∀ request, result.2 ≠ .ok (.sent request)) ∨
      ∃ params, build clock deps s call = .ok (result.1.usage, params) := by
  rw [execute]
  dsimp only
  split
  · exact Or.inl ⟨rfl, by rintro request h; cases h⟩
  · split
    · exact Or.inl ⟨rfl, by rintro request h; cases h⟩
    · cases hbuild : build clock deps s call with
      | error error => exact Or.inl ⟨rfl, by rintro request h; cases h⟩
      | ok built =>
        obtain ⟨usage, params⟩ := built
        refine Or.inr ⟨params, ?_⟩
        dsimp only
        rw [send_usage]

/-- A result that is given once more was kept by the tool run of the call, and nothing happens. -/
theorem execute_replayed {toolCallId reservationId : String} {call : ContentCall} {result : Json}
    (h : (execute clock c digestObject deps s toolCallId reservationId call).2 =
      .ok (.replayed result)) :
    (execute clock c digestObject deps s toolCallId reservationId call).1 = s ∧
      ∃ run ∈ s.batch.toolRuns.rows, run.toolCallId = toolCallId ∧ run.taskId = deps.taskId ∧
        run.epochId = some deps.epochId ∧ run.status = .succeeded ∧ run.result = some result := by
  rw [execute] at h ⊢
  split at h
  · rename_i stored hstored
    cases h
    refine ⟨rfl, ?_⟩
    obtain ⟨run, hrun, hresult⟩ := Option.bind_eq_some_iff.1 hstored
    obtain ⟨hscope, hstatus⟩ := Option.filter_eq_some_iff.1 hrun
    obtain ⟨hget, hbound⟩ := Option.filter_eq_some_iff.1 hscope
    obtain ⟨hmem, hid⟩ := Table.get?_eq_some.1 hget
    obtain ⟨htask, hepoch⟩ := of_decide_eq_true hbound
    exact ⟨run, hmem, hid, htask, hepoch, of_decide_eq_true hstatus,
      (Option.filter_eq_some_iff.1 hresult).1⟩
  · split at h
    · cases h
    · split at h
      · cases h
      · rw [send] at h
        dsimp only at h
        split at h
        · cases h
        · split at h <;> cases h

/-! ### Runs -/

inductive ReadOp where
  | call (clock : Clock) (deps : Deps) (toolCallId reservationId : String) (call : ContentCall)
  | initializeUsageCounter (id : CounterId) (limit : Option ℚ)
  | consumeUsage (id : CounterId) (amount : Option ℚ)
  /-- Evidence is the only thing that is refunded. -/
  | refundUsage (taskId epochId : String) (amount : Option ℚ)
  /-- Whatever else happens to facts, tool runs, grants and budgets. -/
  | write (batch : BatchStore) (grants : List ExpiringGrant) (budgets : BudgetStore)

def ReadStore.onUsage (s : ReadStore) (body : UsageStore → Except Thrown UsageStore) : ReadStore :=
  { s with usage := transact s.usage (body s.usage) }

section

variable (c digestObject)

def step (s : ReadStore) : ReadOp → ReadStore
  | .call clock deps toolCallId reservationId call =>
    (execute clock c digestObject deps s toolCallId reservationId call).1
  | .initializeUsageCounter id limit => s.onUsage (·.initializeUsageCounter id limit)
  | .consumeUsage id amount => s.onUsage (·.consumeUsage id amount)
  | .refundUsage taskId epochId amount => s.onUsage (·.refundUsage ⟨taskId, epochId, "EVIDENCE_BYTES"⟩ amount)
  | .write batch grants budgets => { s with batch, grants, budgets }

/-- A request that went out, with the stores before and after the call. -/
structure Sent where
  clock : Clock
  deps : Deps
  call : ContentCall
  request : ContentRequest
  before : ReadStore
  after : ReadStore

def sentBy (s : ReadStore) (op : ReadOp) : Option Sent :=
  match op with
  | .call clock deps toolCallId reservationId call =>
    match execute clock c digestObject deps s toolCallId reservationId call with
    | (after, .ok (.sent request)) => some ⟨clock, deps, call, request, s, after⟩
    | _ => none
  | _ => none

/-- A store whose counters have not been set up. -/
def ReadStore.fresh (batch : BatchStore) (grants : List ExpiringGrant) (budgets : BudgetStore) :
    ReadStore := ⟨batch, grants, .empty, budgets⟩

end

/-- The request was covered for every object whose content it asks for, and it was charged. -/
structure Sent.Admitted (sent : Sent) : Prop where
  covered : ∀ ref ∈ sent.call.contentRefs, Covered sent.clock sent.deps sent.before ref
  charged : Charged sent.deps sent.call sent.before.usage sent.after.usage

/-- The bytes for which requests were charged to the counter. -/
def contentTotal (id : CounterId) (log : List Sent) : ℤ :=
  (log.map fun sent => if contentCounter sent.deps = id then (sent.call.contentBytes : ℤ) else 0).sum

/-- Every request was admitted, and the counters cover what was asked for. -/
structure Accounted (s : ReadStore) (log : List Sent) : Prop where
  bounded : s.usage.Bounded
  admitted : ∀ sent ∈ log, sent.Admitted
  covers : ∀ deps, contentTotal (contentCounter deps) log ≤ s.usage.used (contentCounter deps)

theorem contentTotal_concat (id : CounterId) (log : List Sent) (entry : Option Sent) :
    contentTotal id (log ++ entry.toList) = contentTotal id log + contentTotal id entry.toList := by
  rw [contentTotal, contentTotal, contentTotal, List.map_append, List.sum_append]

theorem accounted_quiet {log : List Sent} (h : Accounted s log) (hbounded : s'.usage.Bounded)
    (hused : ∀ deps, s.usage.used (contentCounter deps) ≤ s'.usage.used (contentCounter deps)) :
    Accounted s' log :=
  ⟨hbounded, h.admitted, fun deps => (h.covers deps).trans (hused deps)⟩

theorem accounted_call {log : List Sent} (h : Accounted s log) (clock : Clock) (deps : Deps)
    (toolCallId reservationId : String) (call : ContentCall) :
    Accounted (step c digestObject s (.call clock deps toolCallId reservationId call))
      (log ++ (sentBy c digestObject s (.call clock deps toolCallId reservationId call)).toList) := by
  have hexecute := @execute_usage clock c digestObject deps s toolCallId reservationId call
  rw [step, sentBy]
  cases hresult : execute clock c digestObject deps s toolCallId reservationId call with
  | mk after outcome =>
    rw [hresult] at hexecute
    dsimp only at hexecute ⊢
    rcases hexecute with ⟨husage, hnone⟩ | ⟨params, hbuild⟩
    · have hquiet : Accounted after log :=
        accounted_quiet h (husage ▸ h.bounded) fun deps => Int.le_of_eq (by rw [husage])
      cases outcome with
      | error error => rwa [Option.toList_none, List.append_nil]
      | ok proceeded =>
        cases proceeded with
        | sent request => exact absurd rfl (hnone request)
        | replayed result => rwa [Option.toList_none, List.append_nil]
    · obtain ⟨hcovered, hcharged⟩ := build_ok hbuild
      have hquiet : Accounted after log := by
        refine accounted_quiet h (hcharged.bounded h.bounded) fun other => ?_
        exact hcharged.used_le _
      cases outcome with
      | error error => rwa [Option.toList_none, List.append_nil]
      | ok proceeded =>
        cases proceeded with
        | replayed result => rwa [Option.toList_none, List.append_nil]
        | sent request =>
          refine ⟨hquiet.bounded, fun entry hentry => ?_, fun other => ?_⟩
          · rcases List.mem_append.1 hentry with hentry | hentry
            · exact h.admitted entry hentry
            · rw [List.mem_singleton.1 hentry]
              exact ⟨hcovered, hcharged⟩
          · rw [contentTotal_concat, Option.toList_some, contentTotal, contentTotal,
              List.map_singleton, List.sum_singleton]
            by_cases hother : contentCounter deps = contentCounter other
            · rw [if_pos hother, ← hother, hcharged.booked]
              exact Int.add_le_add_right (hother ▸ h.covers other) _
            · rw [if_neg hother, hcharged.others _ (Ne.symm hother), Int.add_zero]
              exact h.covers other

/-- An operation on the counters that takes nothing from a content counter. -/
theorem accounted_onUsage {log : List Sent} (h : Accounted s log)
    {body : UsageStore → Except Thrown UsageStore}
    (hbody : ∀ usage, body s.usage = .ok usage → usage.Bounded ∧
      ∀ deps, s.usage.used (contentCounter deps) ≤ usage.used (contentCounter deps)) :
    Accounted (s.onUsage body) log := by
  have hquiet := transact_induction (P := fun usage : UsageStore => usage.Bounded ∧
    ∀ deps, s.usage.used (contentCounter deps) ≤ usage.used (contentCounter deps))
    ⟨h.bounded, fun deps => Int.le_refl _⟩ hbody
  exact accounted_quiet h hquiet.1 hquiet.2

/-- Every step admits what it sends and keeps the counters covering it. -/
theorem accounted_step {log : List Sent} (h : Accounted s log) (op : ReadOp) :
    Accounted (step c digestObject s op) (log ++ (sentBy c digestObject s op).toList) := by
  cases op with
  | call clock deps toolCallId reservationId call =>
    exact accounted_call h clock deps toolCallId reservationId call
  | initializeUsageCounter id limit =>
    refine (List.append_nil log).symm ▸ ?_
    show Accounted (s.onUsage (·.initializeUsageCounter id limit)) log
    refine accounted_onUsage h fun usage husage => ⟨h.bounded.initializeUsageCounter husage, fun deps => ?_⟩
    rw [UsageStore.used_initializeUsageCounter husage]
  | consumeUsage id amount =>
    refine (List.append_nil log).symm ▸ ?_
    show Accounted (s.onUsage (·.consumeUsage id amount)) log
    refine accounted_onUsage h fun usage husage => ⟨h.bounded.consumeUsage husage, fun deps => ?_⟩
    obtain ⟨n, -, hn, -, hused⟩ := UsageStore.used_consumeUsage husage
    rw [hused]
    split
    · rename_i hid
      rw [hid]
      omega
    · exact Int.le_refl _
  | refundUsage taskId epochId amount =>
    refine (List.append_nil log).symm ▸ ?_
    show Accounted (s.onUsage (·.refundUsage ⟨taskId, epochId, "EVIDENCE_BYTES"⟩ amount)) log
    refine accounted_onUsage h fun usage husage => ⟨h.bounded.refundUsage husage, fun deps => ?_⟩
    obtain ⟨n, -, -, hused⟩ := UsageStore.used_refundUsage husage
    rw [hused, if_neg]
    rw [contentCounter, CounterId.mk.injEq]
    exact fun hid => absurd hid.2.2 (by decide)
  | write batch grants budgets =>
    refine (List.append_nil log).symm ▸ ?_
    exact accounted_quiet h h.bounded fun deps => Int.le_refl _

theorem accounted_run (ops : List ReadOp) (batch : BatchStore) (grants : List ExpiringGrant)
    (budgets : BudgetStore) :
    Accounted (Runs.run (step c digestObject) (.fresh batch grants budgets) ops)
      (Runs.emitted (step c digestObject) (sentBy c digestObject) (.fresh batch grants budgets) ops) := by
  have hstart : Accounted (.fresh batch grants budgets) [] :=
    ⟨UsageStore.bounded_empty, fun _ h => absurd h List.not_mem_nil, fun _ => Int.le_refl 0⟩
  have hstep : ∀ (s : ReadStore × List Sent) (op : ReadOp), Accounted s.1 s.2 → True →
      Accounted (Runs.logged (step c digestObject) (sentBy c digestObject) s op).1
        (Runs.logged (step c digestObject) (sentBy c digestObject) s op).2 :=
    fun s op hs _ => accounted_step hs op
  have hrun := Runs.run_invariant hstep ops (.fresh batch grants budgets, []) hstart
    (Runs.along_true _ _)
  rwa [Runs.run_logged, List.nil_append] at hrun

/-- In every run, over whatever facts, grants and claims of the helper, the content of an object is asked for
    only as long as it is covered, and only for bytes that its counter is charged for and has room for; a
    proposal of such a call is accepted only where the call would be covered; and the class is the stricter of
    the two. A call that sends nothing gives at most a result that it had before. -/
theorem content_gated (c : Coercions) (digestObject : Json → String) (batch : BatchStore)
    (grants : List ExpiringGrant) (budgets : BudgetStore) (ops : List ReadOp) :
    (∀ sent ∈ Runs.emitted (step c digestObject) (sentBy c digestObject) (.fresh batch grants budgets) ops,
      sent.Admitted) ∧
    (∀ deps, let usage := (Runs.run (step c digestObject) (.fresh batch grants budgets) ops).usage
      contentTotal (contentCounter deps) (Runs.emitted (step c digestObject) (sentBy c digestObject)
        (.fresh batch grants budgets) ops) ≤ usage.used (contentCounter deps) ∧
      usage.used (contentCounter deps) ≤ usage.limit (contentCounter deps)) ∧
    (∀ clock deps s call, validateProposed clock deps s call = .ok () →
      ∀ ref ∈ call.contentRefs, Covered clock deps s ref) ∧
    (∀ clock deps s toolCallId reservationId call result,
      (execute clock c digestObject deps s toolCallId reservationId call).2 = .ok (.replayed result) →
      ∃ run ∈ s.batch.toolRuns.rows, run.toolCallId = toolCallId ∧ run.taskId = deps.taskId ∧
        run.epochId = some deps.epochId ∧ run.status = .succeeded ∧ run.result = some result) ∧
    ∀ pathValue helperValue, rank (effectiveContentClass pathValue helperValue) =
      max (rank (controllerClass (pathOf pathValue))) (rank (helperClass helperValue)) := by
  have hrun := @accounted_run c digestObject ops batch grants budgets
  refine ⟨hrun.admitted, fun deps => ⟨hrun.covers deps, (hrun.bounded.used_le _).2⟩,
    fun clock deps s call h => validateProposed_ok h, ?_, rank_effectiveContentClass⟩
  intro clock deps s toolCallId reservationId call result h
  exact (execute_replayed h).2

/-! ### Two reads of a page -/

def sampleDeps : Deps where
  taskId := "TASK-1"
  epochId := "EPOCH-1"
  hostFingerprint := "host-1"
  capabilities := {
    namespaces := [("file", ⟨["path"], [], ["read"]⟩)]
    matchers := []
    probes := []
    verbs := ["read"]
    limits := ⟨1, 1, 1, 1⟩
    protocolAnomalies := [] }
  budgetOwner := .model

/-- A page under the web root. -/
def samplePage : FactRecord where
  factId := "FACT-1"
  factSeq := 1
  taskId := "TASK-1"
  epochId := "EPOCH-1"
  namespace_ := .file
  subjectRef := "OBJ-1"
  observedAt := "2026-01-01T00:00:00Z"
  sourceRunId := "call-0"
  source := { kind := .model }
  collector := ⟨"huntwarden-helper", "2"⟩
  consistency := .objectStable
  completeness := .complete
  gaps := []
  privatePayload := [("path", .str "/var/www/a.php"), ("contentClass", .str "SENSITIVE_TEXT")]
  modelPayload := []
  redactedFields := []
  unavailableFields := []
  payloadDigest := "payload"
  provenance := ⟨"host-1", "REQ-1", "wire", "identity"⟩

def sampleBatch : BatchStore :=
  { BatchStore.empty with factStore := { FactStore.empty with
      refs := .insertOrIgnore .empty ⟨"OBJ-1", "TASK-1", "EPOCH-1", .file, "identity", [("inode", .str "2")], ""⟩
      facts := .insertOrIgnore .empty samplePage } }

/-- A grant of the category, and one for reading the page. -/
def sampleGrants : List ExpiringGrant :=
  [{ grantId := "GRANT-1", taskId := "TASK-1", targetFingerprint := "host-1", kind := .category,
     status := .active, binding := [("category", .str "webshell")], createdAt := 0 },
    { grantId := "GRANT-2", taskId := "TASK-1", targetFingerprint := "host-1", kind := .sensitiveRead,
      status := .active, binding := [("subjectRef", .str "OBJ-1")], createdAt := 0 }]

/-- A read of sixty bytes. -/
def sampleRead (toolCallId reservationId : String) : ReadOp :=
  .call ⟨fun _ => none, 0⟩ sampleDeps toolCallId reservationId (.read_ ⟨"OBJ-1", 0, 60, "utf8", "review"⟩)

/-- Of the two reads a counter of a hundred bytes lets one go out. -/
example : ((Runs.emitted (step Js.plainCoercions fun _ => "") (sentBy Js.plainCoercions fun _ => "")
    (.fresh sampleBatch sampleGrants (initializeBudget .empty sampleAccount sampleLimits.cost))
    [.initializeUsageCounter (contentCounter sampleDeps) (some 100), sampleRead "call-1" "BRES-1",
      sampleRead "call-2" "BRES-2"]).map (·.request.requestId)) = ["call-1"] := by
  decide +kernel

end HuntWarden.ReadGate
