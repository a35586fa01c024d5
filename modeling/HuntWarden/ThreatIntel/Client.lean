import HuntWarden.ThreatIntel.Verdict
import HuntWarden.ThreatIntel.NetworkIoc
import HuntWarden.Lib.OrderedMap
import HuntWarden.Lib.Runs

/-! The client's calls. A call is cut in two by the provider's reply: what it starts with is read out of the
    cache, what it asks for is written into the cache when the reply is there, and other calls may start and
    end in between. Whatever the provider replies, an answer lists the indicators that were asked about, each
    with a verdict out of the reply of this very call or out of an earlier one that had not expired. -/

namespace HuntWarden.ThreatIntel

variable (t : TextRules)

structure Config where
  baseUrl : String
  maxBatchSize : ℕ
  cacheTtlSeconds : ℕ

/-- The two paths of the provider's interface. -/
inductive Endpoint where
  | compromiseDetection
  | batchFileInfo
  deriving DecidableEq

def Endpoint.path : Endpoint → String
  | .compromiseDetection => "compromise-detection"
  | .batchFileInfo => "batch/file-basic-info"

def Endpoint.typeFor (e : Endpoint) (ioc : String) : IocType :=
  match e with
  | .compromiseDetection => if NetworkIoc.isIP ioc.toList ≠ 0 then .ip else .domain
  | .batchFileInfo => .file

/-! ### What may be asked -/

def isAlphanumeric (ch : Char) : Bool :=
  ('A' ≤ ch && ch ≤ 'Z') || ('a' ≤ ch && ch ≤ 'z') || ('0' ≤ ch && ch ≤ '9')

/-- `/^[A-Za-z0-9](?:[A-Za-z0-9-]{0,61}[A-Za-z0-9])?$/` -/
def isLabel (label : List Char) : Bool :=
  1 ≤ label.length && label.length ≤ 63 && (label.head?.map isAlphanumeric).getD false &&
    (label.getLast?.map isAlphanumeric).getD false && label.all fun ch => isAlphanumeric ch || ch = '-'

def validDomain (value : String) : Bool :=
  !(decide ((Js.codeUnits value).length > 253) || value.toList.getLast? = some '.' || value.toList.any Js.isSpace) &&
    decide (2 ≤ (value.toList.splitOn '.').length) && (value.toList.splitOn '.').all isLabel

/-- `/^(?:[a-f0-9]{32}|[a-f0-9]{40}|[a-f0-9]{64})$/` -/
def isFileHash (value : String) : Bool :=
  [32, 40, 64].contains value.toList.length &&
    value.toList.all fun ch => ('a' ≤ ch && ch ≤ 'f') || ('0' ≤ ch && ch ≤ '9')

def Endpoint.accepts (e : Endpoint) (ioc : String) : Bool :=
  match e with
  | .compromiseDetection => NetworkIoc.isIP ioc.toList ≠ 0 || validDomain ioc
  | .batchFileInfo => isFileHash ioc

def Endpoint.refusal : Endpoint → String
  | .compromiseDetection => "威胁情报 IOC 仅允许有效 IP 或域名"
  | .batchFileInfo => "威胁情报文件 IOC 仅允许 MD5、SHA1 或 SHA256"

/-- `[...new Set(iocs.map((ioc) => ioc.trim().toLowerCase()))]` -/
def normalized (iocs : List String) : List String :=
  Js.distinct (iocs.map fun ioc => t.toLowerCase (Js.trim ioc))

/-- `/^nti-\S{8,}$/`, after trimming. -/
def isKey (key : Option String) : Bool :=
  match key.map Js.trim with
  | none => false
  | some key =>
    "nti-".toList.isPrefixOf key.toList && decide (8 ≤ (Js.codeUnits key).length - 4) &&
      (key.toList.drop 4).all fun ch => !Js.isSpace ch

/-! ### The reply -/

structure Response where
  status : ℕ
  bytes : ℕ
  /-- The parsed text; nothing where it is not JSON. -/
  body : Option Json

/-- The fetch was stopped or failed, with the error that the call throws; or there is a response. -/
inductive Reply where
  | failed (error : Units)
  | response (response : Response)

def maxResponseBytes : ℕ := 1024 * 1024

/-- `envelope.code !== 0 && envelope.code !== 200 && envelope.code !== undefined` -/
def isFailure (code : Option Json) : Bool := code ≠ none && code ≠ some (.num 0) && code ≠ some (.num 200)

/-- `String(envelope.message ?? envelope.code)` -/
def failureText (envelope : Row) : String :=
  ((((envelope.lookup "message").filter (· ≠ .null)).or (envelope.lookup "code")).map t.text).getD "undefined"

/-- The rows of a reply. -/
def readReply : Reply → Except Units (List Row)
  | .failed error => .error error
  | .response r =>
    if r.status = 401 ∨ r.status = 403 then .error (Js.codeUnits "安恒威胁情报 API Key 无效或权限不足")
    else if r.status = 429 then .error (Js.codeUnits "安恒威胁情报查询额度或速率已达上限")
    else if ¬(200 ≤ r.status ∧ r.status < 300) then
      .error (Js.codeUnits ("安恒威胁情报服务返回 HTTP " ++ toString r.status))
    else if r.bytes > maxResponseBytes then .error (Js.codeUnits "安恒威胁情报响应超过 1 MiB 安全上限")
    else match r.body with
      | none => .error (Js.codeUnits "安恒威胁情报响应不是有效 JSON")
      | some body =>
        let envelope := (record (some body)).getD []
        if isFailure (envelope.lookup "code") then
          .error (Js.codeUnits "安恒威胁情报查询失败: " ++ slice (failureText t envelope) 256)
        else .ok (rowsFrom (envelope.lookup "data"))

/-! ### The client -/

structure CacheEntry where
  expiresAt : ℕ
  verdict : Verdict

/-- What a call is about, and what it found in the cache when it started. -/
structure Request where
  endpoint : Endpoint
  iocs : List String
  cached : List Verdict
  missing : List String
  startedAt : ℕ

inductive Call where
  | waiting (request : Request)
  | answered (request : Request) (rows : List Row) (verdicts : List Verdict) (warnings : List String)
  | thrown (error : Units)

/-- A verdict that was read out of a reply at some time: a record of the run, which the program keeps only
    until it expires. -/
structure Receipt where
  endpoint : Endpoint
  rows : List Row
  ioc : String
  receivedAt : ℕ

def Receipt.verdict (r : Receipt) : Verdict :=
  normalizeVerdict t r.ioc (r.endpoint.typeFor r.ioc) (rowFor t r.rows r.ioc)

structure Client where
  cache : List (String × CacheEntry)
  calls : ℕ → Option Call
  received : List Receipt

def Client.initial : Client := ⟨[], fun _ => none, []⟩

/-- `${path}:${ioc}` -/
def cacheKey (e : Endpoint) (ioc : String) : String := e.path ++ ":" ++ ioc

/-- `entry && entry.expiresAt >= now` -/
def Client.fresh? (s : Client) (e : Endpoint) (now : ℕ) (ioc : String) : Option Verdict :=
  ((s.cache.lookup (cacheKey e ioc)).filter fun entry => now ≤ entry.expiresAt).map fun entry =>
    { entry.verdict with cached := true }

def Client.setCall (s : Client) (id : ℕ) (call : Call) : Client :=
  { s with calls := Function.update s.calls id (some call) }

def Client.throw (s : Client) (id : ℕ) (message : String) : Client := s.setCall id (.thrown (Js.codeUnits message))

def Client.request (s : Client) (e : Endpoint) (iocs : List String) (now : ℕ) : Request :=
  ⟨e, iocs, iocs.filterMap (s.fresh? e now), iocs.filter fun ioc => (s.fresh? e now ioc).isNone, now⟩

variable (config : Config)

/-- `compromiseDetection` and `batchFileInfo`, until the request is sent. -/
def Client.start (s : Client) (id : ℕ) (e : Endpoint) (iocs : List String) (key : Option String) (now : ℕ) :
    Client :=
  let asked := normalized t iocs
  let request := s.request e asked now
  if asked.any fun ioc => !e.accepts ioc then s.throw id e.refusal
  else if asked.length < 1 ∨ config.maxBatchSize < asked.length then
    s.throw id ("单次威胁情报查询必须为 1 到 " ++ toString config.maxBatchSize ++ " 个 IOC")
  else if request.missing = [] then s.setCall id (.answered request [] request.cached [])
  else if !isKey key then s.throw id "安恒威胁情报 API Key 未配置或格式无效"
  else match t.url e.path config.baseUrl with
    | none => s.throw id "Invalid URL"
    | some (protocol, hostname) =>
      if protocol ≠ "https:" ∨ hostname ≠ "ti.dbappsecurity.com.cn" then
        s.throw id "安恒威胁情报端点必须使用官方 HTTPS 域名"
      else s.setCall id (.waiting request)

def Request.freshVerdicts (r : Request) (rows : List Row) : List Verdict :=
  r.missing.map fun ioc => normalizeVerdict t ioc (r.endpoint.typeFor ioc) (rowFor t rows ioc)

/-- `cached.find((item) => item.ioc === ioc) ?? fresh.find((item) => item.ioc === ioc)` -/
def Request.verdictFor (r : Request) (rows : List Row) (ioc : String) : Option Verdict :=
  (r.cached.find? fun item => item.ioc = ioc).or ((r.freshVerdicts t rows).find? fun item => item.ioc = ioc)

def warning (v : Verdict) : Option String :=
  if v.malicious = none ∧ v.riskLevel = .unknown then some (v.ioc ++ ": 情报库未返回明确判定") else none

def remember (e : Endpoint) (expiresAt : ℕ) (cache : List (String × CacheEntry)) (v : Verdict) :
    List (String × CacheEntry) :=
  OrderedMap.upsert (cacheKey e v.ioc) (fun _ => ⟨expiresAt, v⟩) cache

/-- The rest of the call, once the reply is there. -/
def Client.reply (s : Client) (id : ℕ) (reply : Reply) (now : ℕ) : Client :=
  match s.calls id with
  | some (.waiting request) =>
    match readReply t reply with
    | .error error => s.setCall id (.thrown error)
    | .ok rows =>
      let fresh := request.freshVerdicts t rows
      { cache := fresh.foldl (remember request.endpoint (now + config.cacheTtlSeconds * 1000)) s.cache
        calls := Function.update s.calls id (some (.answered request rows
          (request.iocs.filterMap (request.verdictFor t rows)) (fresh.filterMap warning)))
        received := s.received ++ request.missing.map fun ioc => ⟨request.endpoint, rows, ioc, now⟩ }
  | _ => s

inductive Event where
  | start (id : ℕ) (endpoint : Endpoint) (iocs : List String) (key : Option String) (now : ℕ)
  | reply (id : ℕ) (reply : Reply) (now : ℕ)

def step (s : Client) : Event → Client
  | .start id e iocs key now => if (s.calls id).isNone then s.start t config id e iocs key now else s
  | .reply id reply now => s.reply t config id reply now

/-! ### The cache -/

/-- A verdict out of an earlier reply to the same endpoint that had not expired. -/
def Known (s : Client) (e : Endpoint) (now : ℕ) (v : Verdict) : Prop :=
  ∃ r ∈ s.received, r.endpoint = e ∧ v = { r.verdict t with cached := true } ∧
    now ≤ r.receivedAt + config.cacheTtlSeconds * 1000

/-- Every entry of the cache came out of a reply, and expires after its time. -/
def Backed (s : Client) : Prop :=
  ∀ key entry, s.cache.lookup key = some entry → ∃ r ∈ s.received, key = cacheKey r.endpoint r.ioc ∧
    entry.verdict = r.verdict t ∧ entry.expiresAt = r.receivedAt + config.cacheTtlSeconds * 1000

variable {t config} {s : Client} {e e' : Endpoint} {ioc ioc' : String} {now : ℕ} {v : Verdict}

theorem append_left_injective {a b c : String} (h : a ++ b = a ++ c) : b = c := by
  have hlists := congrArg String.toList h
  rw [String.toList_append, String.toList_append] at hlists
  exact String.toList_injective (List.append_cancel_left hlists)

/-- The first letter of a key tells the endpoint. -/
theorem head_cacheKey (e : Endpoint) (ioc : String) :
    (cacheKey e ioc).toList.head? = some (match e with | .compromiseDetection => 'c' | .batchFileInfo => 'b') := by
  rw [cacheKey, String.toList_append, String.toList_append]
  cases e <;> rfl

theorem cacheKey_injective (h : cacheKey e ioc = cacheKey e' ioc') : e = e' ∧ ioc = ioc' := by
  have hhead : e = e' := by
    have heads := congrArg (fun key : String => key.toList.head?) h
    rw [head_cacheKey, head_cacheKey] at heads
    cases e <;> cases e' <;> first | rfl | exact absurd heads (by decide)
  subst hhead
  exact ⟨rfl, append_left_injective h⟩

theorem known_of_fresh (hbacked : Backed t config s) (h : s.fresh? e now ioc = some v) :
    v.ioc = ioc ∧ Known t config s e now v := by
  obtain ⟨entry, hentry, rfl⟩ := Option.map_eq_some_iff.1 h
  obtain ⟨hlookup, htime⟩ := Option.filter_eq_some_iff.1 hentry
  obtain ⟨r, hr, hkey, hverdict, hexpires⟩ := hbacked _ _ hlookup
  obtain ⟨rfl, rfl⟩ := cacheKey_injective hkey
  refine ⟨by rw [hverdict]; rfl, r, hr, rfl, by rw [hverdict], ?_⟩
  rw [← hexpires]
  exact of_decide_eq_true htime

theorem lookup_remembered (e : Endpoint) (expiresAt : ℕ) (cache : List (String × CacheEntry)) (verdicts : List Verdict)
    {key : String} {entry : CacheEntry} (h : (verdicts.foldl (remember e expiresAt) cache).lookup key = some entry) :
    cache.lookup key = some entry ∨ ∃ v ∈ verdicts, key = cacheKey e v.ioc ∧ entry = ⟨expiresAt, v⟩ := by
  induction verdicts generalizing cache with
  | nil => exact .inl h
  | cons v rest ih =>
    rw [List.foldl_cons] at h
    rcases ih _ h with hcache | ⟨v', hv', hkey⟩
    · rw [remember, OrderedMap.lookup_upsert] at hcache
      split at hcache
      · rename_i hkey
        exact .inr ⟨v, List.mem_cons_self, hkey, (Option.some.inj hcache).symm⟩
      · exact .inl hcache
    · exact .inr ⟨v', List.mem_cons_of_mem _ hv', hkey⟩

/-! ### One call -/

variable (t config)

/-- A request whose cached verdicts are known and whose other indicators are asked for. -/
structure Request.Sound (s : Client) (r : Request) : Prop where
  distinct : r.iocs.Nodup
  size : 1 ≤ r.iocs.length ∧ r.iocs.length ≤ config.maxBatchSize
  allowed : ∀ ioc ∈ r.iocs, r.endpoint.accepts ioc = true
  cached : ∀ v ∈ r.cached, Known t config s r.endpoint r.startedAt v
  covered : ∀ ioc ∈ r.iocs, ioc ∈ r.missing ∨ ∃ v ∈ r.cached, v.ioc = ioc

/-- An answer lists the indicators in the order they were asked about. Each verdict is read out of the row of
    this reply that names the indicator, or was read out of the row of an earlier one and had not expired in the
    state `s`, in which the call began. -/
structure Honest (s : Client) (r : Request) (rows : List Row) (verdicts : List Verdict) : Prop where
  iocs : verdicts.map Verdict.ioc = r.iocs
  distinct : r.iocs.Nodup
  size : 1 ≤ r.iocs.length ∧ r.iocs.length ≤ config.maxBatchSize
  allowed : ∀ ioc ∈ r.iocs, r.endpoint.accepts ioc = true
  source : ∀ v ∈ verdicts,
    v.ioc ∈ r.missing ∧ v = normalizeVerdict t v.ioc (r.endpoint.typeFor v.ioc) (rowFor t rows v.ioc) ∨
      Known t config s r.endpoint r.startedAt v
  bounded : ∀ v ∈ verdicts, Bounded v

variable {t config} {r : Request} {rows : List Row}

theorem Known.bounded (h : Known t config s e now v) : Bounded v := by
  obtain ⟨r, -, -, rfl, -⟩ := h
  have hbound := bounded_normalizeVerdict (t := t) r.ioc (r.endpoint.typeFor r.ioc) (rowFor t r.rows r.ioc)
  exact ⟨hbound.confidence, hbound.threatTypes, hbound.hackerGroups, hbound.attackEvents,
    hbound.malwareFamilies, hbound.description⟩

theorem sound_request (hbacked : Backed t config s) {iocs : List String} (hdistinct : iocs.Nodup)
    (hsize : 1 ≤ iocs.length ∧ iocs.length ≤ config.maxBatchSize)
    (hallowed : ∀ ioc ∈ iocs, e.accepts ioc = true) : (s.request e iocs now).Sound t config s where
  distinct := hdistinct
  size := hsize
  allowed := hallowed
  cached v hv := by
    obtain ⟨ioc, -, hfresh⟩ := List.mem_filterMap.1 hv
    exact (known_of_fresh hbacked hfresh).2
  covered ioc hioc := by
    cases hfresh : s.fresh? e now ioc with
    | none => exact .inl (List.mem_filter.2 ⟨hioc, by rw [hfresh]; rfl⟩)
    | some v =>
      exact .inr ⟨v, List.mem_filterMap.2 ⟨ioc, hioc, hfresh⟩, (known_of_fresh hbacked hfresh).1⟩

/-- Every indicator has its verdict, in the cache or in the reply. -/
theorem verdictFor_spec (rows : List Row) (hsound : r.Sound t config s) {ioc : String} (hioc : ioc ∈ r.iocs) :
    ∃ v, r.verdictFor t rows ioc = some v ∧ v.ioc = ioc ∧
      (ioc ∈ r.missing ∧ v = normalizeVerdict t ioc (r.endpoint.typeFor ioc) (rowFor t rows ioc) ∨
        Known t config s r.endpoint r.startedAt v) := by
  cases hcached : r.cached.find? fun item => item.ioc = ioc with
  | some v =>
    have hv := List.mem_of_find?_eq_some hcached
    refine ⟨v, by rw [Request.verdictFor, hcached]; rfl, by simpa using List.find?_some hcached, .inr ?_⟩
    exact hsound.cached v hv
  | none =>
    have hmissing : ioc ∈ r.missing := (hsound.covered ioc hioc).resolve_right fun ⟨v, hv, hname⟩ => by
      simpa [hname] using List.find?_eq_none.1 hcached v hv
    have hfresh := List.mem_map_of_mem (f := fun ioc =>
      normalizeVerdict t ioc (r.endpoint.typeFor ioc) (rowFor t rows ioc)) hmissing
    cases hfind : (r.freshVerdicts t rows).find? fun item => item.ioc = ioc with
    | none => exact absurd (List.find?_eq_none.1 hfind _ hfresh) (by simp [normalizeVerdict])
    | some v =>
      obtain ⟨ioc', -, rfl⟩ := List.mem_map.1 (List.mem_of_find?_eq_some hfind)
      have hname : ioc' = ioc := by simpa [normalizeVerdict] using List.find?_some hfind
      subst hname
      exact ⟨_, by rw [Request.verdictFor, hcached, hfind]; rfl, rfl, .inl ⟨hmissing, rfl⟩⟩

theorem map_verdictFor (hsound : r.Sound t config s) {iocs : List String} (hsub : ∀ ioc ∈ iocs, ioc ∈ r.iocs) :
    (iocs.filterMap (r.verdictFor t rows)).map Verdict.ioc = iocs := by
  induction iocs with
  | nil => rfl
  | cons ioc rest ih =>
    obtain ⟨v, hv, hname, -⟩ := verdictFor_spec rows hsound (hsub ioc List.mem_cons_self)
    rw [List.filterMap_cons, hv, List.map_cons, hname, ih fun x hx => hsub x (List.mem_cons_of_mem _ hx)]

theorem honest_reply (hsound : r.Sound t config s) :
    Honest t config s r rows (r.iocs.filterMap (r.verdictFor t rows)) where
  iocs := map_verdictFor hsound fun _ h => h
  distinct := hsound.distinct
  size := hsound.size
  allowed := hsound.allowed
  source v hv := by
    obtain ⟨ioc, hioc, hfor⟩ := List.mem_filterMap.1 hv
    obtain ⟨v', hv', hname, hsource⟩ := verdictFor_spec rows hsound hioc
    rw [hfor, Option.some.injEq] at hv'
    subst hv'
    rwa [hname]
  bounded v hv := by
    obtain ⟨ioc, hioc, hfor⟩ := List.mem_filterMap.1 hv
    obtain ⟨v', hv', -, hsource⟩ := verdictFor_spec rows hsound hioc
    rw [hfor, Option.some.injEq] at hv'
    subst hv'
    rcases hsource with ⟨-, rfl⟩ | hknown
    · exact bounded_normalizeVerdict _ _ _
    · exact hknown.bounded

/-- Where nothing is missing, the cached verdicts are the answer. -/
theorem honest_cached (hbacked : Backed t config s) {iocs : List String}
    (hsound : (s.request e iocs now).Sound t config s) (hmissing : (s.request e iocs now).missing = []) :
    Honest t config s (s.request e iocs now) [] (s.request e iocs now).cached where
  iocs := by
    have hall : ∀ ioc ∈ iocs, ∃ v, s.fresh? e now ioc = some v := fun ioc hioc => by
      have hsome := List.filter_eq_nil_iff.1 hmissing ioc hioc
      rw [Option.isNone_iff_eq_none] at hsome
      exact Option.ne_none_iff_exists'.1 hsome
    clear hsound hmissing
    induction iocs with
    | nil => rfl
    | cons ioc rest ih =>
      obtain ⟨v, hv⟩ := hall ioc List.mem_cons_self
      have hrest := ih fun x hx => hall x (List.mem_cons_of_mem _ hx)
      dsimp only [Client.request] at hrest ⊢
      rw [List.filterMap_cons, hv, List.map_cons, (known_of_fresh hbacked hv).1, hrest]
  distinct := hsound.distinct
  size := hsound.size
  allowed := hsound.allowed
  source v hv := .inr (hsound.cached v hv)
  bounded v hv := (hsound.cached v hv).bounded

/-! ### Runs -/

variable (t config)

/-- The client after the events. -/
def after (events : List Event) : Client := Runs.run (step t config) .initial events

/-- In a run the call `id` began with this request: the indicators of its event, looked up in the cache that the
    events before it had left. -/
structure Began (events : List Event) (id : ℕ) (r : Request) (before later : List Event) : Prop where
  unused : (after t config before).calls id = none
  asked : ∃ iocs key, events = before ++ .start id r.endpoint iocs key r.startedAt :: later ∧
    r = (after t config before).request r.endpoint (normalized t iocs) r.startedAt
  sound : r.Sound t config (after t config before)

def Unanswered (id : ℕ) (events : List Event) : Prop := ∀ reply now, Event.reply id reply now ∉ events

/-- The first reply to the call came at this time, with these rows. -/
def Told (id : ℕ) (rows : List Row) (now : ℕ) (events : List Event) : Prop :=
  ∃ waited reply rest, events = waited ++ .reply id reply now :: rest ∧ Unanswered id waited ∧
    readReply t reply = .ok rows

/-- The call was answered honestly, out of the first reply to it or wholly out of the cache. -/
def Answered (events : List Event) (id : ℕ) (r : Request) (rows : List Row) (verdicts : List Verdict) : Prop :=
  ∃ before later, Began t config events id r before later ∧
    (r.missing = [] ∧ rows = [] ∨ ∃ now, Told t id rows now later) ∧
    Honest t config (after t config before) r rows verdicts

/-- The receipt is of a reply in the run, to a call that asked about its indicator. -/
def Delivered (events : List Event) (receipt : Receipt) : Prop :=
  ∃ id r before later, Began t config events id r before later ∧ receipt.endpoint = r.endpoint ∧
    receipt.ioc ∈ r.missing ∧ Told t id receipt.rows receipt.receivedAt later

/-- What is known of the calls at any time. -/
def CallSound (events : List Event) (id : ℕ) : Call → Prop
  | .waiting r => ∃ before later, Began t config events id r before later ∧ Unanswered id later
  | .answered r rows verdicts _ => Answered t config events id r rows verdicts
  | .thrown _ => True

structure Inv (events : List Event) : Prop where
  backed : Backed t config (after t config events)
  calls : ∀ id call, (after t config events).calls id = some call → CallSound t config events id call
  receipts : ∀ receipt ∈ (after t config events).received, Delivered t config events receipt

/-- Every answer that a client has given is honest, and what its cache was filled with was delivered. -/
structure AnswersHonest (events : List Event) : Prop where
  answers : ∀ id r rows verdicts warnings,
    (after t config events).calls id = some (.answered r rows verdicts warnings) →
      Answered t config events id r rows verdicts
  receipts : ∀ receipt ∈ (after t config events).received, Delivered t config events receipt

variable {t config} {events before later : List Event} {event : Event} {id : ℕ} {call : Call}

theorem after_append_singleton :
    after t config (events ++ [event]) = step t config (after t config events) event := by
  rw [after, Runs.run_append]
  rfl

theorem Began.append (h : Began t config events id r before later) :
    Began t config (events ++ [event]) id r before (later ++ [event]) := by
  obtain ⟨iocs, key, rfl, hr⟩ := h.asked
  exact { h with asked := ⟨iocs, key, by simp, hr⟩ }

theorem Unanswered.append (h : Unanswered id later) (hevent : ∀ reply now, event ≠ .reply id reply now) :
    Unanswered id (later ++ [event]) := by
  intro reply now hmem
  rcases List.mem_append.1 hmem with hold | hnew
  · exact h reply now hold
  · exact hevent reply now (List.mem_singleton.1 hnew).symm

theorem Told.append (h : Told t id rows now later) : Told t id rows now (later ++ [event]) := by
  obtain ⟨waited, reply, rest, rfl, hfirst, hread⟩ := h
  exact ⟨waited, reply, rest ++ [event], by simp, hfirst, hread⟩

theorem Delivered.append {receipt : Receipt} (h : Delivered t config events receipt) :
    Delivered t config (events ++ [event]) receipt := by
  obtain ⟨id, r, before, later, hbegan, hendpoint, hioc, htold⟩ := h
  exact ⟨id, r, before, later ++ [event], hbegan.append, hendpoint, hioc, htold.append⟩

/-- Only a reply to a waiting call changes what is known of a call. -/
theorem CallSound.append (h : CallSound t config events id call)
    (hevent : ∀ r, call = .waiting r → ∀ reply now, event ≠ .reply id reply now) :
    CallSound t config (events ++ [event]) id call := by
  cases call with
  | waiting r =>
    obtain ⟨before, later, hbegan, hwaits⟩ := h
    exact ⟨before, later ++ [event], hbegan.append, hwaits.append (hevent r rfl)⟩
  | answered r rows verdicts warnings =>
    obtain ⟨before, later, hbegan, htold, hhonest⟩ := h
    refine ⟨before, later ++ [event], hbegan.append, ?_, hhonest⟩
    exact htold.imp_right fun ⟨now, h⟩ => ⟨now, h.append⟩
  | thrown error => trivial

/-- An event of a call that only sets that call. -/
theorem Inv.setCall (h : Inv t config events)
    (hstep : after t config (events ++ [event]) = (after t config events).setCall id call)
    (hevent : ∀ id' ≠ id, ∀ reply now, event ≠ .reply id' reply now)
    (hcall : CallSound t config (events ++ [event]) id call) : Inv t config (events ++ [event]) where
  backed := by
    rw [hstep]
    exact h.backed
  calls id' call' h' := by
    rw [hstep, Client.setCall] at h'
    dsimp only at h'
    by_cases hid : id' = id
    · subst hid
      rw [Function.update_self, Option.some.injEq] at h'
      exact h' ▸ hcall
    · rw [Function.update_of_ne hid] at h'
      exact (h.calls id' call' h').append fun _ _ => hevent id' hid
  receipts receipt hreceipt := by
    rw [hstep] at hreceipt
    exact (h.receipts receipt hreceipt).append

/-- An event that leaves the client as it is. -/
theorem Inv.idle (h : Inv t config events) (hstep : after t config (events ++ [event]) = after t config events)
    (hevent : ∀ id r, (after t config events).calls id = some (.waiting r) →
      ∀ reply now, event ≠ .reply id reply now) : Inv t config (events ++ [event]) where
  backed := hstep ▸ h.backed
  calls id call hcall := by
    rw [hstep] at hcall
    exact (h.calls id call hcall).append fun r hr => hevent id r (hr ▸ hcall)
  receipts receipt hreceipt := by
    rw [hstep] at hreceipt
    exact (h.receipts receipt hreceipt).append

theorem Inv.start {iocs : List String} {key : Option String} (h : Inv t config events)
    (hunused : (after t config events).calls id = none) : Inv t config (events ++ [.start id e iocs key now]) := by
  have hevent : ∀ id' ≠ id, ∀ reply now', Event.start id e iocs key now ≠ .reply id' reply now' :=
    fun _ _ _ _ => nofun
  have hstep : after t config (events ++ [.start id e iocs key now]) =
      (after t config events).start t config id e iocs key now := by
    rw [after_append_singleton, step, if_pos (by rw [hunused]; rfl)]
  rw [Client.start] at hstep
  split at hstep
  · exact h.setCall hstep hevent trivial
  · rename_i hallowed
    split at hstep
    · exact h.setCall hstep hevent trivial
    · rename_i hsize
      have hsound : ((after t config events).request e (normalized t iocs) now).Sound t config
          (after t config events) := by
        refine sound_request h.backed (Js.nodup_distinct _) (by omega) fun ioc hioc => ?_
        by_contra hnot
        exact hallowed (List.any_eq_true.2 ⟨ioc, hioc, by simpa using hnot⟩)
      have hbegan : Began t config (events ++ [.start id e iocs key now]) id
          ((after t config events).request e (normalized t iocs) now) events [] :=
        ⟨hunused, ⟨iocs, key, rfl, rfl⟩, hsound⟩
      split at hstep
      · rename_i hmissing
        exact h.setCall hstep hevent
          ⟨events, [], hbegan, .inl ⟨hmissing, rfl⟩, honest_cached h.backed hsound hmissing⟩
      · split at hstep
        · exact h.setCall hstep hevent trivial
        · split at hstep
          · exact h.setCall hstep hevent trivial
          · split at hstep
            · exact h.setCall hstep hevent trivial
            · exact h.setCall hstep hevent ⟨events, [], hbegan, fun _ _ => List.not_mem_nil⟩

/-- What a reply to a waiting call brings: its answer, and one receipt for each indicator it asked about. -/
theorem Inv.delivered {reply : Reply} (h : Inv t config events)
    (hcall : (after t config events).calls id = some (.waiting r)) (hrows : readReply t reply = .ok rows)
    (hstep : after t config (events ++ [.reply id reply now]) =
      { cache := (r.freshVerdicts t rows).foldl (remember r.endpoint (now + config.cacheTtlSeconds * 1000))
          (after t config events).cache
        calls := Function.update (after t config events).calls id (some (.answered r rows
          (r.iocs.filterMap (r.verdictFor t rows)) ((r.freshVerdicts t rows).filterMap warning)))
        received := (after t config events).received ++ r.missing.map fun ioc => ⟨r.endpoint, rows, ioc, now⟩ }) :
    Inv t config (events ++ [.reply id reply now]) := by
  obtain ⟨before, later, hbegan, hwaits⟩ := h.calls id _ hcall
  have htold : Told t id rows now (later ++ [.reply id reply now]) := ⟨later, reply, [], rfl, hwaits, hrows⟩
  refine ⟨fun key entry hlookup => ?_, fun id' call' h' => ?_, fun receipt hreceipt => ?_⟩
  · rw [hstep] at hlookup ⊢
    rcases lookup_remembered _ _ _ _ hlookup with hold | ⟨v, hv, hkey, rfl⟩
    · obtain ⟨receipt, hreceipt, hrest⟩ := h.backed key entry hold
      exact ⟨receipt, List.mem_append_left _ hreceipt, hrest⟩
    · obtain ⟨ioc, hioc, rfl⟩ := List.mem_map.1 hv
      exact ⟨⟨r.endpoint, rows, ioc, now⟩, List.mem_append_right _ (List.mem_map_of_mem hioc), hkey, rfl, rfl⟩
  · rw [hstep] at h'
    dsimp only at h'
    by_cases hid : id' = id
    · subst hid
      rw [Function.update_self, Option.some.injEq] at h'
      subst h'
      exact ⟨before, _, hbegan.append, .inr ⟨now, htold⟩, honest_reply hbegan.sound⟩
    · rw [Function.update_of_ne hid] at h'
      exact (h.calls id' call' h').append fun _ _ _ _ hsame => hid (Event.reply.inj hsame).1.symm
  · rw [hstep] at hreceipt
    rcases List.mem_append.1 hreceipt with hold | hnew
    · exact (h.receipts receipt hold).append
    · obtain ⟨ioc, hioc, rfl⟩ := List.mem_map.1 hnew
      exact ⟨id, r, before, _, hbegan.append, rfl, hioc, htold⟩

theorem Inv.reply {reply : Reply} (h : Inv t config events) : Inv t config (events ++ [.reply id reply now]) := by
  have hstep : after t config (events ++ [.reply id reply now]) =
      step t config (after t config events) (.reply id reply now) := after_append_singleton
  rw [step, Client.reply] at hstep
  split at hstep
  · rename_i r hcall
    split at hstep
    · exact h.setCall hstep (fun id' hid _ _ hsame => hid (Event.reply.inj hsame).1.symm) trivial
    · rename_i rows hrows
      exact h.delivered hcall hrows hstep
  · rename_i hnot
    refine h.idle hstep fun id' r hcall reply' now' hsame => ?_
    obtain ⟨rfl, -⟩ := Event.reply.inj hsame
    exact hnot r hcall

theorem Inv.append (h : Inv t config events) (event : Event) : Inv t config (events ++ [event]) := by
  cases event with
  | start id e iocs key now =>
    cases hcall : (after t config events).calls id with
    | none => exact h.start hcall
    | some call =>
      refine h.idle ?_ fun _ _ _ _ _ => nofun
      rw [after_append_singleton, step, if_neg (by rw [hcall]; nofun)]
  | reply id reply now => exact h.reply

theorem inv_nil : Inv t config [] :=
  ⟨fun _ _ h => (by cases h), fun _ _ h => (by cases h), fun _ h => (by cases h)⟩

theorem inv_after (events : List Event) : Inv t config events := by
  induction events using List.reverseRecOn with
  | nil => exact inv_nil
  | append_singleton events event ih => exact ih.append event

/-- However the calls interleave and whatever the provider replies, every answer is honest. -/
theorem answers_honest (t : TextRules) (config : Config) (events : List Event) : AnswersHonest t config events where
  answers id _ _ _ _ hcall := (inv_after events).calls id _ hcall
  receipts := (inv_after events).receipts

end HuntWarden.ThreatIntel
