import HuntWarden.Assessments.Projection
import HuntWarden.Investigation.Types
import HuntWarden.Lib.Js

/-! What the playbooks make of a fact: whether it is a candidate, which categories it is planned for, and the
    operations planned for each of them. -/

namespace HuntWarden.Playbooks

/-- What the language does with texts. -/
structure Texts where
  coercions : Coercions
  toLowerCase : String → String

structure PlannedOperation where
  obligationKind : String
  operationRef : String
  args : Json
  required : Bool
  replayPolicy : ActionReplayPolicy
  priority : ℤ
  deriving DecidableEq

def maxCollectBytes : ℚ := 104857600

def defaultExecutableCollectBytes : ℚ := 10 * 1024 * 1024

def playbookCandidateBatchSize : ℕ := 200

variable (t : Texts)

/-! ### Patterns -/

/-- One of the words stands at the start, and what follows it may follow. -/
def startsWithOne (words : List String) (after : Option Char → Bool) (text : List Char) : Bool :=
  words.any fun word => word.toList.isPrefixOf text && after (text.drop word.length).head?

/-- One of the words stands somewhere behind a character that may come before it. -/
def followsOne (before : Char → Bool) (words : List String) (after : Option Char → Bool) :
    List Char → Bool
  | [] => false
  | ch :: rest =>
    (before ch && startsWithOne words after rest) || followsOne before words after rest

/-- `/(?:^|before)(?:words)after/` -/
def matches_ (before : Char → Bool) (words : List String) (after : Option Char → Bool)
    (text : String) : Bool :=
  startsWithOne words after text.toList || followsOne before words after text.toList

/-- `\\w` -/
def isWord (ch : Char) : Bool := ch.isAlphanum || ch = '_'

def anything (_ : Option Char) : Bool := true

/-- `\\b` behind a word -/
def wordEnds (next : Option Char) : Bool := next.all fun ch => !isWord ch

def tempPaths : List String := ["tmp/", "dev/shm/", "var/tmp/"]

/-- `/^(?:127\\.|10\\.|192\\.168\\.|169\\.254\\.|0\\.|::1$|fc|fd|fe80)/i` -/
def isLocalAddress (address : String) : Bool :=
  let text := address.toList.map Char.toLower
  startsWithOne ["127.", "10.", "192.168.", "169.254.", "0.", "fc", "fd", "fe80"] anything text ||
    text = "::1".toList

/-- `/\\.(?:php\\d*|phtml|phar|jsp|jspx|asp|aspx|cgi|pl|py)$/i` -/
def hasScriptSuffix (path : String) : Bool :=
  let parts := (path.toList.map Char.toLower).splitOn '.'
  let suffix := parts.getLastD []
  decide (1 < parts.length) &&
    (decide (String.ofList suffix ∈ ["phtml", "phar", "jsp", "jspx", "asp", "aspx", "cgi", "pl", "py"]) ||
      ("php".toList.isPrefixOf suffix && (suffix.drop 3).all Char.isDigit))

/-- `/(?:^|\\/)\\.user\\.ini$/i` -/
def isUserIni (path : String) : Bool :=
  let text := path.toList.map Char.toLower
  text = ".user.ini".toList || "/.user.ini".toList.isSuffixOf text

/-! ### Fields -/

def field (payload : Payload) (name : String) : Option Json := payload.lookup name

def textField (payload : Payload) (name : String) : Option String :=
  (field payload name).bind Json.asString?

/-- `String(value)` -/
def textOf : Option Json → String
  | none => "undefined"
  | some value => Js.toText t.coercions value

/-- `String(value ?? "")` -/
def textOrEmpty : Option Json → String
  | none | some .null => ""
  | some value => Js.toText t.coercions value

def placeholderIdentifiers : List String := ["unknown", "unavailable", "n/a", "none", "null", "-"]

def isUsableJavaClassIdentifier (value : String) : Bool :=
  Js.trim value ≠ "" && t.toLowerCase (Js.trim value) ∉ placeholderIdentifiers

/-! ### Candidates -/

def isWebCandidate (fact : FactRecord) : Bool :=
  fact.namespace_ = .file && fact.source.kind = .preset &&
    fact.source.presetId = some "webshell-baseline" &&
    (textField fact.privatePayload "path").any fun path => isUserIni path || hasScriptSuffix path

def persistenceNamespaces : List NamespaceName := [.cronEntry, .unit, .persistence]

/-- An edge of one of the relations leads to the fact's subject. -/
def reached (edges : List EdgeRecord) (fact : FactRecord) (relations : List String) : Bool :=
  edges.any fun edge => edge.toRef = fact.subjectRef && edge.relation ∈ relations

def isSuspectProcess (payload : Payload) : Bool :=
  let exe := textOrEmpty t (field payload "exe")
  let command := textOrEmpty t (field payload "command")
  field payload "exeDeleted" = some (.bool true) ||
    matches_ (· = '/') tempPaths anything exe ||
    matches_ (fun ch => Js.isSpace ch || ch = '"' || ch = '\'') (tempPaths.map ("/" ++ ·)) anything command ||
    matches_ Js.isSpace ["curl", "wget", "nc", "ncat", "socat"] wordEnds command

def isPlaybookCandidate (fact : FactRecord) (hasRiskAssessment : Bool) (edges : List EdgeRecord) : Bool :=
  hasRiskAssessment ||
  match fact.namespace_ with
  | .file => isWebCandidate fact ||
      reached edges fact ["executable", "command_file", "executes", "references"]
  | .cronEntry | .unit | .persistence => reached edges fact ["started_by"]
  | .socket => (textField fact.privatePayload "remoteAddress").any fun address => !isLocalAddress address
  | .process => isSuspectProcess t fact.privatePayload
  | _ => false

/-! ### Categories -/

/-- The category, if it is allowed and the condition holds. -/
def whenAllowed (checks : List CheckCategory) (category : CheckCategory) (condition : Bool) :
    List CheckCategory :=
  if category ∈ checks ∧ condition then [category] else []

def categoriesForFact (fact : FactRecord) (checks : List CheckCategory) (edges : List EdgeRecord)
    (riskCategories : List CheckCategory) : List CheckCategory :=
  let isFile := decide (fact.namespace_ = .file)
  let isPersistence := decide (fact.namespace_ ∈ persistenceNamespaces)
  Js.distinct (
    riskCategories.filter (· ∈ checks) ++
    whenAllowed checks .webshell (isFile && (.webshell ∈ riskCategories || isWebCandidate fact)) ++
    whenAllowed checks .linuxPersistence
      (isFile && reached edges fact ["executes", "referenced_by_persistence"]) ++
    whenAllowed checks .linuxIntrusionTriage
      (isFile && reached edges fact ["executable", "command_file", "executes"]) ++
    whenAllowed checks .backdoorAccount (isFile && reached edges fact ["references"]) ++
    whenAllowed checks .backdoorAccount
      (fact.namespace_ ∈ [.account, .sshKey, .delegationRule, .sshTrustConfig]) ++
    whenAllowed checks .linuxPersistence isPersistence ++
    whenAllowed checks .linuxIntrusionTriage (isPersistence && reached edges fact ["started_by"]) ++
    whenAllowed checks .javaMemoryShell (fact.namespace_ ∈ [.jvm, .javaComponent, .class_]) ++
    whenAllowed checks .linuxIntrusionTriage (fact.namespace_ ∈ [.process, .socket, .execEvent]))

/-! ### Operations -/

def collectBytesForFact (fact : FactRecord) : ℚ :=
  match field fact.privatePayload "size" with
  | some (.num size) =>
    if fact.namespace_ = .file ∧ (Json.num size).isSafeInteger ∧ 0 ≤ size then
      min maxCollectBytes (max 1 size)
    else defaultExecutableCollectBytes
  | _ => defaultExecutableCollectBytes

section

variable (fact : FactRecord)

def refArg : String × Json := ("ref", .str fact.subjectRef)

def project (obligationKind : String) (fields : List String) (priority : ℤ) : PlannedOperation :=
  ⟨obligationKind, "project", .obj [refArg fact, ("fields", .arr (fields.map .str))], true,
    .safeReobserve, priority⟩

def relate (obligationKind relation : String) (limit : ℚ) (required : Bool) (priority : ℤ) :
    PlannedOperation :=
  ⟨obligationKind, "relate", .obj [refArg fact, ("relation", .str relation), ("limit", .num limit)],
    required, .safeReobserve, priority⟩

def collect (obligationKind purpose : String) (priority : ℤ) : PlannedOperation :=
  ⟨obligationKind, "collect", .obj [refArg fact, ("maxBytes", .num (collectBytesForFact fact)),
    ("purpose", .str purpose)], true, .resumeOrRecollect, priority⟩

def verify (obligationKind : String) (priority : ℤ) : PlannedOperation :=
  ⟨obligationKind, "verify", .obj [refArg fact, ("baseline", .str "package_db")], false,
    .safeReobserve, priority⟩

def queryFacts (obligationKind : String) (priority : ℤ) : PlannedOperation :=
  ⟨obligationKind, "query_facts", .obj [("view", .str "facts"),
    ("namespace", .str fact.namespace_.name), ("subjectRef", .str fact.subjectRef),
    ("limit", .num 100)], false, .safeReobserve, priority⟩

def resolveDerived (obligationKind resolverRef : String) (priority : ℤ) : PlannedOperation :=
  ⟨obligationKind, "resolve_derived_objects", .obj [("resolverRef", .str resolverRef),
    ("sourceFactRef", .str fact.factId)], false, .safeReobserve, priority⟩

def probe (obligationKind ref probeKind : String) (parameters : Json)
    (replayPolicy : ActionReplayPolicy) (priority : ℤ) : PlannedOperation :=
  ⟨obligationKind, "probe", .obj [("ref", .str ref), ("probeKind", .str probeKind),
    ("parameters", parameters)], true, replayPolicy, priority⟩

def fileFields : List String := ["path", "size", "mtime", "sha256", "contentClass"]

def isYaraHit : Bool :=
  (textField fact.privatePayload "content").any fun content =>
    "YARA_MATCH:".toList.isPrefixOf content.toList

def webshellOperations : List PlannedOperation :=
  if isYaraHit fact then
    [collect fact "WEB_PRESERVE_CANDIDATE" "WEB_CANDIDATE_PRESERVATION" 96,
      project fact "WEB_VERIFY_FILE_VERSION" fileFields 92,
      verify fact "WEB_PACKAGE_COUNTERCHECK" 78,
      relate fact "WEB_TRACE_REQUESTS" "requested_in" 500 false 84,
      relate fact "WEB_TRACE_WORKER" "opened_by" 100 false 82,
      relate fact "WEB_TRACE_PERSISTENCE" "referenced_by_persistence" 100 false 76,
      queryFacts fact "WEB_QUERY_COUNTEREVIDENCE" 68]
  else
    [⟨"WEB_MATCH_BUILTIN_RULESET", "match", .obj [("refs", .arr [.str fact.subjectRef]),
        ("matcher", .obj [("engine", .str "yara"), ("ruleSetRef", .str "RULESET-WEBSHELL-BUILTIN-2")]),
        ("maxHits", .num 20), ("includeContext", .bool false)], true, .safeReobserve, 94⟩,
      relate fact "WEB_TRACE_REQUESTS" "requested_in" 500 false 76,
      relate fact "WEB_TRACE_WORKER" "opened_by" 100 false 74,
      relate fact "WEB_TRACE_PERSISTENCE" "referenced_by_persistence" 100 false 70]

def persistenceFileOperations : List PlannedOperation :=
  [project fact "PERSISTENCE_VERIFY_TARGET_FILE" fileFields 84,
    verify fact "PERSISTENCE_BASELINE_TARGET_FILE" 72,
    collect fact "PERSISTENCE_PRESERVE_TARGET_FILE" "PERSISTENCE_TARGET_PRESERVATION" 88]

def triageFileOperations : List PlannedOperation :=
  [project fact "PROCESS_FILE_VERIFY_VERSION" fileFields 86,
    verify fact "PROCESS_FILE_PACKAGE_COUNTERCHECK" 76,
    collect fact "PROCESS_FILE_PRESERVE" "PROCESS_RELATED_FILE_PRESERVATION" 92,
    relate fact "PROCESS_FILE_TRACE_PERSISTENCE" "referenced_by_persistence" 100 true 82,
    relate fact "PROCESS_FILE_TRACE_OPENERS" "opened_by" 100 false 68,
    queryFacts fact "PROCESS_FILE_COUNTEREVIDENCE" 60]

def accountFileOperations : List PlannedOperation :=
  [project fact "ACCOUNT_VERIFY_TRUST_FILE" fileFields 86,
    collect fact "ACCOUNT_PRESERVE_TRUST_FILE" "SSH_TRUST_EVIDENCE" 90,
    verify fact "ACCOUNT_TRUST_FILE_PACKAGE_COUNTERCHECK" 70,
    queryFacts fact "ACCOUNT_TRUST_FILE_COUNTEREVIDENCE" 60]

def accountOperations : List PlannedOperation :=
  [project fact "ACCOUNT_VERIFY_CURRENT_STATE"
      ["uid", "username", "gid", "home", "shell", "groups", "locked"] 80,
    relate fact "ACCOUNT_TRACE_KEYS" "authorized_key" 100 true 75,
    relate fact "ACCOUNT_TRACE_LOGIN" "login_event" 100 false 70]

def sshKeyOperations : List PlannedOperation :=
  [relate fact "ACCOUNT_BIND_KEY_OWNER" "owned_by" 20 true 82,
    queryFacts fact "ACCOUNT_REVIEW_KEY_SOURCE" 68]

/-- `Object.keys(fact.modelPayload).slice(0, 20)` -/
def modelFields : List String := (fact.modelPayload.map Prod.fst).take 20

def trustOperations : List PlannedOperation :=
  [project fact "ACCOUNT_VERIFY_EFFECTIVE_TRUST" (modelFields fact) 80] ++
  (if fact.namespace_ = .sshTrustConfig ∧ textOf t (field fact.privatePayload "directive") ∈
      ["authorizedkeysfile", "trustedusercakeys", "authorizedprincipalsfile"] then
    [relate fact "ACCOUNT_TRACE_TRUST_FILE" "references" 20 false 76]
  else []) ++
  [queryFacts fact "ACCOUNT_REVIEW_TRUST_COUNTEREVIDENCE" 66]

def persistenceOperations : List PlannedOperation :=
  [project fact "PERSISTENCE_VERIFY_SOURCE" (modelFields fact) 82,
    relate fact "PERSISTENCE_TRACE_EXECUTION" "executes" 100 true 76,
    queryFacts fact "PERSISTENCE_QUERY_COUNTEREVIDENCE" 65]

/-- The classes of a component can be probed when its virtual machine and both its names are known. -/
def javaComponentOperations (edges : List EdgeRecord) : List PlannedOperation :=
  let host := edges.find? fun edge => edge.toRef = fact.subjectRef && edge.relation = "hosts_component"
  match (host.map (·.fromRef)).filter (· ≠ ""),
      (textField fact.privatePayload "className").filter (isUsableJavaClassIdentifier t),
      (textField fact.privatePayload "classLoaderId").filter (isUsableJavaClassIdentifier t) with
  | some jvmRef, some className, some classLoaderId =>
    let parameters := Json.obj [("className", .str className), ("classLoaderId", .str classLoaderId)]
    [probe "JAVA_INSPECT_EXACT_CLASS" jvmRef "jvm.class.inspect" parameters .safeReobserve 88,
      probe "JAVA_PRESERVE_BYTECODE" jvmRef "jvm.class.dump" parameters .resumeOrRecollect 92]
  | _, _, _ => []

def socketOperations : List PlannedOperation :=
  [relate fact "BIND_SOCKET_OWNER" "owned_by" 20 true 92,
    resolveDerived fact "PROCESS_EGRESS_DERIVE_OWNER" "socket.owner_by_pid@1.0.0" 74,
    queryFacts fact "PROCESS_EGRESS_LOCAL_REVIEW" 58]

def processOperations : List PlannedOperation :=
  [project fact "VERIFY_PROCESS_IDENTITY" ["pid", "startTicks", "exe", "exeDeleted", "exeInode",
      "exeSha256", "command", "launcherPath", "namespaces", "cgroups", "mapsSummary"] 98,
    collect fact "PRESERVE_EXECUTABLE_EVIDENCE" "AUTONOMOUS_VOLATILE_PRESERVATION" 97,
    relate fact "TRACE_PROCESS_EXECUTABLE" "executable" 20 true 94,
    relate fact "TRACE_PROCESS_COMMAND_FILES" "command_file" 100 true 92,
    relate fact "TRACE_PROCESS_PARENT" "parent" 20 true 90,
    relate fact "TRACE_PROCESS_CONNECTIONS" "connects" 500 true 88,
    relate fact "TRACE_PROCESS_OPEN_FILES" "opens" 500 false 84,
    relate fact "TRACE_PROCESS_STARTUP" "started_by" 100 true 86,
    resolveDerived fact "PROCESS_EGRESS_DERIVE_PARENT" "process.parent_by_ppid@1.0.0" 72,
    queryFacts fact "CHECK_PROCESS_COUNTEREVIDENCE" 58]

def operationsForFact (category : CheckCategory) (edges : List EdgeRecord) : List PlannedOperation :=
  match fact.namespace_, category with
  | .file, .webshell => webshellOperations fact
  | .file, .linuxPersistence => persistenceFileOperations fact
  | .file, .linuxIntrusionTriage => triageFileOperations fact
  | .file, .backdoorAccount => accountFileOperations fact
  | .account, _ => accountOperations fact
  | .sshKey, _ => sshKeyOperations fact
  | .delegationRule, _ | .sshTrustConfig, _ => trustOperations t fact
  | .cronEntry, _ | .unit, _ | .persistence, _ => persistenceOperations fact
  | .jvm, _ => [probe "JAVA_INVENTORY_RUNTIME" fact.subjectRef "jvm.tomcat.inventory" (.obj [])
      .safeReobserve 85]
  | .javaComponent, _ => javaComponentOperations t fact edges
  | .class_, _ => [queryFacts fact "JAVA_QUERY_CLASS_COUNTEREVIDENCE" 68]
  | .socket, _ => socketOperations fact
  | .process, _ => processOperations fact
  | _, _ => []

end

/-! ### Hypotheses -/

def claimFor (category : CheckCategory) (namespace_ : NamespaceName) : String :=
  match category with
  | .webshell => s!"{namespace_.name} 对象可能属于 Web 执行链，需要验证版本、来源与访问/进程关系"
  | .javaMemoryShell =>
    s!"{namespace_.name} 运行态对象可能包含未授权动态组件，需要精确 ClassLoader 与字节码验证"
  | .backdoorAccount => s!"{namespace_.name} 对象可能扩大账户信任边界，需要验证有效配置、密钥与会话"
  | .linuxPersistence => s!"{namespace_.name} 对象可能建立持久化执行，需要验证有效来源与真实执行目标"
  | .linuxIntrusionTriage => s!"{namespace_.name} 对象可能属于异常外连或执行链，需要验证身份和良性解释"

def benignAlternatives : CheckCategory → List String
  | .webshell => ["正常 CMS 或部署产物", "已授权运维脚本"]
  | .javaMemoryShell => ["框架动态代理或 APM 增强", "正常热部署组件"]
  | .backdoorAccount => ["已审批管理员账户或自动化密钥轮换"]
  | .linuxPersistence => ["系统包或配置管理下发的启动项"]
  | .linuxIntrusionTriage => ["正常服务外连", "已安装软件的维护或更新行为"]

end HuntWarden.Playbooks
