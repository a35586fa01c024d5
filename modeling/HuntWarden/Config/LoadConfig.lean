import HuntWarden.Config.Schema
import HuntWarden.Lib.Js
import HuntWarden.Lib.PosixPath

/-! The normalisation of a configuration: an older input is migrated and given the newer defaults, checked, and its
    model endpoint and paths are brought into one form. A profile is written normalised and normalised again whenever
    it is read. -/

namespace HuntWarden.LoadConfig

open Schema

/-! ### The migration -/

def RETIRED_TOP_LEVEL_KEYS : List String := ["java", "account", "persistence", "triage"]

def RETIRED_WEBSHELL_KEYS : List String :=
  ["remoteRulePath", "maxCandidateFiles", "maxFileSizeBytes", "maxScriptExcerptBytes", "maxAccessLogLines",
    "yaraRuleDir"]

def RETIRED_THREAT_INTEL_KEYS : List String := ["autoEnrichConnections", "includePrivateAddresses"]

def RETIRED_AGENT_KEYS : List String := ["maxToolCalls", "plannerToolCallShare"]

def externalIntelDefault : Json := .obj [("calls", .num 100), ("iocs", .num 1000), ("wallTimeMs", .num 300000)]

def remoteBudgetDefault : Json := .obj
  [("remoteCalls", .num 80), ("nodes", .num 20000), ("bytes", .num 67108864), ("wallTimeMs", .num 900000),
    ("probeCalls", .num 64)]

def protocolDefault : Json := .obj
  [("remoteBudget", .obj [("preset", remoteBudgetDefault), ("model", remoteBudgetDefault)]),
    ("localQueryBudget", .obj [("calls", .num 200), ("rows", .num 50000), ("wallTimeMs", .num 300000)]),
    ("externalIntelBudget", externalIntelDefault),
    ("dataPolicy", .obj
      [("modelContentBytes", .num 4194304), ("evidenceBytes", .num 268435456),
        ("defaultTextClass", .str "SENSITIVE_TEXT")]),
    ("grants", .obj [("maxRequests", .num 20), ("pendingExpiresOnInterruption", .bool true)])]

def threatIntelDefault : Json := .obj
  [("enabled", .bool false), ("provider", .str "dbapp-ti"),
    ("baseUrl", .str "https://ti.dbappsecurity.com.cn/oapi/v1/"),
    ("apiKeyEnv", .str "DBAPP_TI_API_KEY"), ("timeoutSeconds", .num 15), ("maxBatchSize", .num 100),
    ("cacheTtlSeconds", .num 3600)]

/-- An input of the first schema version, or of none. -/
def isLegacy (input : Json) : Bool :=
  input.get? "schemaVersion" = none || input.get? "schemaVersion" = some (.num 1)

def toVersion2 (migrated : Json) : Json :=
  if isLegacy migrated then (migrated.set "schemaVersion" (.num 2)).set "protocolV2" protocolDefault else migrated

def isOldPrompt (promptVersion : Option Json) : Bool :=
  promptVersion = some (.str "sechost-agent-v1") || promptVersion = some (.str "huntwarden-agent-v1")

def renamePrompt (agent : Json) : Json :=
  if isOldPrompt (agent.get? "promptVersion") then agent.set "promptVersion" (.str "huntwarden-agent-v2") else agent

def migrateAgent (agent : Json) : Json :=
  renamePrompt ((((agent.without RETIRED_AGENT_KEYS).setDefault "contextRetainTurns" (.num 3)).setDefault
    "providerMaxRetries" (.num 2)).setDefault "providerTimeoutSeconds" (.num 600))

def withIncrementalDefaults (input : Json) : Json :=
  if input.isRecord then
    (((((((toVersion2 input).onRecord "protocolV2" (·.setDefault "externalIntelBudget" externalIntelDefault)).onRecord
      "agent" migrateAgent).onRecord
      "webshell" (·.without RETIRED_WEBSHELL_KEYS)).without RETIRED_TOP_LEVEL_KEYS).setDefault
      "threatIntel" threatIntelDefault).onRecord
      "threatIntel" (·.without RETIRED_THREAT_INTEL_KEYS))
  else input

/-! ### The checks -/

/-- What is read off a parsed URL. -/
structure Url where
  username : String
  password : String
  search : String
  hash : String
  protocol : String
  hostname : String
  href : String
  deriving DecidableEq

/-- Two URLs that differ at most in their text. -/
structure Url.SameParts (url url' : Url) : Prop where
  username : url'.username = url.username
  password : url'.password = url.password
  search : url'.search = url.search
  hash : url'.hash = url.hash
  protocol : url'.protocol = url.protocol
  hostname : url'.hostname = url.hostname

def isWeb (url : Url) : Bool := url.protocol = "https:" || url.protocol = "http:"

/-- The schema library, the working directory, and the parser of URLs: the text of a parsed URL is parsed to the
    same URL. Without query and fragment, the text of a web URL ends in its path; without the slash at its end it is
    parsed to a URL with the text that is left, or with the same text again when that slash was the whole path. -/
structure Runtime where
  typeBox : TypeBox
  lawful : typeBox.Lawful
  cwd : String
  parseUrl : String → Option Url
  parseUrl_empty : parseUrl "" = none
  parseUrl_href : ∀ text url, parseUrl text = some url → parseUrl url.href = some url
  parseUrl_slash : ∀ text url rest, parseUrl text = some url → isWeb url = true → url.search = "" → url.hash = "" →
    url.href.toList = rest ++ ['/'] → ∃ url', parseUrl (String.ofList rest) = some url' ∧ url.SameParts url' ∧
      (url'.href.toList = rest ∨ rest.getLast? ≠ some '/' ∧ url'.href = url.href)

structure ConfigIssue where
  path : String
  message : String
  deriving DecidableEq

inductive ConfigError where
  | issues (issues : List ConfigIssue)
  | endpoint (message : String)
  | yaml
  deriving DecidableEq

variable (r : Runtime)

/-- `path || "/"` -/
def orRoot (path : String) : String := if path = "" then "/" else path

/-- The names that an error says a record does not know. -/
def additionalOf (error : ValueError) : List String :=
  if error.keyword = "additionalProperties" then error.additionalProperties else []

/-- The issues of one error. -/
def issuesOf (prefix_ : String) (error : ValueError) : List ConfigIssue :=
  if additionalOf error ≠ [] then
    (additionalOf error).map fun name => ⟨orRoot (prefix_ ++ error.instancePath ++ "/" ++ name), "未知配置字段"⟩
  else [⟨orRoot (prefix_ ++ error.instancePath), error.message⟩]

def schemaIssues (schema : Schema) (value : Json) (prefix_ : String) : List ConfigIssue :=
  Js.distinct ((r.typeBox.errors schema value).flatMap (issuesOf prefix_))

/-- The branch of the model schema that the input says it takes. -/
def branchOf (input : Json) : Option (Json × Schema) :=
  (input.get? "model").bind fun model =>
    if model.isRecord then
      match model.get? "source" with
      | some (.str "custom") => some (model, CustomModelSchema)
      | none | some (.str "builtin") => some (model, BuiltinModelSchema)
      | some _ => none
    else none

def isModelPath (path : String) : Bool := path = "/model" || "/model/".toList.isPrefixOf path.toList

def getConfigIssues (input : Json) : List ConfigIssue :=
  let issues := schemaIssues r ConfigSchema input ""
  match branchOf input with
  | none => issues
  | some (model, branch) => issues.filter (!isModelPath ·.path) ++ schemaIssues r branch model "/model"

/-- The text at a path that the schema has checked. -/
def textAt (config : Json) (path : List String) : String := ((config.at? path).bind Json.asString?).getD ""

/-- `text.replace(/\/$/, "")` -/
def stripSlash (text : String) : String :=
  if text.toList.getLast? = some '/' then String.ofList text.toList.dropLast else text

def localHosts : List String := ["localhost", "127.0.0.1", "[::1]", "::1"]

def isCustom (config : Json) : Bool := config.at? ["model", "source"] = some (.str "custom")

/-- What is wrong with the endpoint of a custom model. -/
def endpointError (config : Json) (url : Url) : Option String :=
  if url.username ≠ "" ∨ url.password ≠ "" ∨ url.search ≠ "" ∨ url.hash ≠ "" then
    some "自定义模型 baseUrl 禁止包含凭据、查询参数或片段"
  else if url.protocol ≠ "https:" ∧ ¬ (url.protocol = "http:" ∧ url.hostname ∈ localHosts) then
    some "远程模型端点必须使用 HTTPS；HTTP 仅允许本机回环地址"
  else if config.at? ["model", "authentication", "type"] = some (.str "none") ∧ url.hostname ∉ localHosts then
    some "无认证自定义模型仅允许本机回环地址"
  else none

def setEndpoint (config : Json) (baseUrl : String) : Json := config.setIn "model" "baseUrl" (.str baseUrl)

def validateCustomModelEndpoint (config : Json) : Except ConfigError Json :=
  if isCustom config then
    match r.parseUrl (textAt config ["model", "baseUrl"]) with
    | none => .error (.endpoint "自定义模型 baseUrl 不是有效 URL")
    | some url =>
      match endpointError config url with
      | some message => .error (.endpoint message)
      | none => .ok (setEndpoint config (stripSlash url.href))
  else .ok config

/-! ### Normalisation -/

def resolveConfigPath (configDir value : String) : String :=
  if PosixPath.isAbsolute value then PosixPath.resolve r.cwd [value]
  else PosixPath.resolve r.cwd [configDir, "..", value]

/-- `config[record][name] = resolveConfigPath(configDir, config[record][name])` -/
def resolveAt (configDir record name : String) (config : Json) : Json :=
  config.setIn record name (.str (resolveConfigPath r configDir (textAt config [record, name])))

def configDirOf (sourcePath : String) : String := PosixPath.dirname (PosixPath.resolve r.cwd [sourcePath])

def resolvePaths (sourcePath : String) (config : Json) : Json :=
  resolveAt r (configDirOf r sourcePath) "executor" "privateKeyPath"
    (resolveAt r (configDirOf r sourcePath) "executor" "knownHostsPath"
      (resolveAt r (configDirOf r sourcePath) "storage" "baseDir" config))

def normalizeConfig (input : Json) (sourcePath : String) : Except ConfigError Json :=
  let migrated := withIncrementalDefaults input
  let issues := getConfigIssues r migrated
  if issues ≠ [] then .error (.issues issues)
  else (validateCustomModelEndpoint r migrated).map (resolvePaths r sourcePath)

/-- The YAML library. -/
structure Yaml where
  parse : String → Option Json
  stringify : Json → String

/-- The library reads back what it has written of the value. -/
def Yaml.ReadsBack (yaml : Yaml) (value : Json) : Prop := yaml.parse (yaml.stringify value) = some value

variable (yaml : Yaml)

def parseConfig (text sourcePath : String) : Except ConfigError Json :=
  match yaml.parse text with
  | none => .error .yaml
  | some parsed => normalizeConfig r parsed sourcePath

def serializeConfig (config : Json) : String := yaml.stringify config

/-- What the profile of a configuration holds after it was saved, and what `get` reads from it. -/
def saveAndLoad (sourcePath : String) (config : Json) : Except ConfigError Json := do
  let saved ← normalizeConfig r config sourcePath
  parseConfig r yaml (serializeConfig yaml saved) sourcePath

/-- Saved and loaded a number of times. -/
def rounds (sourcePath : String) : ℕ → Json → Except ConfigError Json
  | 0, config => .ok config
  | n + 1, config => saveAndLoad r yaml sourcePath config >>= rounds sourcePath n

/-! ### What survives the migration -/

/-- A setting that the migration takes away: its key is retired, it is the version itself, or it names an old prompt. -/
def Retired (path : List String) (value : Json) : Prop :=
  match path with
  | [] => False
  | key :: rest => key ∈ RETIRED_TOP_LEVEL_KEYS ∨ key = "schemaVersion" ∨
      (∃ name ∈ rest.head?, key = "agent" ∧ name ∈ RETIRED_AGENT_KEYS ∨
        key = "webshell" ∧ name ∈ RETIRED_WEBSHELL_KEYS ∨ key = "threatIntel" ∧ name ∈ RETIRED_THREAT_INTEL_KEYS) ∨
      path = ["agent", "promptVersion"] ∧ isOldPrompt (some value) = true

/-- Every setting that the input states, at any depth, is the same after the migration, unless it is retired. -/
def Survives (input : Json) : Prop :=
  ∀ path value, input.at? path = some value → value.isRecord = false → ¬ Retired path value →
    (withIncrementalDefaults input).at? path = some value

/-- The input states no part of the second version's budgets and policies but as the default has it. -/
def StatesNoProtocol (input : Json) : Prop :=
  ∀ rest value, input.at? ("protocolV2" :: rest) = some value → value.isRecord = false →
    protocolDefault.at? rest = some value

variable {r} {yaml} {input config v w value : Json} {name key sourcePath : String} {path rest : List String}

theorem at?_renamePrompt (h : v.at? path = some value)
    (hnot : ¬ (path = ["promptVersion"] ∧ isOldPrompt (some value) = true)) (hleaf : value.isRecord = false) :
    (renamePrompt v).at? path = some value := by
  rw [renamePrompt]
  split
  · next hold =>
    cases path with
    | nil =>
      cases h
      cases v with
      | obj fields => cases hleaf
      | _ => rfl
    | cons key rest =>
      rw [Json.at?_set_of_ne, h]
      rintro rfl
      rw [Json.at?_cons] at h
      cases hversion : v.get? "promptVersion" with
      | none =>
        rw [hversion] at hold
        cases hold
      | some version =>
        rw [hversion] at hold h
        cases rest with
        | nil =>
          cases h
          exact hnot ⟨rfl, hold⟩
        | cons key rest =>
          rw [Option.bind_some, Json.at?_cons] at h
          cases version with
          | obj fields => simp [isOldPrompt] at hold
          | _ => cases h
  · exact h

theorem at?_migrateAgent (h : v.at? (key :: rest) = some value) (hleaf : value.isRecord = false)
    (hkey : key ∉ RETIRED_AGENT_KEYS)
    (hprompt : ¬ (key :: rest = ["promptVersion"] ∧ isOldPrompt (some value) = true)) :
    (migrateAgent v).at? (key :: rest) = some value := by
  refine at?_renamePrompt ?_ hprompt hleaf
  refine Json.at?_setDefault hleaf (Json.at?_setDefault hleaf (Json.at?_setDefault hleaf ?_))
  rw [Json.at?_without hkey, h]

/-- What the step to the second version keeps, the other steps keep. -/
theorem at?_withIncrementalDefaults (hrecord : input.isRecord = true) (hleaf : value.isRecord = false)
    (hnot : ¬ Retired (key :: rest) value) (h : (toVersion2 input).at? (key :: rest) = some value) :
    (withIncrementalDefaults input).at? (key :: rest) = some value := by
  simp only [Retired, not_or, not_exists, not_and] at hnot
  obtain ⟨htop, _, hnested, hprompt⟩ := hnot
  have hinside : ∀ {w : Json}, w.at? rest = some value → w.isRecord = true → ∃ name more, rest = name :: more := by
    intro w hw hrecord
    cases rest with
    | nil =>
      cases hw
      rw [hleaf] at hrecord
      cases hrecord
    | cons name more => exact ⟨name, more, rfl⟩
  rw [withIncrementalDefaults, if_pos hrecord]
  refine Json.at?_onRecord (Json.at?_setDefault hleaf ?_) ?_
  · rw [Json.at?_without htop]
    refine Json.at?_onRecord (Json.at?_onRecord (Json.at?_onRecord h ?_) ?_) ?_
    · exact fun w _ _ hw => Json.at?_setDefault hleaf hw
    · intro w hkey hw hat
      obtain ⟨name, more, rfl⟩ := hinside hat hw
      refine at?_migrateAgent hat hleaf (fun hretired => ?_) fun ⟨hpath, hold⟩ => ?_
      · exact (hnested name rfl).1 hkey hretired
      · exact hprompt (by rw [hkey, hpath]) hold
    · intro w hkey hw hat
      obtain ⟨name, more, rfl⟩ := hinside hat hw
      rw [Json.at?_without fun hretired => (hnested name rfl).2.1 hkey hretired]
      exact hat
  · intro w hkey hw hat
    obtain ⟨name, more, rfl⟩ := hinside hat hw
    rw [Json.at?_without fun hretired => (hnested name rfl).2.2 hkey hretired]
    exact hat

/-- A legacy input gets the default budgets and policies, whatever it states. -/
theorem get?_protocol_of_legacy (hrecord : input.isRecord = true) (hlegacy : isLegacy input = true) :
    (withIncrementalDefaults input).get? "protocolV2" = some protocolDefault := by
  have hversion : (toVersion2 input).get? "protocolV2" = some protocolDefault := by
    rw [toVersion2, if_pos hlegacy, Json.get?_set (by rw [Json.isRecord_set]; exact hrecord), if_pos rfl]
  rw [withIncrementalDefaults, if_pos hrecord, Json.get?_onRecord_of_ne (by decide),
    Json.get?_setDefault_of_ne (by decide), Json.get?_without (by decide), Json.get?_onRecord_of_ne (by decide),
    Json.get?_onRecord_of_ne (by decide), Json.get?_onRecord hversion rfl]
  rfl

theorem not_retired_protocol : ¬ Retired ("protocolV2" :: rest) value := by
  simp [Retired, RETIRED_TOP_LEVEL_KEYS]

theorem survives_iff (hrecord : input.isRecord = true) (hlegacy : isLegacy input = true) :
    Survives input ↔ StatesNoProtocol input := by
  have hprotocol : ∀ rest, (withIncrementalDefaults input).at? ("protocolV2" :: rest) = protocolDefault.at? rest := by
    intro rest
    rw [Json.at?_cons, get?_protocol_of_legacy hrecord hlegacy, Option.bind_some]
  constructor
  · intro h rest value hstated hleaf
    rw [← hprotocol]
    exact h _ value hstated hleaf not_retired_protocol
  · intro h path value hstated hleaf hnot
    cases path with
    | nil =>
      cases hstated
      rw [hleaf] at hrecord
      cases hrecord
    | cons key rest =>
      by_cases hkey : key = "protocolV2"
      · subst hkey
        rw [hprotocol]
        exact h rest value hstated hleaf
      · have hversion : key ≠ "schemaVersion" := fun heq => hnot (Or.inr (Or.inl heq))
        refine at?_withIncrementalDefaults hrecord hleaf hnot ?_
        rw [toVersion2, if_pos hlegacy, Json.at?_set_of_ne hkey, Json.at?_set_of_ne hversion]
        exact hstated

end HuntWarden.LoadConfig
