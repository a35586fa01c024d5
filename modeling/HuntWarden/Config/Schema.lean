import HuntWarden.Lib.Schema

/-! The schema of the configuration. -/

namespace HuntWarden.LoadConfig

open Schema

/-- `Type.Integer({ minimum })` -/
def integerFrom (minimum : ℚ) : Schema := .number true (some minimum) none

/-- `Type.Integer({ minimum, maximum })` -/
def integer (minimum maximum : ℚ) : Schema := .number true (some minimum) (some maximum)

/-- `Type.Object(properties, STRICT_OBJECT)` -/
def strictObject (properties : List (String × Bool × Schema)) : Schema := .record true properties

/-- `Type.String({ minLength })` -/
def textFrom (minLength : ℕ) : Schema := .text minLength none fun _ => true

def ThinkingLevelSchema : Schema := oneOf ["off", "minimal", "low", "medium", "high", "xhigh", "max"]

def isLowerOrDigit (ch : Char) : Bool := 'a' ≤ ch && ch ≤ 'z' || '0' ≤ ch && ch ≤ '9'

def isUpper (ch : Char) : Bool := 'A' ≤ ch && ch ≤ 'Z'

/-- The pattern of a text: its first character, and the others. -/
def matchesPattern (first rest : Char → Bool) (text : String) : Bool :=
  match text.toList with
  | [] => false
  | ch :: chars => first ch && chars.all rest

def ProviderIdSchema : Schema :=
  textWithin 1 64 (matchesPattern isLowerOrDigit fun ch => isLowerOrDigit ch || ['.', '_', '-'].contains ch)

def EnvNameSchema : Schema :=
  textWithin 2 128
    (matchesPattern isUpper fun ch => isUpper ch || '0' ≤ ch && ch ≤ '9' || ch = '_')

def BuiltinModelSchema : Schema := strictObject
  [allows "source" (.literal (.str "builtin")),
    needs "provider" ProviderIdSchema,
    needs "model" (textWithin 1 256 fun _ => true),
    needs "thinkingLevel" ThinkingLevelSchema]

def customModelProperties : List (String × Bool × Schema) :=
  [needs "source" (.literal (.str "custom")),
    needs "provider" ProviderIdSchema,
    needs "model" (textWithin 1 256 fun _ => true),
    needs "thinkingLevel" ThinkingLevelSchema,
    needs "protocol" (oneOf ["openai-responses", "openai-completions", "anthropic-messages"]),
    needs "baseUrl" (textWithin 1 2048 fun _ => true),
    needs "authentication" (.union
      [strictObject [needs "type" (.literal (.str "api-key-env")), needs "apiKeyEnv" EnvNameSchema],
        strictObject [needs "type" (.literal (.str "none"))]]),
    needs "reasoning" .boolean,
    needs "contextWindow" (integer 4096 10000000),
    needs "maxTokens" (integer 256 1000000),
    allows "compatibility" (strictObject
      [allows "supportsDeveloperRole" .boolean,
        allows "supportsReasoningEffort" .boolean,
        allows "supportsUsageInStreaming" .boolean,
        allows "supportsStrictMode" .boolean,
        allows "supportsStrictTools" .boolean,
        allows "maxTokensField" (oneOf ["max_completion_tokens", "max_tokens"])])]

def CustomModelSchema : Schema := strictObject customModelProperties

def remoteBudgetSchema : Schema := strictObject
  [needs "remoteCalls" (integerFrom 1), needs "nodes" (integerFrom 1), needs "bytes" (integerFrom 1024),
    needs "wallTimeMs" (integerFrom 1000), needs "probeCalls" (integerFrom 0)]

def externalIntelBudgetSchema : Schema := strictObject
  [needs "calls" (integerFrom 1), needs "iocs" (integerFrom 1), needs "wallTimeMs" (integerFrom 1000)]

def protocolV2Properties : List (String × Bool × Schema) :=
  [needs "remoteBudget" (strictObject [needs "preset" remoteBudgetSchema, needs "model" remoteBudgetSchema]),
    needs "localQueryBudget" (strictObject
      [needs "calls" (integerFrom 1), needs "rows" (integerFrom 1), needs "wallTimeMs" (integerFrom 1000)]),
    needs "externalIntelBudget" externalIntelBudgetSchema,
    needs "dataPolicy" (strictObject
      [needs "modelContentBytes" (integerFrom 1024), needs "evidenceBytes" (integerFrom 1024),
        needs "defaultTextClass" (.literal (.str "SENSITIVE_TEXT"))]),
    needs "grants" (strictObject
      [needs "maxRequests" (integer 1 100), needs "pendingExpiresOnInterruption" (.literal (.bool true))])]

def agentProperties : List (String × Bool × Schema) :=
  [needs "maxTurns" (integer 1 100),
    needs "contextRetainTurns" (integer 1 20),
    needs "providerMaxRetries" (integer 0 10),
    needs "providerTimeoutSeconds" (integer 30 3600),
    needs "defaultMode" (oneOf ["SCAN", "REMEDIATE"]),
    needs "promptVersion" (textFrom 1)]

def executorProperties : List (String × Bool × Schema) :=
  [needs "type" (.literal (.str "ssh")),
    needs "timeoutSeconds" (integer 1 600),
    needs "helperPath" (textFrom 1),
    needs "knownHostsPath" (textFrom 1),
    needs "privateKeyPath" (textFrom 1)]

def storageProperties : List (String × Bool × Schema) := [needs "baseDir" anyText, needs "databaseFile" anyText]

def webshellProperties : List (String × Bool × Schema) := [needs "modifiedWithinHours" (integer 1 8760)]

def threatIntelProperties : List (String × Bool × Schema) :=
  [needs "enabled" .boolean,
    needs "provider" (.literal (.str "dbapp-ti")),
    needs "baseUrl" (.literal (.str "https://ti.dbappsecurity.com.cn/oapi/v1/")),
    needs "apiKeyEnv" (.literal (.str "DBAPP_TI_API_KEY")),
    needs "timeoutSeconds" (integer 1 60),
    needs "maxBatchSize" (integer 1 100),
    needs "cacheTtlSeconds" (integer 0 86400)]

def configProperties : List (String × Bool × Schema) :=
  [needs "schemaVersion" (.literal (.num 2)),
    needs "protocolV2" (strictObject protocolV2Properties),
    needs "agent" (strictObject agentProperties),
    needs "model" (.union [BuiltinModelSchema, CustomModelSchema]),
    needs "executor" (strictObject executorProperties),
    needs "storage" (strictObject storageProperties),
    needs "llmData" (strictObject [needs "maxTextBytes" (integer 1024 262144)]),
    needs "webshell" (strictObject webshellProperties),
    needs "threatIntel" (strictObject threatIntelProperties),
    needs "remediation" (strictObject
      [needs "requireApproval" (.literal (.bool true)),
        needs "allowedTools" (.array (oneOf ["quarantine_file", "disable_account"]) 0 none false),
        needs "quarantineRoot" anyText])]

def ConfigSchema : Schema := strictObject configProperties

end HuntWarden.LoadConfig
