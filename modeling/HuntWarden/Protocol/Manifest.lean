import HuntWarden.Common.Errors
import HuntWarden.Lib.Outcome

/-! The manifest of the second protocol: which namespaces there are, which fields an observation of
    each may carry, and what the model may be shown of a field. -/

namespace HuntWarden

inductive NamespaceName where
  | host | process | socket | file | account | sshKey | delegationRule | sshTrustConfig
  | cronEntry | unit | persistence | module_ | logSource | logEvent | authEvent | execEvent
  | webStack | webRoot | jvm | javaComponent | class_ | package | taskIoc
  deriving DecidableEq, Repr

def NamespaceName.name : NamespaceName → String
  | .host => "host"
  | .process => "process"
  | .socket => "socket"
  | .file => "file"
  | .account => "account"
  | .sshKey => "ssh_key"
  | .delegationRule => "delegation_rule"
  | .sshTrustConfig => "ssh_trust_config"
  | .cronEntry => "cron_entry"
  | .unit => "unit"
  | .persistence => "persistence"
  | .module_ => "module"
  | .logSource => "log_source"
  | .logEvent => "log_event"
  | .authEvent => "auth_event"
  | .execEvent => "exec_event"
  | .webStack => "web_stack"
  | .webRoot => "web_root"
  | .jvm => "jvm"
  | .javaComponent => "java_component"
  | .class_ => "class"
  | .package => "package"
  | .taskIoc => "task_ioc"

namespace Manifest

open Outcome

inductive FieldType where
  | string | integer | number | boolean | timestamp | stringList | object
  deriving DecidableEq, Repr

def FieldType.name : FieldType → String
  | .string => "string"
  | .integer => "integer"
  | .number => "number"
  | .boolean => "boolean"
  | .timestamp => "timestamp"
  | .stringList => "string[]"
  | .object => "object"

inductive Cost where
  | cheap | moderate | expensive
  deriving DecidableEq, Repr

inductive Sensitivity where
  | public_ | sensitive | secret | evidenceOnly
  deriving DecidableEq, Repr

inductive ModelExposure where
  | value | hashOnly | presenceOnly | deny
  deriving DecidableEq, Repr

structure ManifestField where
  type : FieldType
  enumerable : Bool
  projectable : Bool
  filterable : Bool
  sortable : Bool
  cost : Cost
  sensitivity : Sensitivity
  modelExposure : ModelExposure
  deriving DecidableEq, Repr

structure NamespaceManifest where
  identity : List String
  fields : List (String × ManifestField)
  relations : List String
  deriving DecidableEq, Repr

def publicField (type : FieldType) : ManifestField where
  type
  enumerable := true
  projectable := true
  filterable := true
  sortable := type ≠ .object ∧ type ≠ .stringList
  cost := .cheap
  sensitivity := .public_
  modelExposure := .value

def sensitiveField (type : FieldType) (exposure : ModelExposure) : ManifestField :=
  { publicField type with sensitivity := .sensitive, modelExposure := exposure }

def secretField (type : FieldType) : ManifestField :=
  { publicField type with
    sensitivity := .secret, modelExposure := .presenceOnly, filterable := false, sortable := false }

def definitions : NamespaceName → NamespaceManifest
  | .host =>
    { identity := ["bootId"]
      fields := [("bootId", publicField .string), ("hostname", publicField .string),
        ("os", publicField .string), ("distribution", publicField .string),
        ("distributionVersion", publicField .string), ("release", publicField .string),
        ("architecture", publicField .string), ("timezone", publicField .string),
        ("initSystem", publicField .string), ("selinuxMode", publicField .string),
        ("observedAt", publicField .timestamp)]
      relations := [] }
  | .process =>
    { identity := ["bootId", "pid", "startTicks"]
      fields := [("bootId", publicField .string), ("pid", publicField .integer),
        ("startTicks", publicField .string), ("ppid", publicField .integer),
        ("uid", publicField .integer), ("username", publicField .string),
        ("comm", publicField .string), ("exe", sensitiveField .string .value),
        ("exeDeleted", publicField .boolean), ("exeSize", publicField .integer),
        ("exeInode", publicField .string),
        ("exeSha256", { publicField .string with cost := .expensive, enumerable := true }),
        ("command", sensitiveField .string .value), ("launcherPath", sensitiveField .string .value),
        ("cwd", sensitiveField .string .value), ("root", sensitiveField .string .value),
        ("environment", { sensitiveField .object .presenceOnly with sortable := false }),
        ("namespaces", { publicField .object with sortable := false }),
        ("cgroups", { sensitiveField .stringList .hashOnly with sortable := false }),
        ("cgroupsTruncated", publicField .boolean),
        ("mapsSummary", { sensitiveField .object .value with sortable := false }),
        ("state", publicField .string), ("startedAt", publicField .timestamp)]
      relations := ["parent", "children", "opens", "connects", "executable", "command_file",
        "started_by"] }
  | .socket =>
    { identity := ["protocol", "localAddress", "localPort", "remoteAddress", "remotePort", "inode"]
      fields := [("protocol", publicField .string), ("localAddress", publicField .string),
        ("localPort", publicField .integer), ("remoteAddress", publicField .string),
        ("remotePort", publicField .integer), ("state", publicField .string),
        ("inode", publicField .string), ("pid", publicField .integer),
        ("ownerBootId", publicField .string), ("ownerStartTicks", publicField .string),
        ("ownerPidNamespace", publicField .string),
        ("intelProvider", { publicField .string with enumerable := false }),
        ("intelMalicious", { publicField .boolean with enumerable := false }),
        ("intelRiskLevel", { publicField .string with enumerable := false }),
        ("intelConfidence", { publicField .number with enumerable := false }),
        ("intelThreatTypes", { publicField .stringList with enumerable := false, sortable := false }),
        ("intelQueriedAt", { publicField .timestamp with enumerable := false })]
      relations := ["owned_by"] }
  | .file =>
    { identity := ["mountId", "device", "inode"]
      fields := [("mountId", publicField .string), ("device", publicField .string),
        ("inode", publicField .string), ("path", sensitiveField .string .value),
        ("canonicalPath", sensitiveField .string .hashOnly), ("kind", publicField .string),
        ("size", publicField .integer), ("mode", publicField .integer),
        ("uid", publicField .integer), ("gid", publicField .integer),
        ("mtime", publicField .timestamp),
        ("sha256", { publicField .string with cost := .expensive, enumerable := false }),
        ("contentClass", publicField .string),
        ("content", { sensitiveField .string .value with
          enumerable := false, projectable := false, filterable := false, sortable := false,
          cost := .expensive }),
        ("baseline", { publicField .string with enumerable := false }),
        ("baselineStatus", { publicField .string with enumerable := false }),
        ("intelProvider", { publicField .string with enumerable := false }),
        ("intelMalicious", { publicField .boolean with enumerable := false }),
        ("intelRiskLevel", { publicField .string with enumerable := false }),
        ("intelConfidence", { publicField .number with enumerable := false }),
        ("intelThreatTypes", { publicField .stringList with enumerable := false, sortable := false }),
        ("intelQueriedAt", { publicField .timestamp with enumerable := false })]
      relations := ["same_inode", "same_sha256", "opened_by", "referenced_by_persistence",
        "requested_in"] }
  | .account =>
    { identity := ["uid", "username"]
      fields := [("uid", publicField .integer), ("username", publicField .string),
        ("gid", publicField .integer), ("home", sensitiveField .string .value),
        ("shell", publicField .string),
        ("groups", { publicField .stringList with sortable := false }),
        ("locked", publicField .boolean), ("passwordHash", secretField .string)]
      relations := ["authorized_key", "login_event"] }
  | .sshKey =>
    { identity := ["fingerprint", "ownerUid"]
      fields := [("fingerprint", publicField .string), ("ownerUid", publicField .integer),
        ("type", publicField .string), ("bits", publicField .integer),
        ("comment", sensitiveField .string .value), ("sourceFile", sensitiveField .string .value)]
      relations := ["owned_by"] }
  | .delegationRule =>
    { identity := ["mechanism", "sourceDigest", "line", "ruleDigest"]
      fields := [("mechanism", publicField .string), ("sourceDigest", publicField .string),
        ("line", publicField .integer), ("ruleDigest", publicField .string),
        ("source", sensitiveField .string .value), ("effect", publicField .string),
        ("subject", publicField .string), ("runAs", publicField .string),
        ("statement", sensitiveField .string .value)]
      relations := [] }
  | .sshTrustConfig =>
    { identity := ["scope", "directive", "valueDigest"]
      fields := [("scope", publicField .string), ("directive", publicField .string),
        ("valueDigest", publicField .string), ("value", sensitiveField .string .value),
        ("source", sensitiveField .string .value), ("effective", publicField .boolean)]
      relations := ["references"] }
  | .cronEntry =>
    { identity := ["source", "line", "digest"]
      fields := [("source", sensitiveField .string .value), ("line", publicField .integer),
        ("digest", publicField .string), ("schedule", publicField .string),
        ("user", publicField .string), ("command", sensitiveField .string .value)]
      relations := ["executes"] }
  | .unit =>
    { identity := ["scope", "ownerUid", "name", "fragmentDigest"]
      fields := [("scope", publicField .string), ("ownerUid", publicField .integer),
        ("name", publicField .string), ("fragmentDigest", publicField .string),
        ("path", sensitiveField .string .value), ("enabled", publicField .boolean),
        ("active", publicField .boolean), ("generated", publicField .boolean),
        ("transient", publicField .boolean), ("execStart", sensitiveField .string .value),
        ("user", publicField .string)]
      relations := ["executes"] }
  | .persistence =>
    { identity := ["kind", "sourceDigest"]
      fields := [("kind", publicField .string), ("sourceDigest", publicField .string),
        ("source", sensitiveField .string .value), ("user", publicField .string),
        ("command", sensitiveField .string .value), ("enabled", publicField .boolean)]
      relations := ["executes"] }
  | .module_ =>
    { identity := ["name", "address"]
      fields := [("name", publicField .string), ("address", publicField .string),
        ("size", publicField .integer), ("path", sensitiveField .string .value),
        ("sha256", { publicField .string with cost := .expensive, enumerable := false })]
      relations := [] }
  | .logSource =>
    { identity := ["sourceId", "generation"]
      fields := [("sourceId", publicField .string), ("generation", publicField .string),
        ("kind", publicField .string), ("path", sensitiveField .string .value),
        ("firstEventAt", publicField .timestamp), ("lastEventAt", publicField .timestamp)]
      relations := ["contains"] }
  | .logEvent =>
    { identity := ["sourceId", "cursor"]
      fields := [("sourceId", publicField .string), ("cursor", publicField .string),
        ("timestamp", publicField .timestamp), ("program", publicField .string),
        ("message", sensitiveField .string .value),
        ("fields", { sensitiveField .object .value with sortable := false })]
      relations := [] }
  | .authEvent =>
    { identity := ["sourceId", "cursor"]
      fields := [("sourceId", publicField .string), ("cursor", publicField .string),
        ("timestamp", publicField .timestamp), ("eventType", publicField .string),
        ("username", publicField .string), ("sourceAddress", publicField .string),
        ("program", publicField .string), ("success", publicField .boolean)]
      relations := [] }
  | .execEvent =>
    { identity := ["sourceId", "cursor"]
      fields := [("sourceId", publicField .string), ("cursor", publicField .string),
        ("timestamp", publicField .timestamp), ("pid", publicField .integer),
        ("uid", publicField .integer), ("executable", sensitiveField .string .value),
        ("arguments", sensitiveField .string .value), ("cwd", sensitiveField .string .value)]
      relations := [] }
  | .webStack =>
    { identity := ["kind", "instanceId"]
      fields := [("kind", publicField .string), ("instanceId", publicField .string),
        ("version", publicField .string), ("pid", publicField .integer),
        ("configPaths", sensitiveField .stringList .value)]
      relations := ["serves_root"] }
  | .webRoot =>
    { identity := ["mountId", "device", "inode"]
      fields := [("mountId", publicField .string), ("device", publicField .string),
        ("inode", publicField .string), ("path", sensitiveField .string .value),
        ("server", publicField .string), ("effective", publicField .boolean)]
      relations := ["served_by"] }
  | .jvm =>
    { identity := ["bootId", "pid", "startTicks"]
      fields := [("bootId", publicField .string), ("pid", publicField .integer),
        ("startTicks", publicField .string), ("version", publicField .string),
        ("command", sensitiveField .string .value), ("attachSupported", publicField .boolean),
        ("container", publicField .string)]
      relations := ["hosts_component", "loads_class"] }
  | .javaComponent =>
    { identity := ["jvmDigest", "context", "componentKind", "name", "classLoaderId"]
      fields := [("jvmDigest", publicField .string), ("context", publicField .string),
        ("componentKind", publicField .string), ("name", publicField .string),
        ("className", publicField .string), ("classLoaderId", publicField .string),
        ("mappings", sensitiveField .stringList .value)]
      relations := ["implemented_by"] }
  | .class_ =>
    { identity := ["jvmDigest", "className", "loaderId"]
      fields := [("jvmDigest", publicField .string), ("className", publicField .string),
        ("loaderId", publicField .string), ("codeSource", sensitiveField .string .value),
        ("bytecodeSha256", publicField .string), ("modifiable", publicField .boolean)]
      relations := ["loaded_by", "defined_in"] }
  | .package =>
    { identity := ["manager", "name", "version", "architecture"]
      fields := [("manager", publicField .string), ("name", publicField .string),
        ("version", publicField .string), ("architecture", publicField .string),
        ("installedAt", publicField .timestamp), ("integrity", publicField .string)]
      relations := ["owns_file"] }
  | .taskIoc =>
    { identity := ["kind", "valueDigest"]
      fields := [("kind", publicField .string), ("valueDigest", publicField .string),
        ("value", sensitiveField .string .value), ("suppliedAt", publicField .timestamp),
        ("intelProvider", { publicField .string with enumerable := false }),
        ("intelMalicious", { publicField .boolean with enumerable := false }),
        ("intelRiskLevel", { publicField .string with enumerable := false }),
        ("intelConfidence", { publicField .number with enumerable := false }),
        ("intelThreatTypes", { publicField .stringList with enumerable := false, sortable := false }),
        ("intelQueriedAt", { publicField .timestamp with enumerable := false })]
      relations := ["matches"] }

/-- `hardLimits`. -/
def queryPredicateDepth : ℕ := 6
def queryPredicateNodes : ℕ := 64
def predicateDepth : ℕ := 4
def predicateNodes : ℕ := 32
def predicateStringBytes : ℕ := 256
def predicateInItems : ℕ := 64
def factBatchRows : ℕ := 2048

def identityFields (namespace_ : NamespaceName) : List String :=
  ((definitions namespace_).fields.filter fun f => f.1 ∈ (definitions namespace_).identity).map (·.1)

def field? (namespace_ : NamespaceName) (name : String) : Option ManifestField :=
  (definitions namespace_).fields.lookup name

/-- `assertManifestField(namespace, field, "filterable")`. -/
def assertFilterable (namespace_ : NamespaceName) (name : String) : Except Thrown ManifestField :=
  orThrow ((field? namespace_ name).filter (·.filterable))
    (invalidArgument s!"{namespace_.name}.{name} 不允许 filterable")

end Manifest

end HuntWarden
