import HuntWarden.Protocol.Manifest

/-! The fields the helper knows of each namespace, beside the manifest of the controller. -/

namespace HuntWarden.Helper

/-- `V2_NAMESPACE_FIELDS`; the observations of threat intelligence and `task_ioc` are not collected on
    the target. -/
def v2NamespaceFields : NamespaceName → List String
  | .host =>
    ["bootId", "hostname", "os", "distribution", "distributionVersion", "release", "architecture",
     "timezone", "initSystem", "selinuxMode", "observedAt"]
  | .process =>
    ["bootId", "pid", "startTicks", "ppid", "uid", "username", "comm", "exe", "exeDeleted",
     "exeSize", "exeInode", "exeSha256", "command", "launcherPath", "cwd", "root", "environment",
     "namespaces", "cgroups", "cgroupsTruncated", "mapsSummary", "state", "startedAt"]
  | .socket =>
    ["protocol", "localAddress", "localPort", "remoteAddress", "remotePort", "state", "inode",
     "pid", "ownerBootId", "ownerStartTicks", "ownerPidNamespace"]
  | .file =>
    ["mountId", "device", "inode", "path", "canonicalPath", "kind", "size", "mode", "uid", "gid",
     "mtime", "sha256", "contentClass", "content", "baseline", "baselineStatus"]
  | .account =>
    ["uid", "username", "gid", "home", "shell", "groups", "locked", "passwordHash"]
  | .sshKey =>
    ["fingerprint", "ownerUid", "type", "bits", "comment", "sourceFile"]
  | .delegationRule =>
    ["mechanism", "sourceDigest", "line", "ruleDigest", "source", "effect", "subject", "runAs",
     "statement"]
  | .sshTrustConfig =>
    ["scope", "directive", "valueDigest", "value", "source", "effective"]
  | .cronEntry =>
    ["source", "line", "digest", "schedule", "user", "command"]
  | .unit =>
    ["scope", "ownerUid", "name", "fragmentDigest", "path", "enabled", "active", "generated",
     "transient", "execStart", "user"]
  | .persistence =>
    ["kind", "sourceDigest", "source", "user", "command", "enabled"]
  | .module_ =>
    ["name", "address", "size", "path", "sha256"]
  | .logSource =>
    ["sourceId", "generation", "kind", "path", "firstEventAt", "lastEventAt"]
  | .logEvent =>
    ["sourceId", "cursor", "timestamp", "program", "message", "fields"]
  | .authEvent =>
    ["sourceId", "cursor", "timestamp", "eventType", "username", "sourceAddress", "program",
     "success"]
  | .execEvent =>
    ["sourceId", "cursor", "timestamp", "pid", "uid", "executable", "arguments", "cwd"]
  | .webStack =>
    ["kind", "instanceId", "version", "pid", "configPaths"]
  | .webRoot =>
    ["mountId", "device", "inode", "path", "server", "effective"]
  | .jvm =>
    ["bootId", "pid", "startTicks", "version", "command", "attachSupported", "container"]
  | .javaComponent =>
    ["jvmDigest", "context", "componentKind", "name", "className", "classLoaderId", "mappings"]
  | .class_ =>
    ["jvmDigest", "className", "loaderId", "codeSource", "bytecodeSha256", "modifiable"]
  | .package =>
    ["manager", "name", "version", "architecture", "installedAt", "integrity"]
  | .taskIoc => []

/-- `V2_UNAVAILABLE_FIELDS`: the fields of the manifest that the collectors do not produce. -/
def v2UnavailableFields : NamespaceName → List String
  | .sshKey => ["bits"]
  | .logSource => ["firstEventAt", "lastEventAt"]
  | .webStack => ["version"]
  | .jvm => ["version"]
  | .package => ["installedAt", "integrity"]
  | .module_ => ["sha256"]
  | _ => []

end HuntWarden.Helper
