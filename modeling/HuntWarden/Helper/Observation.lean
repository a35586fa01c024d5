import HuntWarden.Facts.Normalizer
import HuntWarden.Helper.Fields

/-! Objects as the helper reports them: the fields a namespace has, with the identity among them. -/

namespace HuntWarden.Helper

open Outcome

/-- `V2_IDENTITY_FIELDS` -/
def v2IdentityFields : NamespaceName → List String
  | .host => ["bootId"]
  | .process => ["bootId", "pid", "startTicks"]
  | .socket => ["protocol", "localAddress", "localPort", "remoteAddress", "remotePort", "inode"]
  | .file => ["mountId", "device", "inode"]
  | .account => ["uid", "username"]
  | .sshKey => ["fingerprint", "ownerUid"]
  | .cronEntry => ["source", "line", "digest"]
  | .delegationRule => ["mechanism", "sourceDigest", "line", "ruleDigest"]
  | .sshTrustConfig => ["scope", "directive", "valueDigest"]
  | .unit => ["scope", "ownerUid", "name", "fragmentDigest"]
  | .persistence => ["kind", "sourceDigest"]
  | .module_ => ["name", "address"]
  | .logSource => ["sourceId", "generation"]
  | .logEvent | .authEvent | .execEvent => ["sourceId", "cursor"]
  | .webStack => ["kind", "instanceId"]
  | .webRoot => ["mountId", "device", "inode"]
  | .jvm => ["bootId", "pid", "startTicks"]
  | .javaComponent => ["jvmDigest", "context", "componentKind", "name", "classLoaderId"]
  | .class_ => ["jvmDigest", "className", "loaderId"]
  | .package => ["manager", "name", "version", "architecture"]
  | .taskIoc => []

/-- The field of a record, `null` when it has none. -/
def fieldOf (fields : Payload) (name : String) : Json := (fields.lookup name).getD .null

def v2_identity (namespace_ : NamespaceName) (fields : Payload) : Except HelperError Payload := do
  let names := v2IdentityFields namespace_
  require (!names.isEmpty) {
    code := .unsupportedEnvironment
    message := s!"stable identity is not implemented for {namespace_.name}" }
  require (names.all fun name => fieldOf fields name ≠ .null ∧ fieldOf fields name ≠ .str "") {
    code := .unsupportedEnvironment
    message := s!"collector did not produce stable {namespace_.name} identity" }
  return names.map fun name => (name, fieldOf fields name)

/-- The fields of the namespace that have a value, in the order of the namespace. -/
def projected (namespace_ : NamespaceName) (fields : Payload) : Payload :=
  (v2NamespaceFields namespace_).filterMap fun name =>
    ((fields.lookup name).filter (· ≠ .null)).map fun value => (name, value)

def v2_observation (now : String) (namespace_ : NamespaceName) (fields : Payload)
    (consistency : Consistency) (requested : List String) : Except HelperError
    Normalizer.WireObservation := do
  require (!(v2NamespaceFields namespace_).isEmpty) {
    code := .unsupportedEnvironment
    message := s!"namespace unavailable: {namespace_.name}" }
  let identity ← v2_identity namespace_ (projected namespace_ fields)
  let missing := requested.filter fun name => ((projected namespace_ fields).lookup name).isNone
  return {
    namespace_
    identity
    fields := projected namespace_ fields
    unavailableFields := missing.map fun field => { field, reasonCode := "COLLECTOR_UNAVAILABLE" }
    observedAt := now
    consistency }

end HuntWarden.Helper
