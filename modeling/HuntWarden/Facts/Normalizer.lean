import HuntWarden.Common.Ids
import HuntWarden.Lib.Js
import HuntWarden.Lib.OrderedMap
import HuntWarden.Protocol.Types

/-! From the observations of the helper to facts. Every field is kept in the private payload; what the
    model may see of it, by the manifest, goes into the model payload: the value, its digest, its
    presence, or nothing. Objects are named by random references, found again by their identity. -/

namespace HuntWarden.Normalizer

open Outcome Manifest

structure Runtime where
  dateParse : String → Option ℤ
  digestObject : Json → String
  ids : IdSupply

structure WireObservation where
  namespace_ : NamespaceName
  identity : Payload
  fields : Payload
  unavailableFields : List UnavailableField
  observedAt : String
  consistency : Consistency

structure WireEndpoint where
  namespace_ : NamespaceName
  identity : Payload

structure WireEdge where
  relation : String
  fromIdentity : WireEndpoint
  toIdentity : WireEndpoint
  observedAt : String

structure FactBatchInput where
  taskId : String
  epochId : String
  sourceRunId : String
  source : FactSource
  targetFingerprint : String
  requestId : String
  collector : Collector
  observations : List WireObservation
  edges : List WireEdge
  gaps : List CoverageGap
  wireDigest : String

structure PreparedFactBatch where
  facts : List FactRecord
  refs : List ObjectReference
  edges : List EdgeRecord

/-- The references created so far, and how many ids have been drawn. -/
structure Drawing where
  created : List ObjectReference
  drawn : ℕ

variable (r : Runtime)

/-- `assertFieldValue`. -/
def wellTyped (type : FieldType) (value : Json) : Bool :=
  match type, value with
  | .string, .str _ => true
  | .integer, v => v.isSafeInteger
  | .number, .num _ => true
  | .boolean, .bool _ => true
  | .timestamp, .str s => (r.dateParse s).isSome
  | .stringList, .arr items => items.all fun item => item.asString?.isSome
  | .object, .obj _ => true
  | _, _ => false

/-- What the model payload gets of a field; `none` is nothing at all. -/
def exposed (field : ManifestField) (value : Json) : Option Json :=
  if field.sensitivity = .secret then
    some (if field.modelExposure = .hashOnly then .str (r.digestObject value)
      else .bool (value ≠ .null))
  else if field.sensitivity = .evidenceOnly ∨ field.modelExposure = .deny then none
  else match field.modelExposure with
    | .hashOnly => some (.str (r.digestObject value))
    | .presenceOnly => some (.bool (value ≠ .null))
    | _ => some value

/-- Whether the field is listed as redacted. -/
def redacted (field : ManifestField) : Bool :=
  field.sensitivity = .secret || field.sensitivity = .evidenceOnly || field.modelExposure ≠ .value

/-- The three results of the loop over the fields of an observation. -/
structure Payloads where
  privatePayload : Payload
  modelPayload : Payload
  redactedFields : List String

def normalizeFields (namespace_ : NamespaceName) : Payload → Except Thrown Payloads
  | [] => .ok ⟨[], [], []⟩
  | (name, value) :: rest => do
    let field ← orThrow (field? namespace_ name)
      (invalidArgument s!"Helper 返回 Manifest 外字段: {namespace_.name}.{name}")
    require (wellTyped r field.type value)
      (invalidArgument s!"{namespace_.name}.{name} 不符合 Manifest 类型 {field.type.name}")
    let others ← normalizeFields namespace_ rest
    return {
      privatePayload := (name, value) :: others.privatePayload
      modelPayload := (exposed r field value).toList.map (fun v => (name, v)) ++ others.modelPayload
      redactedFields := if redacted field then name :: others.redactedFields
        else others.redactedFields }

/-- `{ ...left, ...right }`. -/
def spread (left right : Payload) : Payload :=
  right.foldl (fun merged (name, value) => OrderedMap.upsert name (fun _ => value) merged) left

/-- The identity fields of an object, each of them given. -/
def stableIdentity (namespace_ : NamespaceName) (identity : Payload) :
    List String → Except Thrown Payload
  | [] => .ok []
  | name :: names => do
    let value ← orThrow ((identity.lookup name).filter fun v => v ≠ .null ∧ v ≠ .str "")
      (invalidArgument s!"{namespace_.name} Observation 缺少身份字段 {name}")
    let others ← stableIdentity namespace_ identity names
    return (name, value) :: others

def identityDigest (namespace_ : NamespaceName) (identity : Payload) : String :=
  r.digestObject (.obj [("namespace", .str namespace_.name), ("stableIdentity", .obj identity)])

abbrev Lookup := NamespaceName → String → Option ObjectReference

def getRef (input : FactBatchInput) (lookup : Lookup) (endpoint : WireEndpoint)
    (observedAt : String) (d : Drawing) : Except Thrown (ObjectReference × Drawing) := do
  let identity ← stableIdentity endpoint.namespace_ endpoint.identity
    (identityFields endpoint.namespace_)
  let digest := identityDigest r endpoint.namespace_ identity
  let known := d.created.find? fun ref =>
    ref.namespace_ = endpoint.namespace_ ∧ ref.stableIdentityDigest = digest
  match known.or (lookup endpoint.namespace_ digest) with
  | some existing => return (existing, d)
  | none =>
    require (endpoint.namespace_ ≠ .taskIoc || input.source.kind = .system)
      (invalidArgument "task_ioc ObjectRef 只能由控制端 SYSTEM 来源首次物化")
    let created : ObjectReference :=
      { ref := r.ids.createId .objectRef d.drawn, taskId := input.taskId, epochId := input.epochId
        namespace_ := endpoint.namespace_, stableIdentityDigest := digest, stableIdentity := identity
        createdAt := observedAt }
    return (created, ⟨d.created ++ [created], d.drawn + 1⟩)

def unavailableGap (u : UnavailableField) : CoverageGap :=
  { code := "FIELD_UNAVAILABLE", field := some u.field, detail := some u.reasonCode
    resumable := false }

def digestPayload (privatePayload : Payload) (unavailable : List UnavailableField) : String :=
  r.digestObject (.obj [("privatePayload", .obj privatePayload),
    ("unavailableFields", .arr (unavailable.map UnavailableField.toJson))])

def normalizeObservation (input : FactBatchInput) (lookup : Lookup) (observation : WireObservation)
    (d : Drawing) : Except Thrown (FactRecord × Drawing) := do
  let (subject, d) ← getRef r input lookup ⟨observation.namespace_, observation.identity⟩
    observation.observedAt d
  let payloads ← normalizeFields r observation.namespace_
    (spread (spread [] observation.identity) observation.fields)
  require (observation.unavailableFields.all fun u => (field? observation.namespace_ u.field).isSome)
    (invalidArgument s!"未知 unavailable field: {observation.namespace_.name}")
  let gaps := input.gaps ++ observation.unavailableFields.map unavailableGap
  let fact : FactRecord :=
    { factId := r.ids.createId .fact d.drawn
      factSeq := 0
      taskId := input.taskId
      epochId := input.epochId
      namespace_ := observation.namespace_
      subjectRef := subject.ref
      observedAt := observation.observedAt
      sourceRunId := input.sourceRunId
      source := input.source
      collector := input.collector
      consistency := observation.consistency
      completeness := if gaps = [] then .complete else .partialFact
      gaps
      privatePayload := payloads.privatePayload
      modelPayload := payloads.modelPayload
      redactedFields := payloads.redactedFields
      unavailableFields := observation.unavailableFields
      payloadDigest := digestPayload r payloads.privatePayload observation.unavailableFields
      provenance := ⟨input.targetFingerprint, input.requestId, input.wireDigest,
        subject.stableIdentityDigest⟩ }
  return (fact, { d with drawn := d.drawn + 1 })

def normalizeAll (input : FactBatchInput) (lookup : Lookup) :
    List WireObservation → Drawing → Except Thrown (List FactRecord × Drawing)
  | [], d => .ok ([], d)
  | observation :: rest, d => do
    let (fact, d) ← normalizeObservation r input lookup observation d
    let (facts, d) ← normalizeAll input lookup rest d
    return (fact :: facts, d)

def normalizeEdge (input : FactBatchInput) (lookup : Lookup) (edge : WireEdge) (d : Drawing) :
    Except Thrown (EdgeRecord × Drawing) := do
  let (source, d) ← getRef r input lookup edge.fromIdentity edge.observedAt d
  let (target, d) ← getRef r input lookup edge.toIdentity edge.observedAt d
  require (edge.relation ∈ (definitions source.namespace_).relations)
    (invalidArgument s!"关系未在 Manifest 注册: {source.namespace_.name}.{edge.relation}")
  let record : EdgeRecord :=
    { edgeId := r.ids.createId .edge d.drawn, taskId := input.taskId, epochId := input.epochId
      relation := edge.relation, fromRef := source.ref, toRef := target.ref
      sourceRunId := input.sourceRunId, observedAt := edge.observedAt }
  return (record, { d with drawn := d.drawn + 1 })

def normalizeEdges (input : FactBatchInput) (lookup : Lookup) :
    List WireEdge → Drawing → Except Thrown (List EdgeRecord × Drawing)
  | [], d => .ok ([], d)
  | edge :: rest, d => do
    let (record, d) ← normalizeEdge r input lookup edge d
    let (records, d) ← normalizeEdges input lookup rest d
    return (record :: records, d)

/-- `assertSource`: a text that is present counts when it is not empty. -/
def assertSource (source : FactSource) : Except Thrown Unit := do
  let preset := [source.presetRunId, source.presetId, source.presetVersion, source.stepId].map
    Js.truthyText
  if source.kind = .preset then
    require (preset.all Option.isSome) (invalidArgument "PRESET Fact 必须包含完整 preset 来源")
  else
    require (preset.all Option.isNone)
      (invalidArgument s!"{source.kind.name} Fact 不得伪造 PRESET 来源")
  require (source.kind ≠ .external || (Js.truthyText source.externalProvider).isSome)
    (invalidArgument "EXTERNAL Fact 必须标识 provider")

def prepareFactBatch (input : FactBatchInput) (lookup : Lookup) (drawn : ℕ) :
    Except Thrown (PreparedFactBatch × ℕ) := do
  require (input.observations.length ≤ factBatchRows)
    (invalidArgument "FactBatch 超过 2048 行硬上限")
  assertSource input.source
  let (facts, d) ← normalizeAll r input lookup input.observations ⟨[], drawn⟩
  let (edges, d) ← normalizeEdges r input lookup input.edges d
  return (⟨facts, d.created, edges⟩, d.drawn)

/-! ### Ids are only ever drawn -/

variable {r} {input : FactBatchInput} {lookup : Lookup}

theorem drawn_getRef {endpoint : WireEndpoint} {observedAt : String} {d d' : Drawing}
    {ref : ObjectReference} (h : getRef r input lookup endpoint observedAt d = .ok (ref, d')) :
    d.drawn ≤ d'.drawn := by
  obtain ⟨identity, _, h⟩ := bind_ok.1 h
  simp only at h
  split at h
  · cases h; exact Nat.le_refl _
  · obtain ⟨_, _, h⟩ := bind_ok.1 h
    cases h
    exact Nat.le_succ _

theorem drawn_normalizeObservation {observation : WireObservation} {d d' : Drawing}
    {fact : FactRecord} (h : normalizeObservation r input lookup observation d = .ok (fact, d')) :
    d.drawn ≤ d'.drawn := by
  obtain ⟨⟨subject, d₁⟩, hsubject, h⟩ := bind_ok.1 h
  obtain ⟨_, _, h⟩ := bind_ok.1 h
  obtain ⟨_, _, h⟩ := bind_ok.1 h
  cases h
  exact (drawn_getRef hsubject).trans (Nat.le_succ _)

theorem drawn_normalizeAll : ∀ {observations : List WireObservation} {d d' : Drawing}
    {facts : List FactRecord}, normalizeAll r input lookup observations d = .ok (facts, d') →
    d.drawn ≤ d'.drawn
  | [], _, _, _, h => by cases h; exact Nat.le_refl _
  | _ :: _, _, _, _, h => by
      obtain ⟨⟨fact, d₁⟩, hfact, h⟩ := bind_ok.1 h
      obtain ⟨⟨rest, d₂⟩, hrest, h⟩ := bind_ok.1 h
      cases h
      exact (drawn_normalizeObservation hfact).trans (drawn_normalizeAll hrest)

theorem drawn_normalizeEdge {edge : WireEdge} {d d' : Drawing} {record : EdgeRecord}
    (h : normalizeEdge r input lookup edge d = .ok (record, d')) : d.drawn ≤ d'.drawn := by
  obtain ⟨⟨source, d₁⟩, hsource, h⟩ := bind_ok.1 h
  obtain ⟨⟨target, d₂⟩, htarget, h⟩ := bind_ok.1 h
  obtain ⟨_, _, h⟩ := bind_ok.1 h
  cases h
  exact (drawn_getRef hsource).trans ((drawn_getRef htarget).trans (Nat.le_succ _))

theorem drawn_normalizeEdges : ∀ {edges : List WireEdge} {d d' : Drawing}
    {records : List EdgeRecord}, normalizeEdges r input lookup edges d = .ok (records, d') →
    d.drawn ≤ d'.drawn
  | [], _, _, _, h => by cases h; exact Nat.le_refl _
  | _ :: _, _, _, _, h => by
      obtain ⟨⟨record, d₁⟩, hrecord, h⟩ := bind_ok.1 h
      obtain ⟨⟨rest, d₂⟩, hrest, h⟩ := bind_ok.1 h
      cases h
      exact (drawn_normalizeEdge hrecord).trans (drawn_normalizeEdges hrest)

/-- The facts are prepared first, and the edges with what they left. -/
theorem prepareFactBatch_parts {drawn drawn' : ℕ} {prepared : PreparedFactBatch}
    (h : prepareFactBatch r input lookup drawn = .ok (prepared, drawn')) :
    ∃ d, normalizeAll r input lookup input.observations ⟨[], drawn⟩ = .ok (prepared.facts, d) ∧
      normalizeEdges r input lookup input.edges d = .ok (prepared.edges, ⟨prepared.refs, drawn'⟩) := by
  obtain ⟨_, _, h⟩ := bind_ok.1 h
  obtain ⟨_, _, h⟩ := bind_ok.1 h
  obtain ⟨⟨facts, d⟩, hfacts, h⟩ := bind_ok.1 h
  obtain ⟨⟨edges, d'⟩, hedges, h⟩ := bind_ok.1 h
  cases h
  exact ⟨d, hfacts, hedges⟩

theorem drawn_prepareFactBatch {drawn drawn' : ℕ} {prepared : PreparedFactBatch}
    (h : prepareFactBatch r input lookup drawn = .ok (prepared, drawn')) : drawn ≤ drawn' := by
  obtain ⟨d, hfacts, hedges⟩ := prepareFactBatch_parts h
  exact (drawn_normalizeAll hfacts).trans (drawn_normalizeEdges hedges)

end HuntWarden.Normalizer
