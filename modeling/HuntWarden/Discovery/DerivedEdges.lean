import HuntWarden.Discovery.Attribution
import HuntWarden.Lib.Runs
import HuntWarden.Storage.FactBatches

/-! The relations the resolver of derived objects records. A relation is recorded for the one candidate whose
    latest observation carries the identity that the source records of it, under an id made of the resolver,
    the source fact and the target fact, so that it is recorded once. An observation is never merged with an
    earlier one: a candidate is judged by the latest one alone, and each new one makes for a new id. -/

namespace HuntWarden.DerivedEdges

open Outcome Playbooks Runs VolatileDiscovery

/-! ### The store -/

/-- The tables of one task and epoch that a resolution reads and writes. -/
structure RelationStore extends ObjectStore where
  versions : List EntityVersion
  provenance : Table RelationProvenance.edgeRef
  keyed : (planner.edges.map (·.edgeId)).Nodup

namespace RelationStore

def edges (s : RelationStore) : Table EdgeRecord.edgeId := ⟨s.planner.edges, s.keyed⟩

def withEdges (s : RelationStore) (edges : Table EdgeRecord.edgeId)
    (provenance : Table RelationProvenance.edgeRef) : RelationStore where
  toVolatileStore := { s.toVolatileStore with planner := { s.planner with edges := edges.rows } }
  identified := s.identified
  typed := s.typed
  versions := s.versions
  provenance := provenance
  keyed := edges.keyed

@[simp] theorem facts_withEdges (s : RelationStore) (edges : Table EdgeRecord.edgeId)
    (provenance : Table RelationProvenance.edgeRef) :
    (s.withEdges edges provenance).planner.facts = s.planner.facts := rfl

@[simp] theorem edges_withEdges (s : RelationStore) (edges : Table EdgeRecord.edgeId)
    (provenance : Table RelationProvenance.edgeRef) : (s.withEdges edges provenance).edges = edges := rfl

end RelationStore

variable (r : PlanRuntime)

/-- `putDerivedEdge`. A time that cannot be read is no number, and the row that would carry it is ignored. -/
def putDerivedEdge (edge : EdgeRecord) (provenance : RelationProvenance) (timed : Bool) (s : RelationStore) :
    Except Thrown RelationStore := do
  require (provenance.edgeRef = edge.edgeId ∧ provenance.taskId = edge.taskId ∧
      provenance.epochId = edge.epochId ∧ provenance.derivation = .derived)
    (invalidArgument "派生关系与来源谱系不匹配")
  require (edge.fromRef ∈ s.planner.references ∧ edge.toRef ∈ s.planner.references ∧
      (∀ ref ∈ provenance.fromVersionRef, ref ∈ s.versions.map (·.versionRef)) ∧
      (∀ ref ∈ provenance.toVersionRef, ref ∈ s.versions.map (·.versionRef)) ∧
      ∀ ref ∈ provenance.sourceRefs, (getFact s.toVolatileStore ref).isSome)
    (invalidArgument "派生关系必须绑定当前 Epoch 的对象、版本和来源 Fact")
  return s.withEdges (s.edges.insertOrIgnore edge)
    (if timed then s.provenance.insertOrIgnore provenance else s.provenance)

def latestVersion (s : RelationStore) (entityRef : String) : Option EntityVersion :=
  ((s.versions.filter (·.entityRef = entityRef)).insertionSort fun left right =>
    r.projection.collation.localeCompare left.validFrom right.validFrom ≠ .gt).getLast?

/-- The later of two times; the second one where they cannot be compared. -/
def later (left right : String) : String :=
  match r.projection.dateParse left, r.projection.dateParse right with
  | some a, some b => if b ≤ a then left else right
  | _, _ => right

/-- The source and the one candidate that is stably related to it, where a request is resolved. -/
def link (request : DerivedObjectRequest) (s : VolatileStore) : Option (FactRecord × FactRecord) := do
  let source ← getFact s request.sourceFactRef
  let value ← joinValue (derivedResolvers request.resolverRef) source
  match (joined r (derivedResolvers request.resolverRef) source value s).filter
      (hasStableProcessRelationship request.resolverRef source) with
  | [target] => some (source, target)
  | _ => none

def derivedEdge (request : DerivedObjectRequest) (source target : FactRecord) : EdgeRecord where
  edgeId := derivedEdgeId r request target
  taskId := r.taskId
  epochId := r.epochId
  relation := (derivedResolvers request.resolverRef).relation
  fromRef := source.subjectRef
  toRef := target.subjectRef
  sourceRunId := request.requestId
  observedAt := later r source.observedAt target.observedAt

def derivedProvenance (request : DerivedObjectRequest) (source target : FactRecord) (s : RelationStore) :
    RelationProvenance where
  edgeRef := derivedEdgeId r request target
  taskId := r.taskId
  epochId := r.epochId
  fromVersionRef := (latestVersion r s source.subjectRef).map (·.versionRef)
  toVersionRef := (latestVersion r s target.subjectRef).map (·.versionRef)
  derivation := .derived
  sourceRefs := [source.factId, target.factId]
  resolverVersion := request.resolverRef.name
  timeErrorMs := ((distance r source target).getD 0).toNat

/-- `DerivedObjectResolver.resolve`, with what it records. -/
def resolveDerived (request : DerivedObjectRequest) (authorization : AuthorizationEnvelope)
    (s : RelationStore) : Except Thrown (DerivedObjectResult × RelationStore) := do
  let result ← resolve r request authorization s.toVolatileStore
  match link r request s.toVolatileStore with
  | some (source, target) =>
    let s' ← putDerivedEdge (derivedEdge r request source target) (derivedProvenance r request source target s)
      (distance r source target).isSome s
    return (result, s')
  | none => return (result, s)

/-! ### Runs -/

inductive Op where
  /-- A batch of observations, with the objects and the versions it makes. -/
  | observe (facts : List FactRecord) (references : List String) (versions : List EntityVersion)
  /-- An edge of another writer. -/
  | relate (edge : EdgeRecord) (provenance : RelationProvenance)
  | resolve (request : DerivedObjectRequest) (authorization : AuthorizationEnvelope)

def derivedMark : List Char := "EDGE-DERIVED-".toList

/-- The facts as they may be after a batch: numbered on, with fresh ids, about objects of the epoch. -/
def Admits (s : RelationStore) (facts : List FactRecord) (references : List String) : Prop :=
  (s.planner.facts ++ facts).Pairwise (fun a b => a.factSeq < b.factSeq) ∧
  (∀ fact ∈ s.planner.facts ++ facts, fact.subjectRef ∈ s.planner.references ++ references) ∧
  ((s.planner.facts ++ facts).map (·.factId)).Nodup ∧
  ∀ a ∈ s.planner.facts ++ facts, ∀ b ∈ s.planner.facts ++ facts, a.subjectRef = b.subjectRef →
    a.namespace_ = b.namespace_

instance (s : RelationStore) (facts : List FactRecord) (references : List String) :
    Decidable (Admits s facts references) := by
  unfold Admits
  infer_instance

/-- A batch that is committed; a batch that does not fit leaves the store as it is. -/
def observe (s : RelationStore) (facts : List FactRecord) (references : List String)
    (versions : List EntityVersion) : RelationStore :=
  if h : Admits s facts references then
    { toVolatileStore :=
        { s.toVolatileStore with
          planner :=
            { s.planner with
              facts := s.planner.facts ++ facts, references := s.planner.references ++ references
              numbered := h.1, referenced := h.2.1 } }
      identified := h.2.2.1
      typed := h.2.2.2
      versions := versions
      provenance := s.provenance
      keyed := s.keyed }
  else s

def step (s : RelationStore) : Op → RelationStore
  | .observe facts references versions => observe s facts references versions
  | .relate edge provenance =>
    if derivedMark <+: edge.edgeId.toList then s
    else s.withEdges (s.edges.insertOrIgnore edge) (s.provenance.insertOrIgnore provenance)
  | .resolve request authorization =>
    match resolveDerived r request authorization s with
    | .ok (_, s') => s'
    | .error _ => s

/-- Nothing observed and nothing related. -/
def empty (checks : List CheckCategory) : RelationStore where
  planner :=
    { checks, facts := [], references := [], assessments := [], relations := [], edges := [], coverage := []
      missingCriteria := fun _ => [], hypotheses := .empty, investigation := .empty, checkpoints := .empty
      numbered := List.Pairwise.nil, referenced := by simp }
  leads := .empty
  origin _ := ⟨.analyst, [], "", ""⟩
  identified := List.nodup_nil
  typed := by simp
  versions := []
  provenance := .empty
  keyed := List.nodup_nil

def runOps (checks : List CheckCategory) (ops : List Op) : RelationStore := run (step r) (empty checks) ops

/-! ### What a relation says -/

/-- What the source records of the identity. -/
def Recorded : DerivedResolverRef → FactRecord → FactRecord → String → String → String → Prop
  | .socketOwnerByPid, source, _, bootId, startTicks, pidNamespace =>
    stringField source "ownerBootId" = some bootId ∧ integerStringField source "ownerStartTicks" = some startTicks ∧
      stringField source "ownerPidNamespace" = some pidNamespace
  | .processParentByPpid, source, target, bootId, startTicks, pidNamespace =>
    source.sourceRunId = target.sourceRunId ∧ stringField source "bootId" = some bootId ∧
      namespaceField source = some pidNamespace ∧ ∃ ticks, integerStringField source "startTicks" = some ticks ∧
        startTicks.toNat?.getD 0 < ticks.toNat?.getD 0

/-- The target is another object with the PID, and boot, start and namespace are as the source records them:
    for the owner of a socket all three, for a parent the boot and the namespace of one snapshot and a start
    before that of the child. -/
def SameIdentity (resolverRef : DerivedResolverRef) (source target : FactRecord) : Prop :=
  (∃ value, joinValue (derivedResolvers resolverRef) source = some value ∧
    (field target.privatePayload (derivedResolvers resolverRef).targetJoinField).any (Js.strictEqual value) = true) ∧
  target.subjectRef ≠ source.subjectRef ∧
  ∃ bootId startTicks pidNamespace, stringField target "bootId" = some bootId ∧
    integerStringField target "startTicks" = some startTicks ∧ namespaceField target = some pidNamespace ∧
    Recorded resolverRef source target bootId startTicks pidNamespace

variable {r} {s s' : RelationStore} {request : DerivedObjectRequest} {authorization : AuthorizationEnvelope}
  {result : DerivedObjectResult} {source target : FactRecord}

theorem hasStable_iff {resolverRef : DerivedResolverRef} :
    hasStableProcessRelationship resolverRef source target = true ↔
      ∃ bootId startTicks pidNamespace, stringField target "bootId" = some bootId ∧
        integerStringField target "startTicks" = some startTicks ∧ namespaceField target = some pidNamespace ∧
        Recorded resolverRef source target bootId startTicks pidNamespace := by
  cases hboot : stringField target "bootId" with
  | none => simp [hasStableProcessRelationship, hboot]
  | some bootId =>
    cases hticks : integerStringField target "startTicks" with
    | none => simp [hasStableProcessRelationship, hboot, hticks]
    | some startTicks =>
      cases hnamespace : namespaceField target with
      | none => simp [hasStableProcessRelationship, hboot, hticks, hnamespace]
      | some pidNamespace =>
        cases resolverRef <;>
          simp [hasStableProcessRelationship, hboot, hticks, hnamespace, Recorded, Option.any_eq_true, and_assoc]

theorem mem_joined {definition : ResolverDefinition} {value : Json} {s : VolatileStore} :
    target ∈ joined r definition source value s ↔ target ∈ latestOf s definition.targetNamespace ∧
      (field target.privatePayload definition.targetJoinField).any (Js.strictEqual value) = true ∧
        target.subjectRef ≠ source.subjectRef := by
  rw [joined, (List.perm_insertionSort _ _).mem_iff, List.mem_filter, Bool.and_eq_true, decide_eq_true_eq]

/-- A link is the one candidate of that identity. -/
theorem link_some {s : VolatileStore} (h : link r request s = some (source, target)) :
    getFact s request.sourceFactRef = some source ∧
      target ∈ latestOf s (derivedResolvers request.resolverRef).targetNamespace ∧
      SameIdentity request.resolverRef source target ∧
      ∀ other ∈ latestOf s (derivedResolvers request.resolverRef).targetNamespace,
        SameIdentity request.resolverRef source other → other = target := by
  simp only [link, Option.bind_eq_bind, Option.bind_eq_some_iff] at h
  obtain ⟨source', hsource, value, hvalue, h⟩ := h
  split at h
  · next found hfound =>
    obtain ⟨rfl, rfl⟩ := Prod.mk.inj (Option.some.inj h)
    obtain ⟨hjoined, hstable⟩ := List.mem_filter.1 (hfound ▸ List.mem_singleton_self found)
    obtain ⟨hlatest, hpid, hother⟩ := mem_joined.1 hjoined
    refine ⟨hsource, hlatest, ⟨⟨value, hvalue, hpid⟩, hother, hasStable_iff.1 hstable⟩, ?_⟩
    rintro other hmem ⟨⟨value', hvalue', hpid'⟩, hother', hidentity⟩
    obtain rfl : value = value' := Option.some.inj (hvalue.symm.trans hvalue')
    have hmem := List.mem_filter.2 ⟨(mem_joined (r := r)).2 ⟨hmem, hpid', hother'⟩, hasStable_iff.2 hidentity⟩
    rw [hfound] at hmem
    exact List.mem_singleton.1 hmem
  · cases h

/-- The answer is RESOLVED exactly where there is a link, and names it. -/
theorem resolve_link {s : VolatileStore} (h : resolve r request authorization s = .ok result) :
    (link r request s = none ∧ result.status ≠ .resolved) ∨
    ∃ source target, link r request s = some (source, target) ∧
      result = ⟨.resolved, [target.subjectRef], [derivedEdgeId r request target]⟩ := by
  simp only [resolve, bind_ok, orThrow_ok, require_ok] at h
  obtain ⟨source, hsource, _, -, h⟩ := h
  have hget : getFact s request.sourceFactRef = some source := by
    rw [Option.filter_eq_some_iff] at hsource
    exact hsource.1
  rw [link, hget, Option.bind_eq_bind, Option.bind_some]
  cases hvalue : joinValue (derivedResolvers request.resolverRef) source with
  | none =>
    rw [hvalue] at h
    obtain rfl := pure_ok.1 h
    exact Or.inl ⟨rfl, by decide⟩
  | some value =>
    rw [hvalue] at h
    dsimp only at h
    rw [Option.bind_eq_bind, Option.bind_some]
    split at h
    · next hnil =>
      obtain rfl := pure_ok.1 h
      rw [hnil]
      exact Or.inl ⟨rfl, by decide⟩
    · generalize (joined r (derivedResolvers request.resolverRef) source value s).filter
        (hasStableProcessRelationship request.resolverRef source) = targets at h ⊢
      rcases targets with _ | ⟨target, _ | ⟨second, targets⟩⟩
      · obtain rfl := pure_ok.1 h
        refine Or.inl ⟨rfl, fun hstatus => ?_⟩
        cases hstatus
      · obtain rfl := pure_ok.1 h
        exact Or.inr ⟨source, target, rfl, rfl⟩
      · obtain rfl := pure_ok.1 h
        refine Or.inl ⟨rfl, fun hstatus => ?_⟩
        cases hstatus

/-- A resolution leaves the store as it is, or it is resolved and puts the edge of its link. -/
theorem resolveDerived_cases (h : resolveDerived r request authorization s = .ok (result, s')) :
    (result.status ≠ .resolved ∧ s' = s) ∨
    ∃ source target provenance, link r request s.toVolatileStore = some (source, target) ∧
      result = ⟨.resolved, [target.subjectRef], [derivedEdgeId r request target]⟩ ∧
      s' = s.withEdges (s.edges.insertOrIgnore (derivedEdge r request source target)) provenance := by
  simp only [resolveDerived, bind_ok] at h
  obtain ⟨answer, hanswer, h⟩ := h
  rcases resolve_link hanswer with ⟨hnone, hstatus⟩ | ⟨source, target, hlink, hresult⟩
  · rw [hnone] at h
    obtain ⟨rfl, rfl⟩ := Prod.mk.inj (pure_ok.1 h)
    exact Or.inl ⟨hstatus, rfl⟩
  · rw [hlink] at h
    simp only [putDerivedEdge, bind_ok, require_ok, pure_ok] at h
    obtain ⟨stored, ⟨_, -, _, -, rfl⟩, heq⟩ := h
    obtain ⟨rfl, rfl⟩ := Prod.mk.inj heq
    exact Or.inr ⟨source, target, _, hlink, hresult, rfl⟩

/-! ### What a run keeps -/

/-- Every derived edge leads from a fact to a fact of the identity the first one records. -/
def Linked (r : PlanRuntime) (s : RelationStore) : Prop :=
  ∀ edge ∈ s.planner.edges, derivedMark <+: edge.edgeId.toList →
    ∃ request, ∃ source ∈ s.planner.facts, ∃ target ∈ s.planner.facts, source.factId = request.sourceFactRef ∧
      edge = derivedEdge r request source target ∧ SameIdentity request.resolverRef source target

/-- The observations are kept as they were made, and the edges too. -/
structure Kept (s s' : RelationStore) : Prop where
  facts : s.planner.facts <+: s'.planner.facts
  edges : ∀ edge ∈ s.planner.edges, edge ∈ s'.planner.edges

theorem Kept.refl (s : RelationStore) : Kept s s := ⟨List.prefix_rfl, fun _ h => h⟩

theorem Kept.trans {a b c : RelationStore} (h : Kept a b) (h' : Kept b c) : Kept a c :=
  ⟨h.facts.trans h'.facts, fun edge hedge => h'.edges edge (h.edges edge hedge)⟩

theorem kept_insert (s : RelationStore) (edge : EdgeRecord) (provenance : Table RelationProvenance.edgeRef) :
    Kept s (s.withEdges (s.edges.insertOrIgnore edge) provenance) :=
  ⟨List.prefix_rfl, fun _ h => (s.edges).mem_insertOrIgnore_of_mem h⟩

theorem getFact_mem {s : VolatileStore} {factId : String} {fact : FactRecord} (h : getFact s factId = some fact) :
    fact ∈ s.planner.facts ∧ fact.factId = factId :=
  ⟨List.mem_of_find?_eq_some h, by simpa using List.find?_some h⟩

theorem step_kept (r : PlanRuntime) (s : RelationStore) (op : Op) : Kept s (step r s op) := by
  cases op with
  | observe facts references versions =>
    rw [step, observe]
    split
    · exact ⟨List.prefix_append _ _, fun _ h => h⟩
    · exact Kept.refl s
  | relate edge provenance =>
    rw [step]
    split
    · exact Kept.refl s
    · exact kept_insert s edge _
  | resolve request authorization =>
    rw [step]
    split
    · next result s' hresolve =>
      rcases resolveDerived_cases hresolve with ⟨-, rfl⟩ | ⟨source, target, provenance, -, -, rfl⟩
      · exact Kept.refl _
      · exact kept_insert s _ provenance
    · exact Kept.refl s

theorem run_kept (r : PlanRuntime) (s : RelationStore) (ops : List Op) : Kept s (run (step r) s ops) :=
  run_rel (I := fun _ => True) Kept.refl Kept.trans (fun _ _ _ _ => trivial)
    (fun s op _ _ => step_kept r s op) ops s trivial (along_true _ _)

theorem Linked.insert (h : Linked r s) {edge : EdgeRecord} {provenance : Table RelationProvenance.edgeRef}
    (hedge : derivedMark <+: edge.edgeId.toList → ∃ request, ∃ source ∈ s.planner.facts,
      ∃ target ∈ s.planner.facts, source.factId = request.sourceFactRef ∧
        edge = derivedEdge r request source target ∧ SameIdentity request.resolverRef source target) :
    Linked r (s.withEdges (s.edges.insertOrIgnore edge) provenance) := by
  intro other hother hmark
  rcases Table.mem_insertOrIgnore hother with hother | ⟨rfl, -⟩
  · exact h other hother hmark
  · exact hedge hmark

theorem Linked.step (h : Linked r s) (op : Op) : Linked r (step r s op) := by
  cases op with
  | observe facts references versions =>
    rw [DerivedEdges.step, observe]
    split
    · intro edge hedge hmark
      obtain ⟨request, source, hsource, target, htarget, hrest⟩ := h edge hedge hmark
      exact ⟨request, source, List.mem_append_left _ hsource, target, List.mem_append_left _ htarget, hrest⟩
    · exact h
  | relate edge provenance =>
    rw [DerivedEdges.step]
    split
    · exact h
    · next hmark => exact h.insert fun hderived => absurd hderived hmark
  | resolve request authorization =>
    rw [DerivedEdges.step]
    split
    · next result s' hresolve =>
      rcases resolveDerived_cases hresolve with ⟨-, rfl⟩ | ⟨source, target, provenance, hlink, -, rfl⟩
      · exact h
      · obtain ⟨hsource, hlatest, hidentity, -⟩ := link_some hlink
        obtain ⟨hmem, hid⟩ := getFact_mem hsource
        exact h.insert fun _ => ⟨request, source, hmem, target, (mem_latestOf hlatest).1, hid, rfl, hidentity⟩
    · exact h

/-! ### What is to hold -/

/-- The request is resolved to the object of the fact, which is the latest observation of it. -/
structure ResolvesTo (r : PlanRuntime) (s : RelationStore) (request : DerivedObjectRequest)
    (authorization : AuthorizationEnvelope) (target : FactRecord) (s' : RelationStore) : Prop where
  answered : ∃ edgeRefs, resolveDerived r request authorization s =
    .ok (⟨.resolved, [target.subjectRef], edgeRefs⟩, s')
  latest : target ∈ latestOf s.toVolatileStore (derivedResolvers request.resolverRef).targetNamespace

/-- Where a request is resolved, the target is the one of its identity, and the edge to it is recorded. -/
def Unique (r : PlanRuntime) (s : RelationStore) : Prop :=
  ∀ request authorization result s', resolveDerived r request authorization s = .ok (result, s') →
    result.status = .resolved → ∃ source ∈ s.planner.facts, source.factId = request.sourceFactRef ∧
      ∃ target, ResolvesTo r s request authorization target s' ∧ SameIdentity request.resolverRef source target ∧
        (∀ other ∈ latestOf s.toVolatileStore (derivedResolvers request.resolverRef).targetNamespace,
          SameIdentity request.resolverRef source other → other = target) ∧
        ∃ edge ∈ s'.planner.edges, [edge.edgeId] = result.edgeRefs

/-- What is safe of the relations of a store: each derived edge is of the recorded identity, so is each
    resolution, one that comes again to the same observation adds no edge, and no observation is lost. -/
structure IdentitySafe (r : PlanRuntime) (s : RelationStore) : Prop where
  linked : Linked r s
  unique : Unique r s
  again : ∀ request authorization target s', ResolvesTo r s request authorization target s' →
    ∀ ops request' authorization' s'', request'.resolverRef = request.resolverRef →
      request'.sourceFactRef = request.sourceFactRef →
      ResolvesTo r (run (step r) s' ops) request' authorization' target s'' →
      s''.planner.edges = (run (step r) s' ops).planner.edges
  kept : ∀ ops, s.planner.facts <+: (run (step r) s ops).planner.facts

/-- The fact has no identity field that says otherwise. -/
structure Agrees (fact target : FactRecord) : Prop where
  bootId : ∀ value, stringField fact "bootId" = some value → stringField target "bootId" = some value
  startTicks : ∀ value, integerStringField fact "startTicks" = some value →
    integerStringField target "startTicks" = some value
  pidNamespace : ∀ value, namespaceField fact = some value → namespaceField target = some value

/-- What a resolver that merges the observations of an object would do: a resolution that comes again adds no
    edge, and it comes again as long as no later observation of the target says otherwise. -/
structure Merging (r : PlanRuntime) (s : RelationStore) : Prop where
  unique : Unique r s
  again : ∀ request authorization target s', ResolvesTo r s request authorization target s' →
    ∀ ops authorization' target' s'', target'.subjectRef = target.subjectRef →
      ResolvesTo r (run (step r) s' ops) request authorization' target' s'' →
      s''.planner.edges = (run (step r) s' ops).planner.edges
  kept : ∀ request authorization target s', ResolvesTo r s request authorization target s' →
    ∀ ops, (∀ fact ∈ (run (step r) s' ops).planner.facts, fact.subjectRef = target.subjectRef →
        Agrees fact target) →
      ∃ target' s'', target'.subjectRef = target.subjectRef ∧
        ResolvesTo r (run (step r) s' ops) request authorization target' s''

theorem mem_latest_injOn {s : VolatileStore} {namespace_ : NamespaceName} {a b : FactRecord}
    (ha : a ∈ latestOf s namespace_) (hb : b ∈ latestOf s namespace_) (h : a.subjectRef = b.subjectRef) :
    a = b := List.inj_on_of_nodup_map latestBySubject_keyed ha hb h

/-- The link of a resolution is to its target, and its edge is put. -/
theorem ResolvesTo.exists_link (h : ResolvesTo r s request authorization target s') :
    ∃ source provenance, link r request s.toVolatileStore = some (source, target) ∧
      s' = s.withEdges (s.edges.insertOrIgnore (derivedEdge r request source target)) provenance := by
  obtain ⟨edgeRefs, hanswer⟩ := h.answered
  rcases resolveDerived_cases hanswer with ⟨hstatus, -⟩ | ⟨source, found, provenance, hlink, hresult, hstore⟩
  · exact absurd rfl hstatus
  · have hsubject : target.subjectRef = found.subjectRef := by
      have := congrArg DerivedObjectResult.objectRefs hresult
      exact List.head_eq_of_cons_eq this
    obtain rfl := mem_latest_injOn h.latest (link_some hlink).2.1 hsubject
    exact ⟨source, provenance, hlink, hstore⟩

theorem unique_target (r : PlanRuntime) (s : RelationStore) : Unique r s := by
  intro request authorization result s' hanswer hstatus
  rcases resolveDerived_cases hanswer with ⟨hnot, -⟩ | ⟨source, target, provenance, hlink, rfl, rfl⟩
  · exact absurd hstatus hnot
  · obtain ⟨hsource, hlatest, hidentity, hother⟩ := link_some hlink
    obtain ⟨hmem, hid⟩ := getFact_mem hsource
    obtain ⟨edge, hedge, hkey⟩ := Table.key_mem_insertOrIgnore s.edges (derivedEdge r request source target)
    exact ⟨source, hmem, hid, target, ⟨⟨_, hanswer⟩, hlatest⟩, hidentity, hother, edge, hedge,
      congrArg (fun id => [id]) hkey⟩

/-- An edge that is there is not put again. -/
theorem rows_insertOrIgnore {edges : Table EdgeRecord.edgeId} {edge known : EdgeRecord}
    (hknown : known ∈ edges.rows) (hid : known.edgeId = edge.edgeId) : edges.insertOrIgnore edge = edges := by
  rw [Table.insertOrIgnore, Table.insert?_eq_none.2 ⟨known, hknown, hid⟩, Option.getD_none]

theorem resolved_again {request' : DerivedObjectRequest} {authorization' : AuthorizationEnvelope}
    {s'' : RelationStore} {ops : List Op} (hresolver : request'.resolverRef = request.resolverRef)
    (hsource : request'.sourceFactRef = request.sourceFactRef)
    (h : ResolvesTo r s request authorization target s')
    (h' : ResolvesTo r (run (step r) s' ops) request' authorization' target s'') :
    s''.planner.edges = (run (step r) s' ops).planner.edges := by
  obtain ⟨source, provenance, -, rfl⟩ := h.exists_link
  obtain ⟨source', provenance', -, rfl⟩ := h'.exists_link
  obtain ⟨known, hknown, hkey⟩ := Table.key_mem_insertOrIgnore s.edges (derivedEdge r request source target)
  have hlater := (run_kept r (s.withEdges (s.edges.insertOrIgnore (derivedEdge r request source target))
    provenance) ops).edges known hknown
  have hid : known.edgeId = (derivedEdge r request' source' target).edgeId := by
    rw [hkey]
    simp only [derivedEdge, derivedEdgeId, hresolver, hsource]
  exact congrArg Table.rows (rows_insertOrIgnore hlater hid)

/-- In every run, the relations are of the identities recorded with the latest observations. -/
theorem derived_identitySafe (r : PlanRuntime) (checks : List CheckCategory) (ops : List Op) :
    IdentitySafe r (runOps r checks ops) where
  linked := run_invariant (I := Linked r) (C := fun _ _ => True) (fun _ op hs _ => hs.step op) ops
    (empty checks) (fun _ hedge => by cases hedge) (along_true _ _)
  unique := unique_target r _
  again _ _ _ _ h _ _ _ _ hresolver hsource h' := resolved_again hresolver hsource h h'
  kept later := (run_kept r _ later).facts

/-! ### A process seen again in part -/

/-- The process and the socket it owns. -/
def observedOps : List Op :=
  [.observe [processFact 1 "OBJ-1" "7", socketFact 2 "OBJ-2" "7"] ["OBJ-1", "OBJ-2"] []]

/-- The process again, with its identity and no more. -/
def identityFact : FactRecord :=
  { sampleFact 3 .process "OBJ-1" with
    factId := "FACT-3"
    privatePayload := [("bootId", .str "boot-1"), ("pid", .num 100), ("startTicks", .str "7")] }

def seenAgain : Op := .observe [identityFact] [] []

def ownerRequest : DerivedObjectRequest := ⟨"DERIVE-1", .socketOwnerByPid, "FACT-OBJ-2"⟩

def ownerAuthorization : AuthorizationEnvelope := ⟨["owned_by"], [.socket, .process]⟩

def observed : RelationStore := runOps sampleRuntime [] observedOps

def related : RelationStore := step sampleRuntime observed (.resolve ownerRequest ownerAuthorization)

theorem owner_resolved : ResolvesTo sampleRuntime observed ownerRequest ownerAuthorization
    (processFact 1 "OBJ-1" "7") related := by
  refine ⟨⟨_, rfl⟩, ?_⟩
  decide

theorem identityFact_agrees : Agrees identityFact (processFact 1 "OBJ-1" "7") where
  bootId _ hvalue := hvalue
  startTicks _ hvalue := hvalue
  pidNamespace value hvalue := by
    have hnone : namespaceField identityFact = none := by decide
    rw [hnone] at hvalue
    cases hvalue

theorem owner_unlinked :
    link sampleRuntime ownerRequest (run (step sampleRuntime) related [seenAgain]).toVolatileStore = none := by
  decide

/-- Seen again without its namespace, the process is no longer the owner of the socket. -/
theorem partial_observation_unlinks : ¬ Merging sampleRuntime observed := by
  intro h
  have hfacts : ∀ fact ∈ (run (step sampleRuntime) related [seenAgain]).planner.facts,
      fact.subjectRef = (processFact 1 "OBJ-1" "7").subjectRef → Agrees fact (processFact 1 "OBJ-1" "7") := by
    have hlist : (run (step sampleRuntime) related [seenAgain]).planner.facts =
        [processFact 1 "OBJ-1" "7", socketFact 2 "OBJ-2" "7", identityFact] := rfl
    rw [hlist]
    intro fact hfact hsubject
    simp only [List.mem_cons, List.not_mem_nil, or_false] at hfact
    rcases hfact with rfl | rfl | rfl
    · exact ⟨fun _ h => h, fun _ h => h, fun _ h => h⟩
    · exact absurd hsubject (by decide)
    · exact identityFact_agrees
  obtain ⟨target', s'', -, hagain⟩ := h.kept _ _ _ _ owner_resolved [seenAgain] hfacts
  obtain ⟨source, provenance, hlink, -⟩ := hagain.exists_link
  rw [owner_unlinked] at hlink
  cases hlink

end HuntWarden.DerivedEdges
