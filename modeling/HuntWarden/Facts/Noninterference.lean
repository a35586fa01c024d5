import HuntWarden.Storage.FactRuns

/-! What the model is told does not depend on what the manifest hides. Two histories that differ in the
    values of hidden fields alone, and for hashed fields in values of one digest, lead to stores that
    differ in the private halves of their facts alone; and no query or preview reads those. -/

namespace HuntWarden

open Outcome FactQuery Normalizer Manifest

namespace Manifest

/-- What the model may learn of a field's value. -/
inductive FieldPolicy where
  | hidden | digest | value
  deriving DecidableEq, Repr

/-- Evidence, denied and presence-only fields and secrets are hidden; a secret may be hashed. -/
def ManifestField.policy (field : ManifestField) : FieldPolicy :=
  if field.sensitivity = .evidenceOnly ∨ field.modelExposure = .deny ∨
      field.modelExposure = .presenceOnly then .hidden
  else if field.modelExposure = .hashOnly then .digest
  else if field.sensitivity = .secret then .hidden
  else .value

/-- What identifies an object is shown to the model as it is. -/
theorem policy_identity : ∀ (namespace_ : NamespaceName), ∀ name ∈ identityFields namespace_,
    ((field? namespace_ name).map ManifestField.policy) = some .value := by
  intro namespace_
  cases namespace_ <;> decide

end Manifest

/-- The fact without what the model is never shown. -/
def FactRecord.modelView (fact : FactRecord) : FactRecord :=
  { fact with
    privatePayload := [], payloadDigest := ""
    provenance := { fact.provenance with wireDigest := "" } }

namespace Normalizer

variable (r : Runtime)

/-- What a policy tells of a value is the same. -/
def AlikeUnder (v v' : Json) : FieldPolicy → Prop
  | .hidden => True
  | .digest => r.digestObject v = r.digestObject v'
  | .value => v = v'

/-- Two values of a field, both accepted or both refused, that its policy does not tell apart. -/
def AlikeValue (namespace_ : NamespaceName) (name : String) (v v' : Json) : Prop :=
  ∀ field ∈ field? namespace_ name,
    wellTyped r field.type v = wellTyped r field.type v' ∧ AlikeUnder r v v' field.policy

abbrev AlikeFields (namespace_ : NamespaceName) : Payload → Payload → Prop :=
  OrderedMap.Alike (AlikeValue r namespace_)

structure AlikeObservation (o o' : WireObservation) : Prop where
  same : o' = { o with identity := o'.identity, fields := o'.fields }
  identity : AlikeFields r o.namespace_ o.identity o'.identity
  fields : AlikeFields r o.namespace_ o.fields o'.fields

structure AlikeEndpoint (e e' : WireEndpoint) : Prop where
  same : e'.namespace_ = e.namespace_
  identity : AlikeFields r e.namespace_ e.identity e'.identity

structure AlikeEdge (e e' : WireEdge) : Prop where
  same : e' = { e with fromIdentity := e'.fromIdentity, toIdentity := e'.toIdentity }
  fromIdentity : AlikeEndpoint r e.fromIdentity e'.fromIdentity
  toIdentity : AlikeEndpoint r e.toIdentity e'.toIdentity

/-- Two batches that differ in hidden values alone, and in the digest of the bytes they came in. -/
structure AlikeBatch (input input' : FactBatchInput) : Prop where
  same : input' = { input with
    observations := input'.observations, edges := input'.edges, wireDigest := input'.wireDigest }
  observations : List.Forall₂ (AlikeObservation r) input.observations input'.observations
  edges : List.Forall₂ (AlikeEdge r) input.edges input'.edges

variable {r} {namespace_ : NamespaceName}

theorem AlikeValue.refl (name : String) (v : Json) : AlikeValue r namespace_ name v v := by
  intro field _
  refine ⟨rfl, ?_⟩
  cases field.policy with
  | hidden => trivial
  | digest => rfl
  | value => rfl

theorem AlikeFields.refl (fields : Payload) : AlikeFields r namespace_ fields fields :=
  List.forall₂_same.2 fun _ _ => ⟨rfl, .refl _ _⟩

theorem AlikeBatch.refl (input : FactBatchInput) : AlikeBatch r input input where
  same := rfl
  observations := List.forall₂_same.2 fun _ _ =>
    ⟨rfl, AlikeFields.refl _, AlikeFields.refl _⟩
  edges := List.forall₂_same.2 fun _ _ =>
    ⟨rfl, ⟨rfl, AlikeFields.refl _⟩, ⟨rfl, AlikeFields.refl _⟩⟩

/-! ### Normalizing in lockstep -/

theorem wellTyped_null (type : FieldType) : wellTyped r type .null = false := by
  cases type <;> rfl

/-- Accepted values of one policy look the same to the model. -/
theorem exposed_alike {field : ManifestField} {v v' : Json}
    (hv : wellTyped r field.type v = true) (hv' : wellTyped r field.type v' = true)
    (h : AlikeUnder r v v' field.policy) : exposed r field v = exposed r field v' := by
  have hne : v ≠ .null := fun hnull => by rw [hnull, wellTyped_null] at hv; cases hv
  have hne' : v' ≠ .null := fun hnull => by rw [hnull, wellTyped_null] at hv'; cases hv'
  obtain ⟨type, enumerable, projectable, filterable, sortable, cost, sensitivity, exposure⟩ := field
  cases sensitivity <;> cases exposure <;> simp_all [ManifestField.policy, AlikeUnder, exposed]

/-- The halves of the payloads that the model sees. -/
def AlikePayloads (p p' : Payloads) : Prop :=
  p.modelPayload = p'.modelPayload ∧ p.redactedFields = p'.redactedFields

theorem normalizeFields_alike {fields fields' : Payload} (h : AlikeFields r namespace_ fields fields') :
    Agree AlikePayloads (normalizeFields r namespace_ fields)
      (normalizeFields r namespace_ fields') := by
  induction h with
  | nil => exact ⟨rfl, rfl⟩
  | @cons a b rest rest' hab hrest ih =>
    obtain ⟨name, v⟩ := a
    obtain ⟨name', v'⟩ := b
    obtain ⟨hname, hv⟩ := hab
    obtain rfl : name = name' := hname
    rw [normalizeFields, normalizeFields]
    cases hfield : field? namespace_ name with
    | none => rfl
    | some field =>
      obtain ⟨htyped, hpolicy⟩ := hv field hfield
      simp only [orThrow, bind, Except.bind]
      simp only at htyped hpolicy
      rw [← htyped]
      cases hok : wellTyped r field.type v with
      | false => rfl
      | true =>
        refine ih.bind fun others others' hothers => ⟨?_, ?_⟩
        · simp only [exposed_alike hok (htyped ▸ hok) hpolicy, hothers.1]
        · simp only [hothers.2]

theorem spread_alike : ∀ {right right' left left' : Payload},
    AlikeFields r namespace_ left left' → AlikeFields r namespace_ right right' →
    AlikeFields r namespace_ (spread left right) (spread left' right')
  | _, _, _, _, hleft, .nil => hleft
  | (name, _) :: _, (name', _) :: _, _, _, hleft, .cons ⟨hname, hv⟩ hrest => by
      obtain rfl : name = name' := hname
      have hmerged := spread_alike (hleft.upsert hv) hrest
      exact hmerged

/-- Identities are shown, so they do not differ. -/
theorem stableIdentity_alike {identity identity' : Payload}
    (h : AlikeFields r namespace_ identity identity') : ∀ {names : List String},
    names ⊆ identityFields namespace_ →
    stableIdentity namespace_ identity names = stableIdentity namespace_ identity' names
  | [], _ => rfl
  | name :: names, hnames => by
      obtain ⟨hname, hrest⟩ := List.cons_subset.1 hnames
      have hlookup : identity.lookup name = identity'.lookup name := by
        have hrel := h.lookup name
        obtain ⟨field, hfield, hpolicy⟩ := Option.map_eq_some_iff.1
          (policy_identity namespace_ name hname)
        generalize identity.lookup name = found at hrel ⊢
        generalize identity'.lookup name = found' at hrel ⊢
        cases hrel with
        | none => rfl
        | some hv =>
          have hunder := (hv field hfield).2
          rw [hpolicy] at hunder
          exact congrArg some hunder
      rw [stableIdentity, stableIdentity, hlookup, stableIdentity_alike h hrest]

variable {input input' : FactBatchInput} {lookup : Lookup}

theorem getRef_alike (h : AlikeBatch r input input') {e e' : WireEndpoint} (he : AlikeEndpoint r e e')
    (observedAt : String) (d : Drawing) :
    getRef r input lookup e observedAt d = getRef r input' lookup e' observedAt d := by
  obtain ⟨ns, identity⟩ := e
  obtain ⟨ns', identity'⟩ := e'
  obtain rfl : ns' = ns := he.same
  have hidentity := stableIdentity_alike he.identity (List.Subset.refl _)
  rw [getRef, getRef, h.same]
  simp only [hidentity]

theorem normalizeObservation_alike (h : AlikeBatch r input input') {o o' : WireObservation}
    (ho : AlikeObservation r o o') (d : Drawing) :
    Agree (fun x y => x.1.modelView = y.1.modelView ∧ x.2 = y.2)
      (normalizeObservation r input lookup o d) (normalizeObservation r input' lookup o' d) := by
  have hnamespace : o'.namespace_ = o.namespace_ := by rw [ho.same]
  have hunavailable : o'.unavailableFields = o.unavailableFields := by rw [ho.same]
  have hobserved : o'.observedAt = o.observedAt := by rw [ho.same]
  have hconsistency : o'.consistency = o.consistency := by rw [ho.same]
  have hsubject : getRef r input lookup ⟨o.namespace_, o.identity⟩ o.observedAt d =
      getRef r input' lookup ⟨o'.namespace_, o'.identity⟩ o.observedAt d :=
    getRef_alike h ⟨hnamespace, ho.identity⟩ o.observedAt d
  have hfields := normalizeFields_alike
    (spread_alike (spread_alike .nil ho.identity) ho.fields)
  rw [normalizeObservation, normalizeObservation, hsubject, hobserved, hunavailable, hconsistency,
    hnamespace]
  refine Agree.same fun subject => ?_
  refine hfields.bind fun payloads payloads' hpayloads => ?_
  refine Agree.same fun _ => ?_
  rw [h.same]
  refine ⟨?_, rfl⟩
  simp only [FactRecord.modelView, hpayloads.1, hpayloads.2]

theorem normalizeAll_alike (h : AlikeBatch r input input') : ∀ {os os' : List WireObservation},
    List.Forall₂ (AlikeObservation r) os os' → ∀ d : Drawing,
    Agree (fun x y => x.1.map FactRecord.modelView = y.1.map FactRecord.modelView ∧ x.2 = y.2)
      (normalizeAll r input lookup os d) (normalizeAll r input' lookup os' d)
  | _, _, .nil, d => ⟨rfl, rfl⟩
  | _, _, .cons ho hos, d => by
      refine (normalizeObservation_alike h ho d).bind ?_
      rintro ⟨fact, d₁⟩ ⟨fact', _⟩ ⟨hfact, rfl⟩
      refine (normalizeAll_alike h hos d₁).bind ?_
      rintro ⟨facts, d₂⟩ ⟨facts', _⟩ ⟨hfacts, rfl⟩
      refine ⟨?_, rfl⟩
      simp only at hfact hfacts
      rw [List.map_cons, List.map_cons, hfact, hfacts]

theorem normalizeEdge_alike (h : AlikeBatch r input input') {e e' : WireEdge}
    (he : AlikeEdge r e e') (d : Drawing) :
    normalizeEdge r input lookup e d = normalizeEdge r input' lookup e' d := by
  have hrelation : e'.relation = e.relation := by rw [he.same]
  have hobserved : e'.observedAt = e.observedAt := by rw [he.same]
  rw [normalizeEdge, normalizeEdge, hrelation, hobserved,
    getRef_alike h he.fromIdentity]
  refine congrArg (_ >>= ·) (funext fun ⟨source, d₁⟩ => ?_)
  simp only [getRef_alike h he.toIdentity]
  rw [h.same]

theorem normalizeEdges_alike (h : AlikeBatch r input input') : ∀ {es es' : List WireEdge},
    List.Forall₂ (AlikeEdge r) es es' → ∀ d : Drawing,
    normalizeEdges r input lookup es d = normalizeEdges r input' lookup es' d
  | _, _, .nil, _ => rfl
  | _, _, .cons he hes, d => by
      rw [normalizeEdges, normalizeEdges, normalizeEdge_alike h he]
      refine congrArg (_ >>= ·) (funext fun record => ?_)
      simp only [normalizeEdges_alike h hes]

/-- Batches that differ in what is hidden are prepared alike, and refused alike. -/
theorem prepareFactBatch_alike (h : AlikeBatch r input input') (drawn : ℕ) :
    Agree (fun x y => x.1.facts.map FactRecord.modelView = y.1.facts.map FactRecord.modelView ∧
        x.1.refs = y.1.refs ∧ x.1.edges = y.1.edges ∧ x.2 = y.2)
      (prepareFactBatch r input lookup drawn) (prepareFactBatch r input' lookup drawn) := by
  have hlength : input'.observations.length = input.observations.length :=
    h.observations.length_eq.symm
  have hsource : input'.source = input.source := by rw [h.same]
  rw [prepareFactBatch, prepareFactBatch, hlength, hsource]
  refine Agree.same fun _ => Agree.same fun _ => ?_
  refine (normalizeAll_alike h h.observations ⟨[], drawn⟩).bind ?_
  rintro ⟨facts, d⟩ ⟨facts', _⟩ ⟨hfacts, rfl⟩
  simp only [normalizeEdges_alike h h.edges]
  exact Agree.same fun _ => ⟨hfacts, rfl, rfl, rfl⟩

end Normalizer

/-! ### Queries read the model's view -/

namespace FactQuery

variable {r : Runtime} {digestAst : FactQueryAst → String} {ast : FactQueryAst}

@[simp] theorem get?_modelView (fact : FactRecord) (field : String) :
    fact.modelView.get? field = fact.get? field := rfl

theorem sortFacts_modelView (order : List OrderBy) (facts : List FactRecord) :
    sortFacts r order (facts.map FactRecord.modelView) =
      (sortFacts r order facts).map FactRecord.modelView :=
  (List.map_insertionSort _ _ FactRecord.modelView facts fun _ _ _ _ => Iff.rfl).symm

theorem filter_modelView {p : FactRecord → Bool} (hp : ∀ fact, p fact.modelView = p fact)
    (facts : List FactRecord) :
    (facts.map FactRecord.modelView).filter p = (facts.filter p).map FactRecord.modelView := by
  rw [List.filter_map]
  exact congrArg _ (List.filter_congr fun fact _ => hp fact)

theorem fromCursor_modelView (cursor : Option QueryCursor) (facts : List FactRecord) :
    fromCursor r ast cursor (facts.map FactRecord.modelView) =
      (fromCursor r ast cursor facts).map FactRecord.modelView := by
  rcases cursor with _ | cursor
  · exact sortFacts_modelView _ facts
  · unfold fromCursor
    by_cases hmode : cursor.mode = some .remaining
    · simp only [if_pos hmode, List.map_filterMap, List.find?_map]
      rfl
    · simp only [if_neg hmode]
      rw [filter_modelView fun _ => rfl, sortFacts_modelView]

theorem nextCursor_modelView (taskId epochId : String) (snapshotMax : ℕ)
    (candidates selected : List FactRecord) :
    nextCursor digestAst taskId epochId ast snapshotMax (candidates.map FactRecord.modelView)
        (selected.map FactRecord.modelView) =
      nextCursor digestAst taskId epochId ast snapshotMax candidates selected := by
  unfold nextCursor
  rw [List.getLast?_map]
  cases selected.getLast? with
  | none => rfl
  | some last =>
    simp only [Option.map_some, List.length_map, ← List.map_drop, List.map_map]
    rfl

theorem pageResult_modelView (taskId epochId : String) (snapshotMax : ℕ)
    (candidates : List FactRecord) (refs : PageRefs) :
    pageResult digestAst taskId epochId ast snapshotMax (candidates.map FactRecord.modelView) refs =
      pageResult digestAst taskId epochId ast snapshotMax candidates refs := by
  simp only [pageResult, ← List.map_take, nextCursor_modelView, List.length_map, List.map_map]
  rfl

theorem runFactQuery_modelView (taskId epochId : String) (facts : List FactRecord)
    (snapshotMax : ℕ) (cursor : Option QueryCursor) (refs : PageRefs) :
    runFactQuery r digestAst taskId epochId ast (facts.map FactRecord.modelView) snapshotMax cursor
        refs =
      runFactQuery r digestAst taskId epochId ast facts snapshotMax cursor refs := by
  simp only [runFactQuery]
  rw [filter_modelView fun _ => rfl, fromCursor_modelView, pageResult_modelView]

end FactQuery

/-! ### Stores in lockstep -/

namespace FactStore

variable {env : FactEnv} {s s' : FactStore}

/-- Two stores that differ in the private halves of their facts alone. -/
structure SameView (s s' : FactStore) : Prop where
  facts : s.facts.rows.map FactRecord.modelView = s'.facts.rows.map FactRecord.modelView
  epochs : s.epochs = s'.epochs
  refs : s.refs = s'.refs
  edges : s.edges = s'.edges
  viewRows : s.viewRows = s'.viewRows
  cursors : s.cursors = s'.cursors
  snapshots : s.snapshots = s'.snapshots
  drawn : s.drawn = s'.drawn

theorem SameView.refl (s : FactStore) : SameView s s := ⟨rfl, rfl, rfl, rfl, rfl, rfl, rfl, rfl⟩

theorem maxSeq_modelView (facts : List FactRecord) :
    maxSeq (facts.map FactRecord.modelView) = maxSeq facts := by
  rw [maxSeq, List.map_map]
  rfl

theorem bySeq_modelView (facts : List FactRecord) :
    bySeq (facts.map FactRecord.modelView) = (bySeq facts).map FactRecord.modelView :=
  (List.map_insertionSort _ _ FactRecord.modelView facts fun _ _ _ _ => Iff.rfl).symm

theorem SameView.filter (h : SameView s s') {p : FactRecord → Bool}
    (hp : ∀ fact, p fact.modelView = p fact) :
    (s.facts.rows.filter p).map FactRecord.modelView =
      (s'.facts.rows.filter p).map FactRecord.modelView := by
  rw [← filter_modelView hp, h.facts, filter_modelView hp]

theorem SameView.maxFactSeq (h : SameView s s') (taskId epochId : String) :
    s.maxFactSeq taskId epochId = s'.maxFactSeq taskId epochId := by
  rw [FactStore.maxFactSeq, ← maxSeq_modelView, h.filter fun _ => rfl, maxSeq_modelView]
  rfl

theorem SameView.findCursor (h : SameView s s') (taskId epochId : String) (ast : FactQueryAst) :
    s.findCursor taskId epochId ast = s'.findCursor taskId epochId ast := by
  rw [FactStore.findCursor, h.cursors]
  rfl

theorem SameView.listFacts (h : SameView s s') (taskId epochId : String)
    (options : ListFactsOptions) :
    Agree (fun facts facts' => facts.map FactRecord.modelView = facts'.map FactRecord.modelView)
      (s.listFacts taskId epochId options) (s'.listFacts taskId epochId options) := by
  refine Agree.same fun _ => ?_
  have hrows : (bySeq (s.facts.rows.filter (options.admits taskId epochId))).map
      FactRecord.modelView = (bySeq (s'.facts.rows.filter (options.admits taskId epochId))).map
      FactRecord.modelView := by
    rw [← bySeq_modelView, h.filter fun _ => rfl, bySeq_modelView]
  cases options.limit with
  | none => exact hrows
  | some limit =>
    simp only [Agree, pure, Except.pure, Option.elim_some]
    rw [List.map_take, hrows, List.map_take]

theorem SameView.modelViewRows (h : SameView s s') (taskId epochId : String) (view : View) :
    s.modelViewRows taskId epochId view = s'.modelViewRows taskId epochId view := by
  cases view <;> simp only [FactStore.modelViewRows, listEdges, h.edges, h.viewRows]

/-- A page, its snapshot and its cursor are the same in both stores. -/
theorem SameView.prepareQueryFacts (h : SameView s s') (taskId epochId : String)
    (ast : FactQueryAst) :
    s.prepareQueryFacts env taskId epochId ast = s'.prepareQueryFacts env taskId epochId ast := by
  rw [FactStore.prepareQueryFacts, FactStore.prepareQueryFacts, h.findCursor, h.maxFactSeq,
    h.modelViewRows, pageRefs, pageRefs, h.drawn]
  refine congrArg (_ >>= ·) (funext fun cursor => ?_)
  simp only
  split
  · refine agree_eq.1 ((h.listFacts taskId epochId _).bind fun facts facts' hfacts => ?_)
    rw [agree_eq, ← runFactQuery_modelView taskId epochId facts, hfacts, runFactQuery_modelView]
  · rfl

theorem SameView.keepResult (h : SameView s s') (taskId epochId : String) (result : QueryResult) :
    Agree SameView (s.keepResult taskId epochId result) (s'.keepResult taskId epochId result) := by
  rw [FactStore.keepResult, FactStore.keepResult, h.snapshots, h.cursors, h.drawn]
  refine Agree.same fun snapshots => Agree.same fun cursors => ?_
  exact ⟨h.facts, h.epochs, h.refs, h.edges, h.viewRows, rfl, rfl, rfl⟩

theorem SameView.queryFacts (h : SameView s s') (env : FactEnv) (taskId epochId : String) (ast : FactQueryAst) :
    Agree (fun x y => SameView x.1 y.1 ∧ x.2 = y.2) (s.queryFacts env taskId epochId ast)
      (s'.queryFacts env taskId epochId ast) := by
  rw [FactStore.queryFacts, FactStore.queryFacts, h.prepareQueryFacts]
  refine Agree.same fun result => ?_
  exact (h.keepResult taskId epochId result).bind fun kept kept' hkept => ⟨hkept, rfl⟩

theorem SameView.previewQueryFacts (h : SameView s s') (taskId epochId : String)
    (ast : FactQueryAst) :
    s.previewQueryFacts env taskId epochId ast = s'.previewQueryFacts env taskId epochId ast := by
  rw [FactStore.previewQueryFacts, FactStore.previewQueryFacts, h.prepareQueryFacts]

/-! ### Writing in lockstep -/

theorem numbered_modelView : ∀ (nextSeq : ℕ) (facts : List FactRecord),
    (numbered nextSeq facts).map FactRecord.modelView =
      numbered nextSeq (facts.map FactRecord.modelView)
  | _, [] => rfl
  | nextSeq, _ :: rest => congrArg (_ :: ·) (numbered_modelView (nextSeq + 1) rest)

/-- Whether a fact can be inserted depends on its keys, which the model sees. -/
theorem insertFact_alike {facts facts' : IndexedTable FactRecord.factSeq FactRecord.factId}
    (hfacts : facts.rows.map FactRecord.modelView = facts'.rows.map FactRecord.modelView)
    {fact fact' : FactRecord} (hfact : fact.modelView = fact'.modelView) (error : Thrown) :
    Agree (fun t t' => t.rows.map FactRecord.modelView = t'.rows.map FactRecord.modelView)
      (orThrow (facts.insert? fact) error) (orThrow (facts'.insert? fact') error) := by
  have hseq : fact.factSeq = fact'.factSeq :=
    (congrArg FactRecord.factSeq hfact : fact.modelView.factSeq = fact'.modelView.factSeq)
  have hid : fact.factId = fact'.factId :=
    (congrArg FactRecord.factId hfact : fact.modelView.factId = fact'.modelView.factId)
  have hfree : ∀ rows : List FactRecord,
      (∀ x ∈ rows, x.factSeq ≠ fact'.factSeq ∧ x.factId ≠ fact'.factId) ↔
        ∀ x ∈ rows.map FactRecord.modelView, x.factSeq ≠ fact'.factSeq ∧ x.factId ≠ fact'.factId := by
    intro rows
    rw [List.forall_mem_map]
    rfl
  rw [IndexedTable.insert?, IndexedTable.insert?]
  by_cases h : ∀ x ∈ facts'.rows, x.factSeq ≠ fact'.factSeq ∧ x.factId ≠ fact'.factId
  · have h' : ∀ x ∈ facts.rows, x.factSeq ≠ fact.factSeq ∧ x.factId ≠ fact.factId := by
      rw [hseq, hid, hfree, hfacts, ← hfree]
      exact h
    rw [dif_pos h, dif_pos h']
    simp only [orThrow, Agree, List.map_append, List.map_singleton, hfacts, hfact]
  · have h' : ¬ ∀ x ∈ facts.rows, x.factSeq ≠ fact.factSeq ∧ x.factId ≠ fact.factId := by
      rw [hseq, hid, hfree, hfacts, ← hfree]
      exact h
    rw [dif_neg h, dif_neg h']
    rfl

theorem insertFacts_alike : ∀ {prepared prepared' : List FactRecord} (nextSeq : ℕ)
    {facts facts' : IndexedTable FactRecord.factSeq FactRecord.factId},
    prepared.map FactRecord.modelView = prepared'.map FactRecord.modelView →
    facts.rows.map FactRecord.modelView = facts'.rows.map FactRecord.modelView →
    Agree (fun t t' => t.rows.map FactRecord.modelView = t'.rows.map FactRecord.modelView)
      (insertFacts facts nextSeq prepared) (insertFacts facts' nextSeq prepared')
  | [], [], _, _, _, _, hfacts => hfacts
  | [], _ :: _, _, _, _, h, _ => by simp at h
  | _ :: _, [], _, _, _, h, _ => by simp at h
  | fact :: _, fact' :: _, nextSeq, _, _, h, hfacts => by
      obtain ⟨hfact, hrest⟩ := List.cons.inj h
      have hnumbered : { fact with factSeq := nextSeq }.modelView =
          { fact' with factSeq := nextSeq }.modelView :=
        congrArg (fun view : FactRecord => { view with factSeq := nextSeq }) hfact
      rw [insertFacts, insertFacts]
      exact (insertFact_alike hfacts hnumbered _).bind fun t t' ht =>
        insertFacts_alike (nextSeq + 1) hrest ht

theorem SameView.commitFactBatch (h : SameView s s') {input input' : FactBatchInput}
    (hinput : AlikeBatch env.normalizer input input') :
    Agree SameView (s.commitFactBatch env input) (s'.commitFactBatch env input') := by
  have htask : input'.taskId = input.taskId := by rw [hinput.same]
  have hepoch : input'.epochId = input.epochId := by rw [hinput.same]
  have htarget : input'.targetFingerprint = input.targetFingerprint := by rw [hinput.same]
  have hlookup : s.findObjectReferenceByIdentity = s'.findObjectReferenceByIdentity := by
    funext taskId epochId namespace_ digest
    simp only [findObjectReferenceByIdentity, h.refs]
  have hseq : maxSeq s.facts.rows = maxSeq s'.facts.rows := by
    rw [← maxSeq_modelView, h.facts, maxSeq_modelView]
  rw [FactStore.commitFactBatch, FactStore.commitFactBatch, htask, hepoch, htarget, hlookup, hseq,
    h.epochs, h.refs, h.edges, h.drawn]
  refine Agree.same fun epoch => Agree.same fun _ => ?_
  refine (prepareFactBatch_alike hinput _).bind ?_
  rintro ⟨prepared, drawn⟩ ⟨prepared', _⟩ ⟨hfacts, hrefs, hedges, rfl⟩
  simp only at hfacts hrefs hedges ⊢
  refine (insertFacts_alike _ hfacts h.facts).bind fun facts facts' hinserted => ?_
  rw [hrefs, hedges]
  refine Agree.same fun edges => ?_
  exact ⟨hinserted, rfl, rfl, rfl, h.viewRows, h.cursors, h.snapshots, rfl⟩

/-! ### Noninterference -/

/-- The same operation, up to what is hidden in a batch. -/
inductive AlikeOp (r : Normalizer.Runtime) : FactOp → FactOp → Prop where
  | same (op : FactOp) : AlikeOp r op op
  | commitFactBatch {input input' : FactBatchInput} (h : AlikeBatch r input input') :
      AlikeOp r (.commitFactBatch input) (.commitFactBatch input')

theorem step_alike (h : SameView s s') {op op' : FactOp} (hop : AlikeOp env.normalizer op op') :
    SameView (step env s op) (step env s' op') := by
  cases hop with
  | commitFactBatch hinput => exact (h.commitFactBatch hinput).transact h
  | same op =>
    cases op with
    | createScanEpoch epoch =>
      refine Agree.transact ?_ h
      rw [createScanEpoch, createScanEpoch, h.epochs]
      exact Agree.same fun epochs => ⟨h.facts, rfl, h.refs, h.edges, h.viewRows, h.cursors,
        h.snapshots, h.drawn⟩
    | finishScanEpoch taskId epochId status =>
      refine Agree.transact ?_ h
      rw [finishScanEpoch, finishScanEpoch, h.epochs]
      refine Agree.same fun epoch => ?_
      by_cases hrunning : epoch.status = .running
      · simp only [if_pos hrunning]
        exact ⟨h.facts, rfl, h.refs, h.edges, h.viewRows, h.cursors, h.snapshots, h.drawn⟩
      · simp only [if_neg hrunning]
        exact h
    | commitFactBatch input => exact (h.commitFactBatch (.refl input)).transact h
    | queryFacts taskId epochId ast =>
      refine Agree.transact ?_ h
      exact (h.queryFacts env taskId epochId ast).bind fun x y hxy => hxy.1
    | previewQueryFacts taskId epochId ast =>
      exact ⟨h.facts, h.epochs, h.refs, h.edges, h.viewRows, h.cursors, h.snapshots,
        congrArg (· + 1) h.drawn⟩
    | putViewRows view taskId epochId rows =>
      refine ⟨h.facts, h.epochs, h.refs, h.edges, ?_, h.cursors, h.snapshots, h.drawn⟩
      simp only [step, putViewRows, h.viewRows]

/-- What the model is told in answer to an operation. -/
def told (env : FactEnv) (s : FactStore) : FactOp → Option (Except Thrown FactQueryPage)
  | .queryFacts taskId epochId ast => some (do
      let (_, page) ← s.queryFacts env taskId epochId ast
      return page)
  | .previewQueryFacts taskId epochId ast => some (s.previewQueryFacts env taskId epochId ast)
  | _ => none

theorem told_alike (h : SameView s s') {op op' : FactOp} (hop : AlikeOp env.normalizer op op') :
    told env s op = told env s' op' := by
  cases hop with
  | commitFactBatch hinput => rfl
  | same op =>
    cases op with
    | queryFacts taskId epochId ast =>
      refine congrArg some (agree_eq.1 ?_)
      refine (h.queryFacts env taskId epochId ast).bind ?_
      rintro ⟨kept, page⟩ ⟨kept', _⟩ ⟨-, rfl⟩
      rfl
    | previewQueryFacts taskId epochId ast =>
      exact congrArg some (h.previewQueryFacts taskId epochId ast)
    | _ => rfl

/-- Noninterference of the model plane. Along two histories that differ in hidden values alone, and in
    hashed values of one digest, the model is told the same; and whatever it asks of the two stores,
    with any cursor, as a query or as a preview, it gets the same page or the same refusal. -/
theorem model_plane_noninterference (env : FactEnv) (ops ops' : List FactOp)
    (h : List.Forall₂ (AlikeOp env.normalizer) ops ops') :
    let s := Runs.run (step env) empty ops
    let s' := Runs.run (step env) empty ops'
    Runs.emitted (step env) (told env) empty ops = Runs.emitted (step env) (told env) empty ops' ∧
    ∀ (taskId epochId : String) (ast : FactQueryAst),
      (s.queryFacts env taskId epochId ast).map Prod.snd =
          (s'.queryFacts env taskId epochId ast).map Prod.snd ∧
        s.previewQueryFacts env taskId epochId ast =
          s'.previewQueryFacts env taskId epochId ast := by
  intro s s'
  have hstep : ∀ t t' op op', SameView t t' → AlikeOp env.normalizer op op' →
      SameView (step env t op) (step env t' op') := fun _ _ _ _ ht hop => step_alike ht hop
  have hout : ∀ t t' op op', SameView t t' → AlikeOp env.normalizer op op' →
      told env t op = told env t' op' := fun _ _ _ _ ht hop => told_alike ht hop
  obtain ⟨hview, htold⟩ := Runs.run_lockstep hstep hout h (.refl empty)
  refine ⟨htold, fun taskId epochId ast => ⟨?_, hview.previewQueryFacts taskId epochId ast⟩⟩
  have hquery := hview.queryFacts env taskId epochId ast
  cases hs : s.queryFacts env taskId epochId ast with
  | error e =>
    cases hs' : s'.queryFacts env taskId epochId ast with
    | error e' => rw [hs, hs'] at hquery; exact congrArg Except.error hquery
    | ok y => rw [hs, hs'] at hquery; exact hquery.elim
  | ok x =>
    cases hs' : s'.queryFacts env taskId epochId ast with
    | error e' => rw [hs, hs'] at hquery; exact hquery.elim
    | ok y => rw [hs, hs'] at hquery; exact congrArg Except.ok hquery.2

/-- One account, whose password hash the manifest hides. -/
def sampleHistory (passwordHash : String) : List FactOp :=
  [.createScanEpoch sampleEpoch, .commitFactBatch (sampleBatch [sampleAccount 0 "root" passwordHash])]

def accountQuery : FactQueryAst where
  view := .facts
  namespace_ := some .account
  predicate := some (.leaf .eq "shell" (some (.str "/bin/sh")))
  select := ["factId", "payload", "redactedFields"]
  limit := 10

theorem model_plane_noninterference_sample :
    (Runs.run (step sampleEnv) empty (sampleHistory "*")).facts.rows.map (·.privatePayload) ≠
        (Runs.run (step sampleEnv) empty (sampleHistory "$6$")).facts.rows.map (·.privatePayload) ∧
      (Runs.run (step sampleEnv) empty (sampleHistory "*")).previewQueryFacts sampleEnv "TASK-1"
          "EPOCH-1" accountQuery =
        (Runs.run (step sampleEnv) empty (sampleHistory "$6$")).previewQueryFacts sampleEnv "TASK-1"
          "EPOCH-1" accountQuery := by
  have hash : AlikeFields sampleEnv.normalizer .account
      (sampleAccount 0 "root" "*").fields (sampleAccount 0 "root" "$6$").fields :=
    .cons ⟨rfl, .refl _ _⟩ (.cons ⟨rfl, fun _ h => by cases h; exact ⟨rfl, trivial⟩⟩ .nil)
  have hbatch : AlikeBatch sampleEnv.normalizer (sampleBatch [sampleAccount 0 "root" "*"])
      (sampleBatch [sampleAccount 0 "root" "$6$"]) :=
    ⟨rfl, .cons ⟨rfl, AlikeFields.refl _, hash⟩ .nil, .nil⟩
  have hsame := model_plane_noninterference sampleEnv (sampleHistory "*") (sampleHistory "$6$")
    (.cons (.same _) (.cons (.commitFactBatch hbatch) .nil))
  exact ⟨by decide, (hsame.2 "TASK-1" "EPOCH-1" accountQuery).2⟩

end FactStore

end HuntWarden
