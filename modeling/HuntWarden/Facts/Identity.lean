import HuntWarden.Facts.Normalizer

/-! Which references the facts of a batch get. A reference that is created is new, there is one for each
    identity that has none yet, and the subject of every fact is a reference of its own namespace and of
    the identity that was observed. -/

namespace HuntWarden.Normalizer

open Outcome Manifest

/-- `getRef` finds an object under its namespace and the digest of its identity. -/
def ObjectReference.objectKey (ref : ObjectReference) : NamespaceName × String :=
  (ref.namespace_, ref.stableIdentityDigest)

variable (r : Runtime) (input : FactBatchInput) (lookup : Lookup)

/-- What is found has the identity that was asked for. -/
def Lookup.Sound : Prop :=
  ∀ namespace_ digest ref, lookup namespace_ digest = some ref →
    ref.namespace_ = namespace_ ∧ ref.stableIdentityDigest = digest

/-- The references created since `drawn` ids were drawn. -/
structure Drawn (drawn : ℕ) (d : Drawing) : Prop where
  le : drawn ≤ d.drawn
  fresh : ∀ ref ∈ d.created, ∃ n, drawn ≤ n ∧ n < d.drawn ∧ ref.ref = r.ids.createId .objectRef n
  scope : ∀ ref ∈ d.created, ref.taskId = input.taskId ∧ ref.epochId = input.epochId
  digest : ∀ ref ∈ d.created,
    ref.stableIdentityDigest = identityDigest r ref.namespace_ ref.stableIdentity
  unknown : ∀ ref ∈ d.created, lookup ref.namespace_ ref.stableIdentityDigest = none
  refs : (d.created.map (·.ref)).Nodup
  keys : (d.created.map ObjectReference.objectKey).Nodup

/-- A reference that was created or found. -/
def Known (created : List ObjectReference) (ref : ObjectReference) : Prop :=
  ref ∈ created ∨ lookup ref.namespace_ ref.stableIdentityDigest = some ref

/-- The identity of the object of an observation. -/
def observedIdentity (observation : WireObservation) : Payload :=
  ((stableIdentity observation.namespace_ observation.identity
    (identityFields observation.namespace_)).toOption).getD []

/-- The subject of a fact is the reference of what was observed. -/
structure NamedBy (created : List ObjectReference) (fact : FactRecord) (observation : WireObservation)
    (ref : ObjectReference) : Prop where
  known : Known lookup created ref
  subject : fact.subjectRef = ref.ref
  namespace_ : ref.namespace_ = fact.namespace_
  identity : ref.stableIdentityDigest =
    identityDigest r fact.namespace_ (observedIdentity observation)
  task : fact.taskId = input.taskId
  epoch : fact.epochId = input.epochId

/-- The two ends of an edge are references that were created or found. -/
structure Joined (created : List ObjectReference) (edge : EdgeRecord) : Prop where
  source : ∃ ref, Known lookup created ref ∧ edge.fromRef = ref.ref
  target : ∃ ref, Known lookup created ref ∧ edge.toRef = ref.ref

variable {r input lookup} {drawn : ℕ} {d d' : Drawing}

theorem drawn_start (drawn : ℕ) : Drawn r input lookup drawn ⟨[], drawn⟩ where
  le := Nat.le_refl drawn
  fresh := by simp
  scope := by simp
  digest := by simp
  unknown := by simp
  refs := by simp
  keys := by simp

theorem Drawn.later (h : Drawn r input lookup drawn d) {drawn' : ℕ} (hle : d.drawn ≤ drawn') :
    Drawn r input lookup drawn ⟨d.created, drawn'⟩ where
  le := h.le.trans hle
  fresh ref hmem := by
    obtain ⟨n, hn, hlt, href⟩ := h.fresh ref hmem
    exact ⟨n, hn, hlt.trans_le hle, href⟩
  scope := h.scope
  digest := h.digest
  unknown := h.unknown
  refs := h.refs
  keys := h.keys

theorem Known.mono {created created' : List ObjectReference} {ref : ObjectReference}
    (h : Known lookup created ref) (hsub : created ⊆ created') : Known lookup created' ref :=
  h.imp_left fun hmem => hsub hmem

theorem NamedBy.mono {created created' : List ObjectReference} {fact : FactRecord}
    {observation : WireObservation} {ref : ObjectReference}
    (h : NamedBy r input lookup created fact observation ref) (hsub : created ⊆ created') :
    NamedBy r input lookup created' fact observation ref :=
  { h with known := h.known.mono hsub }

/-- A reference found or created has the namespace and the identity of the endpoint. -/
theorem getRef_ok (hlookup : lookup.Sound) {endpoint : WireEndpoint} {observedAt : String}
    {ref : ObjectReference} (hd : Drawn r input lookup drawn d)
    (h : getRef r input lookup endpoint observedAt d = .ok (ref, d')) :
    Drawn r input lookup drawn d' ∧ d.created ⊆ d'.created ∧ Known lookup d'.created ref ∧
      ref.namespace_ = endpoint.namespace_ ∧ ∃ identity, stableIdentity endpoint.namespace_
        endpoint.identity (identityFields endpoint.namespace_) = .ok identity ∧
        ref.stableIdentityDigest = identityDigest r endpoint.namespace_ identity := by
  obtain ⟨identity, hidentity, h⟩ := bind_ok.1 h
  dsimp only at h
  cases hknown : d.created.find? fun ref => ref.namespace_ = endpoint.namespace_ ∧
      ref.stableIdentityDigest = identityDigest r endpoint.namespace_ identity with
  | some existing =>
    rw [hknown, Option.some_or] at h
    cases h
    have hsame := List.find?_some hknown
    have hboth := of_decide_eq_true hsame
    exact ⟨hd, fun _ h => h, Or.inl (List.mem_of_find?_eq_some hknown), hboth.1, identity, hidentity,
      hboth.2⟩
  | none =>
    rw [hknown, Option.none_or] at h
    cases hfound : lookup endpoint.namespace_ (identityDigest r endpoint.namespace_ identity) with
    | some existing =>
      rw [hfound] at h
      cases h
      obtain ⟨hns, hdigest⟩ := hlookup _ _ _ hfound
      refine ⟨hd, fun _ h => h, Or.inr ?_, hns, identity, hidentity, hdigest⟩
      rw [hns, hdigest]
      exact hfound
    | none =>
      rw [hfound] at h
      obtain ⟨_, -, h⟩ := bind_ok.1 h
      cases h
      have hnew : ∀ ref ∈ d.created, ObjectReference.objectKey ref ≠
          (endpoint.namespace_, identityDigest r endpoint.namespace_ identity) := by
        intro ref hmem heq
        obtain ⟨hns, hdigest⟩ := Prod.mk.inj heq
        have hno := List.find?_eq_none.1 hknown ref hmem
        simp [hns, hdigest] at hno
      refine ⟨⟨?_, ?_, ?_, ?_, ?_, ?_, ?_⟩, ?_, ?_, rfl, identity, hidentity, rfl⟩
      · exact hd.le.trans (Nat.le_succ _)
      · intro ref hmem
        rcases List.mem_append.1 hmem with hold | hnew
        · obtain ⟨n, hn, hlt, href⟩ := hd.fresh ref hold
          exact ⟨n, hn, hlt.trans (Nat.lt_succ_self _), href⟩
        · obtain rfl := List.mem_singleton.1 hnew
          exact ⟨d.drawn, hd.le, Nat.lt_succ_self _, rfl⟩
      · intro ref hmem
        rcases List.mem_append.1 hmem with hold | hnew
        · exact hd.scope ref hold
        · obtain rfl := List.mem_singleton.1 hnew
          exact ⟨rfl, rfl⟩
      · intro ref hmem
        rcases List.mem_append.1 hmem with hold | hnew
        · exact hd.digest ref hold
        · obtain rfl := List.mem_singleton.1 hnew
          rfl
      · intro ref hmem
        rcases List.mem_append.1 hmem with hold | hnew
        · exact hd.unknown ref hold
        · obtain rfl := List.mem_singleton.1 hnew
          exact hfound
      · rw [List.map_append, List.map_singleton, List.nodup_append_comm, List.singleton_append,
          List.nodup_cons]
        refine ⟨fun hmem => ?_, hd.refs⟩
        obtain ⟨ref, hold, heq⟩ := List.mem_map.1 hmem
        obtain ⟨n, -, hlt, href⟩ := hd.fresh ref hold
        have hn : n = d.drawn := r.ids.injective _ (href.symm.trans heq)
        omega
      · rw [List.map_append, List.map_singleton, List.nodup_append_comm, List.singleton_append,
          List.nodup_cons]
        refine ⟨fun hmem => ?_, hd.keys⟩
        obtain ⟨ref, hold, heq⟩ := List.mem_map.1 hmem
        exact hnew ref hold heq
      · exact List.subset_append_left _ _
      · exact Or.inl (List.mem_append_right _ List.mem_cons_self)

theorem normalizeObservation_ok (hlookup : lookup.Sound) {observation : WireObservation}
    {fact : FactRecord} (hd : Drawn r input lookup drawn d)
    (h : normalizeObservation r input lookup observation d = .ok (fact, d')) :
    Drawn r input lookup drawn d' ∧ d.created ⊆ d'.created ∧
      ∃ ref, NamedBy r input lookup d'.created fact observation ref := by
  obtain ⟨⟨subject, d₁⟩, hsubject, h⟩ := bind_ok.1 h
  obtain ⟨_, -, h⟩ := bind_ok.1 h
  obtain ⟨_, -, h⟩ := bind_ok.1 h
  cases h
  obtain ⟨hd₁, hsub, hknown, hns, identity, hidentity, hdigest⟩ := getRef_ok hlookup hd hsubject
  refine ⟨hd₁.later (Nat.le_succ _), hsub, subject, ⟨hknown, rfl, hns, ?_, rfl, rfl⟩⟩
  rw [hdigest, observedIdentity, hidentity]
  rfl

theorem normalizeAll_ok (hlookup : lookup.Sound) {observations : List WireObservation}
    {facts : List FactRecord} (hd : Drawn r input lookup drawn d)
    (h : normalizeAll r input lookup observations d = .ok (facts, d')) :
    Drawn r input lookup drawn d' ∧ d.created ⊆ d'.created ∧
      List.Forall₂ (fun fact observation =>
        ∃ ref, NamedBy r input lookup d'.created fact observation ref) facts observations := by
  induction observations generalizing d facts with
  | nil =>
    cases h
    exact ⟨hd, fun _ h => h, .nil⟩
  | cons observation rest ih =>
    obtain ⟨⟨fact, d₁⟩, hfact, h⟩ := bind_ok.1 h
    obtain ⟨⟨others, d₂⟩, hothers, h⟩ := bind_ok.1 h
    cases h
    obtain ⟨hd₁, hsub, ref, hnamed⟩ := normalizeObservation_ok hlookup hd hfact
    obtain ⟨hd₂, hsub', hrest⟩ := ih hd₁ hothers
    exact ⟨hd₂, List.Subset.trans hsub hsub', .cons ⟨ref, hnamed.mono hsub'⟩ hrest⟩

theorem normalizeEdges_ok (hlookup : lookup.Sound) {edges : List WireEdge} {records : List EdgeRecord}
    (hd : Drawn r input lookup drawn d)
    (h : normalizeEdges r input lookup edges d = .ok (records, d')) :
    Drawn r input lookup drawn d' ∧ d.created ⊆ d'.created ∧
      ∀ edge ∈ records, Joined lookup d'.created edge := by
  induction edges generalizing d records with
  | nil =>
    cases h
    exact ⟨hd, fun _ h => h, by simp⟩
  | cons edge rest ih =>
    obtain ⟨⟨record, d₁⟩, hedge, h⟩ := bind_ok.1 h
    obtain ⟨⟨others, d₂⟩, hothers, h⟩ := bind_ok.1 h
    cases h
    obtain ⟨⟨source, e₁⟩, hsource, hedge⟩ := bind_ok.1 hedge
    obtain ⟨⟨target, e₂⟩, htarget, hedge⟩ := bind_ok.1 hedge
    obtain ⟨_, -, hedge⟩ := bind_ok.1 hedge
    cases hedge
    obtain ⟨he₁, hsub₁, hfrom, -⟩ := getRef_ok hlookup hd hsource
    obtain ⟨he₂, hsub₂, hto, -⟩ := getRef_ok hlookup he₁ htarget
    obtain ⟨hd₂, hsub₃, hrest⟩ := ih (he₂.later (Nat.le_succ _)) hothers
    refine ⟨hd₂, List.Subset.trans hsub₁ (List.Subset.trans hsub₂ hsub₃), List.forall_mem_cons.2 ⟨?_, hrest⟩⟩
    exact ⟨⟨source, hfrom.mono (List.Subset.trans hsub₂ hsub₃), rfl⟩, ⟨target, hto.mono hsub₃, rfl⟩⟩

/-- The references of a prepared batch, the subjects of its facts and the ends of its edges. -/
theorem prepareFactBatch_ok (hlookup : lookup.Sound) {drawn' : ℕ} {prepared : PreparedFactBatch}
    (h : prepareFactBatch r input lookup drawn = .ok (prepared, drawn')) :
    Drawn r input lookup drawn ⟨prepared.refs, drawn'⟩ ∧
      List.Forall₂ (fun fact observation =>
        ∃ ref, NamedBy r input lookup prepared.refs fact observation ref)
        prepared.facts input.observations ∧
      ∀ edge ∈ prepared.edges, Joined lookup prepared.refs edge := by
  obtain ⟨d, hfacts, hedges⟩ := prepareFactBatch_parts h
  obtain ⟨hd, -, hnamed⟩ := normalizeAll_ok hlookup (drawn_start drawn) hfacts
  obtain ⟨hd', hsub, hjoined⟩ := normalizeEdges_ok hlookup hd hedges
  refine ⟨hd', hnamed.imp ?_, hjoined⟩
  rintro fact observation ⟨ref, href⟩
  exact ⟨ref, href.mono hsub⟩

end HuntWarden.Normalizer
