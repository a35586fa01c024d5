import HuntWarden.Storage.FactBatches

/-! What a committed batch does to each of the tables. On the tables of the facts it does what the fact
    store does; the versions are folded over the facts in the order of their numbers; one row of
    provenance is added for each edge. -/

namespace HuntWarden

open Outcome Normalizer

namespace Transaction

variable {fails : ℕ → Option Thrown} {t t' : Transaction}

theorem run_ok {statement : BatchStore → Except Thrown BatchStore} (h : t.run fails statement = .ok t') :
    statement t.store = .ok t'.store := by
  rw [run] at h
  split at h
  · cases h
  · obtain ⟨store, hstore, h⟩ := bind_ok.1 h
    rw [pure_ok] at h
    rw [hstore, ← h]

/-- A statement that cannot fail by itself, for each item. -/
theorem runAll_ok {α : Type} {statement : α → BatchStore → Except Thrown BatchStore}
    {f : BatchStore → α → BatchStore} (hf : ∀ a s, statement a s = .ok (f s a)) {items : List α}
    (h : t.runAll fails statement items = .ok t') : t'.store = items.foldl f t.store := by
  induction items generalizing t with
  | nil =>
    cases h
    rfl
  | cons a rest ih =>
    obtain ⟨t₁, hrun, h⟩ := bind_ok.1 h
    have hstep := run_ok hrun
    rw [hf] at hstep
    rw [ih h, List.foldl_cons, Except.ok.inj hstep]

end Transaction

namespace BatchStore

/-- An open version of the object of the fact. -/
def openFor (fact : FactRecord) (version : EntityVersion) : Bool :=
  ofEntity fact.taskId fact.epochId fact.subjectRef version && version.validTo.isNone

def closed (fact : FactRecord) (version : EntityVersion) : EntityVersion :=
  if openFor fact version then { version with validTo := some fact.observedAt } else version

/-- What a fact does to the versions. -/
def versioned (digestObject : Json → String) (rows : List EntityVersion) (fact : FactRecord) :
    List EntityVersion :=
  if rows.any fun version => openFor fact version && version.contentDigest = fact.payloadDigest then rows
  else rows.map (closed fact) ++ [entityVersion digestObject fact]

variable {digestObject : Json → String} {fails : ℕ → Option Thrown} {t t' : Transaction}
  {s s' : BatchStore}

/-! ### The facts -/

/-- Closing the listed versions one after the other. -/
theorem rows_closeAll (observedAt : String) (versions : List EntityVersion) (s : BatchStore) :
    ∃ closedVersions : IndexedTable EntityVersion.versionRef EntityVersion.source,
      versions.foldl (closeVersion observedAt) s = { s with versions := closedVersions } ∧
      closedVersions.rows = s.versions.rows.map fun row =>
        if versions.any fun version => row.versionRef = version.versionRef then
          { row with validTo := some observedAt } else row := by
  induction versions generalizing s with
  | nil => exact ⟨s.versions, rfl, by simp⟩
  | cons version rest ih =>
    obtain ⟨closedVersions, hfold, hrows⟩ := ih (closeVersion observedAt s version)
    refine ⟨closedVersions, hfold, ?_⟩
    rw [hrows, closeVersion, IndexedTable.modify, List.map_map]
    refine List.map_congr_left fun row _ => ?_
    by_cases hhead : row.versionRef = version.versionRef <;>
      by_cases hrest : rest.any (fun version => row.versionRef = version.versionRef) <;>
        simp_all [closing]

/-- Closing the open versions of an object: no other version has their references. -/
theorem rows_closeOpen (fact : FactRecord) (s : BatchStore) :
    (s.versions.rows.map fun row =>
      if (s.openVersions fact.taskId fact.epochId fact.subjectRef).any fun version =>
        row.versionRef = version.versionRef then
        { row with validTo := some fact.observedAt } else row) = s.versions.rows.map (closed fact) := by
  refine List.map_congr_left fun row hrow => ?_
  have hany : ((s.openVersions fact.taskId fact.epochId fact.subjectRef).any fun version =>
      row.versionRef = version.versionRef) = openFor fact row := by
    rw [Bool.eq_iff_iff, List.any_eq_true]
    constructor
    · rintro ⟨version, hversion, hsame⟩
      obtain ⟨hmem, hopen⟩ := List.mem_filter.1 hversion
      have heq : row = version := s.versions.eq_of_key hrow hmem (of_decide_eq_true hsame)
      exact heq ▸ hopen
    · intro hopen
      exact ⟨row, List.mem_filter.2 ⟨hrow, hopen⟩, decide_eq_true rfl⟩
  rw [hany, closed]

/-- What the statements for one fact or for all facts of a batch have changed. -/
structure FactsCommitted (digestObject : Json → String) (nextSeq : ℕ) (facts : List FactRecord)
    (s s' : BatchStore) : Prop where
  others : s' = { s with
    factStore := { s.factStore with facts := s'.factStore.facts }
    versions := s'.versions }
  inserted : FactStore.insertFacts s.factStore.facts nextSeq facts = .ok s'.factStore.facts
  versions : s'.versions.rows =
    (FactStore.numbered nextSeq facts).foldl (versioned digestObject) s.versions.rows

theorem commitFact_ok {fact : FactRecord} (h : commitFact digestObject fails t fact = .ok t') :
    t'.store = { t.store with
      factStore := { t.store.factStore with facts := t'.store.factStore.facts }
      versions := t'.store.versions } ∧
    t.store.factStore.facts.insert? fact = some t'.store.factStore.facts ∧
    t'.store.versions.rows = versioned digestObject t.store.versions.rows fact := by
  obtain ⟨t₁, hput, h⟩ := bind_ok.1 h
  obtain ⟨facts, hfacts, hstore⟩ := bind_ok.1 (Transaction.run_ok hput)
  rw [pure_ok] at hstore
  have hinsert := orThrow_ok.1 hfacts
  have hany : ((t₁.store.openVersions fact.taskId fact.epochId fact.subjectRef).any fun version =>
      version.contentDigest = fact.payloadDigest) = t.store.versions.rows.any fun version =>
        openFor fact version && version.contentDigest = fact.payloadDigest := by
    rw [openVersions, List.any_filter, ← hstore]
    rfl
  dsimp only at h
  rw [hany] at h
  rw [versioned]
  split at h
  · rename_i hsame
    rw [pure_ok] at h
    rw [if_pos hsame, ← h, ← hstore]
    exact ⟨rfl, hinsert, rfl⟩
  · rename_i hdiffers
    obtain ⟨t₂, hclose, h⟩ := bind_ok.1 h
    obtain ⟨versions, hversions, hstore'⟩ := bind_ok.1 (Transaction.run_ok h)
    rw [pure_ok] at hstore'
    obtain ⟨closedVersions, hfold, hrows⟩ := rows_closeAll fact.observedAt
      (t₁.store.openVersions fact.taskId fact.epochId fact.subjectRef) t₁.store
    have hclosed : t₂.store = { t₁.store with versions := closedVersions } :=
      (Transaction.runAll_ok (fun _ _ => rfl) hclose).trans hfold
    rw [rows_closeOpen] at hrows
    rw [if_neg hdiffers, ← hstore']
    refine ⟨?_, ?_, ?_⟩
    · rw [hclosed, ← hstore]
    · rw [hclosed, ← hstore]
      exact hinsert
    · rw [(IndexedTable.insert?_eq_some (orThrow_ok.1 hversions)).2, hclosed, hrows, ← hstore]

theorem commitFacts_ok {facts : List FactRecord} {nextSeq : ℕ}
    (h : commitFacts digestObject fails t nextSeq facts = .ok t') :
    FactsCommitted digestObject nextSeq facts t.store t'.store := by
  induction facts generalizing t nextSeq with
  | nil =>
    cases h
    exact ⟨rfl, rfl, rfl⟩
  | cons fact rest ih =>
    obtain ⟨t₁, hfact, h⟩ := bind_ok.1 h
    obtain ⟨hothers, hinsert, hversions⟩ := commitFact_ok hfact
    have hrest := ih h
    refine ⟨?_, ?_, ?_⟩
    · rw [hrest.others, hothers]
    · exact bind_ok.2 ⟨_, orThrow_ok.2 hinsert, hrest.inserted⟩
    · rw [hrest.versions, hversions]
      rfl

/-! ### The edges -/

/-- What is said of an edge depends on the versions alone. -/
theorem observedProvenance_congr (h : s'.versions = s.versions) :
    s'.observedProvenance = s.observedProvenance := by
  funext edge
  rw [observedProvenance, observedProvenance, latestVersion, latestVersion, latestVersion, latestVersion,
    listEntityVersions, listEntityVersions, listEntityVersions, listEntityVersions, h]

/-- What the statements for the edges of a batch have changed. -/
structure EdgesCommitted (edges : List EdgeRecord) (s s' : BatchStore) : Prop where
  others : s' = { s with
    factStore := { s.factStore with edges := s'.factStore.edges }
    relationProvenance := s'.relationProvenance }
  inserted : FactStore.insertEdges s.factStore.edges edges = .ok s'.factStore.edges
  relationProvenance : s'.relationProvenance.rows =
    s.relationProvenance.rows ++ edges.map s.observedProvenance

theorem commitEdges_ok {edges : List EdgeRecord} (h : commitEdges fails t edges = .ok t') :
    EdgesCommitted edges t.store t'.store := by
  induction edges generalizing t with
  | nil =>
    cases h
    exact ⟨rfl, rfl, (List.append_nil _).symm⟩
  | cons edge rest ih =>
    obtain ⟨t₁, hedge, h⟩ := bind_ok.1 h
    obtain ⟨t₂, hprovenance, h⟩ := bind_ok.1 h
    obtain ⟨edges, hinsert, hstore₁⟩ := bind_ok.1 (Transaction.run_ok hedge)
    obtain ⟨relationProvenance, hinsert', hstore₂⟩ := bind_ok.1 (Transaction.run_ok hprovenance)
    rw [pure_ok] at hstore₁ hstore₂
    have hrows := (Table.insert?_eq_some (orThrow_ok.1 hinsert')).2
    have hrest := ih h
    -- the versions that the provenance names are not touched any more
    have hsame : t₂.store.observedProvenance = t.store.observedProvenance :=
      observedProvenance_congr (by rw [← hstore₂, ← hstore₁])
    refine ⟨?_, bind_ok.2 ⟨edges, hinsert, ?_⟩, ?_⟩
    · rw [hrest.others, ← hstore₂, ← hstore₁]
    · rw [← hrest.inserted, ← hstore₂, ← hstore₁]
    · rw [hrest.relationProvenance, hsame, ← hstore₂, hrows, ← hstore₁, List.map_cons, List.append_assoc]
      rfl

theorem insertEdges_ok {edges edges' : Table EdgeRecord.edgeId} {records : List EdgeRecord}
    (h : FactStore.insertEdges edges records = .ok edges') : edges'.rows = edges.rows ++ records := by
  induction records generalizing edges with
  | nil =>
    cases h
    exact (List.append_nil _).symm
  | cons edge rest ih =>
    obtain ⟨edges₁, hinsert, h⟩ := bind_ok.1 h
    rw [ih h, (Table.insert?_eq_some (orThrow_ok.1 hinsert)).2, List.append_assoc,
      List.singleton_append]

/-! ### The whole batch -/

theorem finishToolRun_eq {toolCallId : String} {run : ToolRunRecord} {status : ToolRunStatus}
    {result : Option Json} {error : Option String} (h : s.getToolRun toolCallId = some run) :
    s.finishToolRun toolCallId status result error =
      { s with toolRuns := s.toolRuns.set { run with status, result, error } } := by
  rw [finishToolRun, h]

theorem finishBatchRun_ok {input : BatchInput} {prepared : PreparedFactBatch} {toolRun : BatchToolRun}
    (h : finishBatchRun input prepared toolRun s = .ok s') :
    s' = { s with toolRuns := s'.toolRuns } ∧
      ∃ run ∈ s.toolRuns.rows, run.toolCallId = toolRun.toolCallId ∧ run.status = .started ∧
        ∃ result, s'.toolRuns =
          s.toolRuns.set { run with status := toolRun.status, result, error := toolRun.error } := by
  obtain ⟨run, hrun, h⟩ := bind_ok.1 h
  obtain ⟨_, hstarted, h⟩ := bind_ok.1 h
  obtain ⟨result, -, h⟩ := bind_ok.1 h
  rw [pure_ok] at h
  have hget := (Option.filter_eq_some_iff.1 (orThrow_ok.1 hrun)).1
  obtain ⟨hmem, hid⟩ := Table.get?_eq_some.1 hget
  have hstatus := of_decide_eq_true (Bool.and_eq_true_iff.1 (require_ok.1 hstarted)).1
  rw [finishToolRun_eq hget] at h
  subst h
  exact ⟨rfl, run, hmem, hid, hstatus, result, rfl⟩

/-- The tool run of the batch, if it comes from one, was under way and is at its end. -/
structure RunFinished (input : BatchInput) (s s' : BatchStore) : Prop where
  none : input.toolRun = none → s'.toolRuns = s.toolRuns
  some : ∀ toolRun, input.toolRun = some toolRun → ∃ run ∈ s.toolRuns.rows,
    run.toolCallId = toolRun.toolCallId ∧ run.status = .started ∧ ∃ result,
      s'.toolRuns = s.toolRuns.set { run with status := toolRun.status, result, error := toolRun.error }

theorem finishRun_ok {input : BatchInput} {prepared : PreparedFactBatch}
    (h : finishRun fails input prepared t = .ok t') :
    t'.store = { t.store with toolRuns := t'.store.toolRuns } ∧ RunFinished input t.store t'.store := by
  rw [finishRun] at h
  cases hrun : input.toolRun with
  | none =>
    rw [hrun] at h
    cases h
    exact ⟨rfl, fun _ => rfl, fun _ h => by rw [hrun] at h; cases h⟩
  | some toolRun =>
    rw [hrun] at h
    obtain ⟨hothers, hfinished⟩ := finishBatchRun_ok (Transaction.run_ok h)
    refine ⟨hothers, ⟨fun hnone => ?_, fun toolRun' hsome => ?_⟩⟩
    · rw [hrun] at hnone
      cases hnone
    · rw [hrun] at hsome
      exact Option.some.inj hsome ▸ hfinished

theorem RunFinished.congr {input : BatchInput} {s₁ s₁' : BatchStore} (h : RunFinished input s₁ s₁')
    (hbefore : s₁.toolRuns = s.toolRuns) (hafter : s'.toolRuns = s₁'.toolRuns) :
    RunFinished input s s' := by
  constructor
  · intro hnone
    rw [hafter, h.none hnone, hbefore]
  · intro toolRun hsome
    rw [hafter, ← hbefore]
    exact h.some toolRun hsome

variable (env : FactEnv)

/-- What a committed batch leaves behind in every table. -/
structure BatchCommitted (s s' : BatchStore) (input : BatchInput) (prepared : PreparedFactBatch)
    (drawn : ℕ) : Prop where
  preparation : prepareFactBatch env.normalizer input.toFactBatchInput
    (s.factStore.findObjectReferenceByIdentity input.taskId input.epochId) s.factStore.drawn =
      .ok (prepared, drawn)
  factStore : s.factStore.commitFactBatch env input.toFactBatchInput = .ok s'.factStore
  refs : s'.factStore.refs = prepared.refs.foldl (fun refs ref => refs.insertOrIgnore ref) s.factStore.refs
  facts : s'.factStore.facts.rows = s.factStore.facts.rows ++
    FactStore.numbered (FactStore.maxSeq s.factStore.facts.rows + 1) prepared.facts
  edges : s'.factStore.edges.rows = s.factStore.edges.rows ++ prepared.edges
  drawn : s'.factStore.drawn = drawn
  versions : s'.versions.rows =
    (FactStore.numbered (FactStore.maxSeq s.factStore.facts.rows + 1) prepared.facts).foldl
      (versioned env.normalizer.digestObject) s.versions.rows
  relationProvenance : s'.relationProvenance.rows =
    s.relationProvenance.rows ++ prepared.edges.map s'.observedProvenance
  batches : s'.batches.rows = s.batches.rows ++
    [batchRow input (env.normalizer.ids.createId .batch s.batchesDrawn)
      (FactStore.maxSeq s.factStore.facts.rows + 1) prepared]
  toolRuns : RunFinished input s s'
  events : s'.events.rows = s.events.rows ++
    [batchEvent input (env.normalizer.ids.createId .action s.batchesDrawn)
      (env.normalizer.ids.createId .batch s.batchesDrawn) prepared]
  batchesDrawn : s'.batchesDrawn = s.batchesDrawn + 1

theorem putRefs_eq (refs : List ObjectReference) (s : BatchStore) :
    refs.foldl putRef s = { s with
      factStore := { s.factStore with
        refs := refs.foldl (fun refs ref => refs.insertOrIgnore ref) s.factStore.refs } } := by
  induction refs generalizing s with
  | nil => rfl
  | cons ref rest ih =>
    rw [List.foldl_cons, ih]
    rfl

theorem commitFactBatch_ok {input : BatchInput} (h : s.commitFactBatch env fails input = .ok s') :
    ∃ prepared drawn, BatchCommitted env s s' input prepared drawn := by
  obtain ⟨epoch, hepoch, h⟩ := bind_ok.1 h
  obtain ⟨_, htarget, h⟩ := bind_ok.1 h
  obtain ⟨⟨prepared, drawn⟩, hprepared, h⟩ := bind_ok.1 h
  obtain ⟨t₁, hrefs, h⟩ := bind_ok.1 h
  obtain ⟨t₂, hfacts, h⟩ := bind_ok.1 h
  obtain ⟨t₃, hedges, h⟩ := bind_ok.1 h
  obtain ⟨t₄, hbatch, h⟩ := bind_ok.1 h
  obtain ⟨t₅, hrun, h⟩ := bind_ok.1 h
  obtain ⟨t₆, hevent, h⟩ := bind_ok.1 h
  rw [pure_ok] at h
  have hstore₁ : t₁.store = _ := (Transaction.runAll_ok (fun _ _ => rfl) hrefs).trans
    (putRefs_eq prepared.refs s)
  have hstore₂ := commitFacts_ok hfacts
  have hstore₃ := commitEdges_ok hedges
  obtain ⟨batches, hbatches, hstore₄⟩ := bind_ok.1 (Transaction.run_ok hbatch)
  obtain ⟨events, hevents, hstore₆⟩ := bind_ok.1 (Transaction.run_ok hevent)
  rw [pure_ok] at hstore₄ hstore₆
  obtain ⟨hstore₅, hfinished⟩ := finishRun_ok hrun
  have hfactStore : t₆.store.factStore = { s.factStore with
      refs := prepared.refs.foldl (fun refs ref => refs.insertOrIgnore ref) s.factStore.refs
      facts := t₂.store.factStore.facts
      edges := t₃.store.factStore.edges } := by
    rw [← hstore₆, hstore₅, ← hstore₄, hstore₃.others, hstore₂.others, hstore₁]
  have hinserted : FactStore.insertFacts s.factStore.facts (FactStore.maxSeq s.factStore.facts.rows + 1)
      prepared.facts = .ok t₂.store.factStore.facts := by
    rw [← hstore₂.inserted, hstore₁]
  have hedged : FactStore.insertEdges s.factStore.edges prepared.edges =
      .ok t₃.store.factStore.edges := by
    rw [← hstore₃.inserted, hstore₂.others, hstore₁]
  have hversions : t₆.store.versions = t₂.store.versions := by
    rw [← hstore₆, hstore₅, ← hstore₄, hstore₃.others]
  subst h
  refine ⟨prepared, drawn, ⟨hprepared, ?_, ?_, ?_, ?_, rfl, ?_, ?_, ?_, ?_, ?_, rfl⟩⟩
  · rw [hfactStore]
    exact bind_ok.2 ⟨epoch, hepoch, bind_ok.2 ⟨_, htarget, bind_ok.2 ⟨_, hprepared,
      bind_ok.2 ⟨_, hinserted, bind_ok.2 ⟨_, hedged, rfl⟩⟩⟩⟩⟩
  · rw [hfactStore]
  · rw [hfactStore]
    exact FactStore.insertFacts_ok hinserted
  · rw [hfactStore]
    exact insertEdges_ok hedged
  · rw [hversions, hstore₂.versions, hstore₁]
  · have hrows : t₆.store.relationProvenance.rows = s.relationProvenance.rows ++
        prepared.edges.map t₆.store.observedProvenance := by
      rw [observedProvenance_congr hversions, ← hstore₆, hstore₅, ← hstore₄,
        hstore₃.relationProvenance]
      rw [hstore₂.others, hstore₁]
    exact hrows
  · rw [← hstore₆, hstore₅]
    dsimp only
    rw [← hstore₄, (Table.insert?_eq_some (orThrow_ok.1 hbatches)).2, hstore₃.others, hstore₂.others,
      hstore₁]
  · have hbefore : t₄.store.toolRuns = s.toolRuns := by
      rw [← hstore₄, hstore₃.others, hstore₂.others, hstore₁]
    have hafter : t₆.store.toolRuns = t₅.store.toolRuns := by rw [← hstore₆]
    exact hfinished.congr hbefore hafter
  · rw [← hstore₆, (Table.insert?_eq_some (orThrow_ok.1 hevents)).2, hstore₅]
    dsimp only
    rw [← hstore₄, hstore₃.others, hstore₂.others, hstore₁]

end BatchStore

end HuntWarden
