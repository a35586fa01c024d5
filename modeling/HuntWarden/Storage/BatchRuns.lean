import HuntWarden.Facts.Identity
import HuntWarden.Lib.JsonDump
import HuntWarden.Lib.Runs
import HuntWarden.Storage.BatchCommits

/-! Batches and tool runs in any order, with statements that fail anywhere. A batch is recorded in every
    table or in none; the numbers of the facts only grow; the references are a bijection between the
    objects that were observed and their identities; a tool run ends once. -/

namespace HuntWarden

open Outcome Normalizer

/-- How a tool run can end. -/
inductive ToolOutcome where
  | succeeded | failed | blocked
  deriving DecidableEq, Repr

def ToolOutcome.status : ToolOutcome → ToolRunStatus
  | .succeeded => .succeeded
  | .failed => .failed
  | .blocked => .blocked

inductive BatchOp where
  | createScanEpoch (epoch : EpochRecord)
  | finishScanEpoch (taskId epochId : String) (status : EpochStatus)
  | startToolRun (record : ToolRunRecord)
  | finishToolRun (toolCallId : String) (outcome : ToolOutcome) (result : Option Json)
      (error : Option String)
  | commitFactBatch (input : BatchInput) (fails : ℕ → Option Thrown)

/-- A committed fact, and the identity of the object that was observed. -/
structure Observed where
  fact : FactRecord
  identity : Payload

/-- The store, and what has been committed to it. `observed` is written for the statements below only. -/
structure BatchSystem where
  store : BatchStore
  observed : List Observed

namespace BatchStore

/-- A call is started once; a second call under its id must be the same one. -/
def startToolRun (digestObject : Json → String) (s : BatchStore) (record : ToolRunRecord) :
    Except Thrown BatchStore :=
  match s.getToolRun record.toolCallId with
  | some existing => do
    require (existing.taskId = record.taskId && existing.epochId = record.epochId &&
        existing.toolName = record.toolName && existing.risk = record.risk &&
        existing.replayPolicy = record.replayPolicy &&
        digestObject existing.args = digestObject record.args)
      (securityError .recoveryUncertain "ToolCall ID 已绑定其他任务、Epoch、工具或参数，拒绝复用")
    return s
  | none => do
    let toolRuns ← orThrow (s.toolRuns.insert? { record with
        status := .started, result := none, error := none })
      (uniqueConstraint "tool_runs.tool_call_id")
    return { s with toolRuns }

def onFacts (s : BatchStore) (body : FactStore → Except Thrown FactStore) : Except Thrown BatchStore := do
  let factStore ← body s.factStore
  return { s with factStore }

end BatchStore

namespace BatchSystem

def empty : BatchSystem := ⟨.empty, []⟩

variable (env : FactEnv)

/-- The facts that a commit has added, each with the identity that was observed. -/
def record (s : BatchSystem) (input : BatchInput) (store : BatchStore) : BatchSystem where
  store
  observed := s.observed ++ List.zipWith Observed.mk
    (store.factStore.facts.rows.drop s.store.factStore.facts.rows.length)
    (input.observations.map observedIdentity)

def step (s : BatchSystem) : BatchOp → BatchSystem
  | .createScanEpoch epoch =>
    { s with store := transact s.store (s.store.onFacts (·.createScanEpoch epoch)) }
  | .finishScanEpoch taskId epochId status =>
    { s with store := transact s.store (s.store.onFacts (·.finishScanEpoch taskId epochId status)) }
  | .startToolRun record =>
    { s with store := transact s.store (s.store.startToolRun env.normalizer.digestObject record) }
  | .finishToolRun toolCallId outcome result error =>
    { s with store := s.store.finishToolRun toolCallId outcome.status result error }
  | .commitFactBatch input fails =>
    match s.store.commitFactBatch env fails input with
    | .ok store => s.record input store
    | .error _ => s

def runOps (ops : List BatchOp) : BatchSystem := Runs.run (step env) .empty ops

/-- No two objects that were observed share a digest. -/
def NoCollision (s : BatchSystem) : Prop :=
  ∀ o ∈ s.observed, ∀ o' ∈ s.observed,
    identityDigest env.normalizer o.fact.namespace_ o.identity =
      identityDigest env.normalizer o'.fact.namespace_ o'.identity →
    o.fact.namespace_ = o'.fact.namespace_ ∧ o.identity = o'.identity

/-- The subject of every fact is the one reference of what was observed. -/
structure Identified (s : BatchSystem) : Prop where
  facts : s.observed.map (·.fact) = s.store.factStore.facts.rows
  subjects : ∀ o ∈ s.observed, ∃ ref ∈ s.store.factStore.refs.rows, ref.ref = o.fact.subjectRef ∧
    ref.identityKey = (o.fact.taskId, o.fact.epochId, o.fact.namespace_,
      identityDigest env.normalizer o.fact.namespace_ o.identity)
  drawn : ∀ ref ∈ s.store.factStore.refs.rows, ∃ n < s.store.factStore.drawn,
    ref.ref = env.normalizer.ids.createId .objectRef n
  digests : ∀ ref ∈ s.store.factStore.refs.rows,
    ref.stableIdentityDigest = identityDigest env.normalizer ref.namespace_ ref.stableIdentity
  increasing : (s.store.factStore.facts.rows.map (·.factSeq)).Pairwise (· < ·)

variable {env} {s s' : BatchSystem}

theorem identified_empty : Identified env .empty where
  facts := rfl
  subjects := by simp [empty]
  drawn := by simp [empty, BatchStore.empty, FactStore.empty]
  digests := by simp [empty, BatchStore.empty, FactStore.empty]
  increasing := by simp [empty, BatchStore.empty, FactStore.empty]

/-- The tables of the facts are as they were. -/
theorem Identified.of_eq (h : Identified env s) {store : BatchStore}
    (hfacts : store.factStore.facts = s.store.factStore.facts)
    (hrefs : store.factStore.refs = s.store.factStore.refs)
    (hdrawn : store.factStore.drawn = s.store.factStore.drawn) : Identified env { s with store } where
  facts := by rw [hfacts]; exact h.facts
  subjects := by rw [hrefs]; exact h.subjects
  drawn := by rw [hrefs, hdrawn]; exact h.drawn
  digests := by rw [hrefs]; exact h.digests
  increasing := by rw [hfacts]; exact h.increasing

/-! ### A committed batch -/

theorem map_factSeq_numbered (nextSeq : ℕ) (facts : List FactRecord) :
    (FactStore.numbered nextSeq facts).map (·.factSeq) = List.range' nextSeq facts.length := by
  induction facts generalizing nextSeq with
  | nil => rfl
  | cons fact rest ih =>
    rw [FactStore.numbered, List.map_cons, ih, List.length_cons, List.range'_succ]

theorem forall₂_numbered {α : Type} {R : FactRecord → α → Prop}
    (hR : ∀ fact a n, R fact a → R { fact with factSeq := n } a) {facts : List FactRecord} {as : List α}
    (h : List.Forall₂ R facts as) (nextSeq : ℕ) :
    List.Forall₂ R (FactStore.numbered nextSeq facts) as := by
  induction h generalizing nextSeq with
  | nil => exact .nil
  | cons hhead _ ih => exact .cons (hR _ _ nextSeq hhead) (ih (nextSeq + 1))

theorem map_fact_zipWith {facts : List FactRecord} {identities : List Payload}
    (h : facts.length = identities.length) :
    (List.zipWith Observed.mk facts identities).map (·.fact) = facts := by
  induction facts generalizing identities with
  | nil => rfl
  | cons fact rest ih =>
    cases identities with
    | nil => cases h
    | cons identity others =>
      rw [List.zipWith_cons_cons, List.map_cons, ih (Nat.succ.inj h)]

theorem mem_zipWith_of_forall₂ {R : FactRecord → WireObservation → Prop} {facts : List FactRecord}
    {observations : List WireObservation} (h : List.Forall₂ R facts observations) {o : Observed}
    (ho : o ∈ List.zipWith Observed.mk facts (observations.map observedIdentity)) :
    ∃ observation, R o.fact observation ∧ o.identity = observedIdentity observation := by
  induction h with
  | nil => cases ho
  | cons hhead _ ih =>
    rcases List.mem_cons.1 ho with rfl | hrest
    · exact ⟨_, hhead, rfl⟩
    · exact ih hrest

theorem found_ok {store : FactStore} {taskId epochId digest : String} {namespace_ : NamespaceName}
    {ref : ObjectReference}
    (h : store.findObjectReferenceByIdentity taskId epochId namespace_ digest = some ref) :
    ref ∈ store.refs.rows ∧ ref.taskId = taskId ∧ ref.epochId = epochId ∧
      ref.namespace_ = namespace_ ∧ ref.stableIdentityDigest = digest := by
  rw [FactStore.findObjectReferenceByIdentity] at h
  have hfound := List.find?_some h
  have hkey := of_decide_eq_true hfound
  rw [ObjectReference.identityKey, Prod.mk.injEq, Prod.mk.injEq, Prod.mk.injEq] at hkey
  exact ⟨List.mem_of_find?_eq_some h, hkey⟩

theorem lookup_sound (store : FactStore) (taskId epochId : String) :
    Lookup.Sound (store.findObjectReferenceByIdentity taskId epochId) :=
  fun _ _ _ h => (found_ok h).2.2.2

/-- The references of a batch are all new to the table. -/
theorem Identified.rows_refs (h : Identified env s) {input : BatchInput} {store : BatchStore}
    {prepared : PreparedFactBatch} {drawn : ℕ}
    (hcommit : BatchStore.BatchCommitted env s.store store input prepared drawn) :
    store.factStore.refs.rows = s.store.factStore.refs.rows ++ prepared.refs := by
  obtain ⟨hd, -⟩ := prepareFactBatch_ok (lookup_sound _ _ _) hcommit.preparation
  rw [hcommit.refs]
  refine IndexedTable.rows_insertAll ?_ hd.refs ?_
  · intro ref href x hx
    refine ⟨fun hid => ?_, fun hkey => ?_⟩
    · obtain ⟨n, hn, hold⟩ := h.drawn x hx
      obtain ⟨n', hn', -, hnew⟩ := hd.fresh ref href
      have heq : n = n' := env.normalizer.ids.injective _ (hold.symm.trans (hid.trans hnew))
      omega
    · obtain ⟨htask, hepoch⟩ := hd.scope ref href
      have hnone := List.find?_eq_none.1 (hd.unknown ref href) x hx
      refine hnone (decide_eq_true ?_)
      rw [hkey, ObjectReference.identityKey, htask, hepoch]
  · refine List.Nodup.of_map (fun key : String × String × NamespaceName × String =>
      (key.2.2.1, key.2.2.2)) ?_
    rw [List.map_map]
    exact hd.keys

/-- What was created or found for a batch is in the table. -/
theorem Identified.mem_refs (h : Identified env s) {input : BatchInput} {store : BatchStore}
    {prepared : PreparedFactBatch} {drawn : ℕ}
    (hcommit : BatchStore.BatchCommitted env s.store store input prepared drawn) {ref : ObjectReference}
    (href : Known (s.store.factStore.findObjectReferenceByIdentity input.taskId input.epochId) prepared.refs ref) :
    ref ∈ store.factStore.refs.rows ∧ ref.taskId = input.taskId ∧ ref.epochId = input.epochId := by
  obtain ⟨hd, -⟩ := prepareFactBatch_ok (lookup_sound _ _ _) hcommit.preparation
  rw [h.rows_refs hcommit]
  rcases href with hcreated | hfound
  · exact ⟨List.mem_append_right _ hcreated, hd.scope ref hcreated⟩
  · obtain ⟨hold, htask, hepoch, -⟩ := found_ok hfound
    exact ⟨List.mem_append_left _ hold, htask, hepoch⟩

theorem Identified.commit (h : Identified env s) {input : BatchInput} {fails : ℕ → Option Thrown}
    {store : BatchStore} (hcommit : s.store.commitFactBatch env fails input = .ok store) :
    Identified env (s.record input store) := by
  obtain ⟨prepared, drawn, hcommit⟩ := BatchStore.commitFactBatch_ok env hcommit
  obtain ⟨hd, hnamed, -⟩ := prepareFactBatch_ok (lookup_sound _ _ _) hcommit.preparation
  have hrefs := h.rows_refs hcommit
  have hnumbered := forall₂_numbered
    (R := fun fact observation => ∃ ref, NamedBy env.normalizer input.toFactBatchInput
      (s.store.factStore.findObjectReferenceByIdentity input.taskId input.epochId) prepared.refs fact
      observation ref)
    (fun fact a n ⟨ref, hnamed⟩ => ⟨ref, { hnamed with }⟩) hnamed
    (FactStore.maxSeq s.store.factStore.facts.rows + 1)
  have hnew : store.factStore.facts.rows.drop s.store.factStore.facts.rows.length =
      FactStore.numbered (FactStore.maxSeq s.store.factStore.facts.rows + 1) prepared.facts := by
    rw [hcommit.facts, List.drop_left]
  refine ⟨?_, ?_, ?_, ?_, ?_⟩
  · rw [record, List.map_append, h.facts, hnew, map_fact_zipWith, hcommit.facts]
    rw [List.length_map]
    exact hnumbered.length_eq
  · intro o ho
    rw [record, hnew] at ho
    rcases List.mem_append.1 ho with hold | hadded
    · obtain ⟨ref, href, hid, hkey⟩ := h.subjects o hold
      exact ⟨ref, hrefs ▸ List.mem_append_left _ href, hid, hkey⟩
    · obtain ⟨observation, ⟨ref, hnamed⟩, hidentity⟩ := mem_zipWith_of_forall₂ hnumbered hadded
      have hmem := h.mem_refs hcommit hnamed.known
      refine ⟨ref, hmem.1, hnamed.subject.symm, ?_⟩
      rw [ObjectReference.identityKey, hmem.2.1, hmem.2.2, hnamed.namespace_, hnamed.identity,
        hnamed.task, hnamed.epoch, hidentity]
  · intro ref href
    have href' : ref ∈ s.store.factStore.refs.rows ++ prepared.refs := hrefs ▸ href
    have hdrawn : (s.record input store).store.factStore.drawn = drawn := hcommit.drawn
    rw [hdrawn]
    rcases List.mem_append.1 href' with hold | hnew
    · obtain ⟨n, hn, hid⟩ := h.drawn ref hold
      exact ⟨n, hn.trans_le hd.le, hid⟩
    · obtain ⟨n, -, hn, hid⟩ := hd.fresh ref hnew
      exact ⟨n, hn, hid⟩
  · intro ref href
    have href' : ref ∈ s.store.factStore.refs.rows ++ prepared.refs := hrefs ▸ href
    rcases List.mem_append.1 href' with hold | hnew
    · exact h.digests ref hold
    · exact hd.digest ref hnew
  · have hrows : (s.record input store).store.factStore.facts.rows = _ := hcommit.facts
    rw [hrows, List.map_append, map_factSeq_numbered, List.pairwise_append]
    refine ⟨h.increasing, List.pairwise_lt_range', ?_⟩
    intro seq hseq seq' hseq'
    obtain ⟨fact, hfact, rfl⟩ := List.mem_map.1 hseq
    have hle := FactStore.le_maxSeq hfact
    have hge := (List.mem_range'_1.1 hseq').1
    omega

/-! ### Every run -/

/-- An operation leaves the facts, the references and the versions alone, or it commits a batch. -/
theorem step_cases (op : BatchOp) :
    (∃ store, step env s op = { s with store } ∧ store.factStore.facts = s.store.factStore.facts ∧
      store.factStore.refs = s.store.factStore.refs ∧
      store.factStore.drawn = s.store.factStore.drawn ∧ store.versions = s.store.versions) ∨
    ∃ input fails store, op = .commitFactBatch input fails ∧
      s.store.commitFactBatch env fails input = .ok store ∧ step env s op = s.record input store := by
  have hsame : ∃ store, s = { s with store } ∧ store.factStore.facts = s.store.factStore.facts ∧
      store.factStore.refs = s.store.factStore.refs ∧
      store.factStore.drawn = s.store.factStore.drawn ∧ store.versions = s.store.versions :=
    ⟨s.store, rfl, rfl, rfl, rfl, rfl⟩
  cases op with
  | createScanEpoch epoch =>
    rw [step]
    cases hop : s.store.onFacts (·.createScanEpoch epoch) with
    | error e => exact Or.inl hsame
    | ok store =>
      obtain ⟨factStore, hfacts, hstore⟩ := bind_ok.1 hop
      obtain ⟨epochs, -, hfacts⟩ := bind_ok.1 hfacts
      cases hfacts
      cases hstore
      exact Or.inl ⟨_, rfl, rfl, rfl, rfl, rfl⟩
  | finishScanEpoch taskId epochId status =>
    rw [step]
    cases hop : s.store.onFacts (·.finishScanEpoch taskId epochId status) with
    | error e => exact Or.inl hsame
    | ok store =>
      obtain ⟨factStore, hfacts, hstore⟩ := bind_ok.1 hop
      obtain ⟨epoch, -, hfacts⟩ := bind_ok.1 hfacts
      cases hfacts
      cases hstore
      refine Or.inl ⟨_, rfl, ?_, ?_, ?_, rfl⟩ <;> split <;> rfl
  | startToolRun record =>
    rw [step]
    cases hop : s.store.startToolRun env.normalizer.digestObject record with
    | error e => exact Or.inl hsame
    | ok store =>
      rw [BatchStore.startToolRun] at hop
      split at hop
      · obtain ⟨_, -, hop⟩ := bind_ok.1 hop
        cases hop
        exact Or.inl hsame
      · obtain ⟨toolRuns, -, hop⟩ := bind_ok.1 hop
        cases hop
        exact Or.inl ⟨_, rfl, rfl, rfl, rfl, rfl⟩
  | finishToolRun toolCallId outcome result error =>
    rw [step, BatchStore.finishToolRun]
    split
    · exact Or.inl hsame
    · exact Or.inl ⟨_, rfl, rfl, rfl, rfl, rfl⟩
  | commitFactBatch input fails =>
    rw [step]
    cases hcommit : s.store.commitFactBatch env fails input with
    | error e => exact Or.inl hsame
    | ok store => exact Or.inr ⟨input, fails, store, rfl, hcommit, rfl⟩

theorem step_identified (op : BatchOp) (h : Identified env s) : Identified env (step env s op) := by
  rcases @step_cases env s op with ⟨store, hstep, hfacts, hrefs, hdrawn, -⟩ |
    ⟨input, fails, store, -, hcommit, hstep⟩
  · rw [hstep]
    exact h.of_eq hfacts hrefs hdrawn
  · rw [hstep]
    exact h.commit hcommit

theorem run_identified (ops : List BatchOp) : Identified env (runOps env ops) :=
  Runs.run_invariant (I := Identified env) (C := fun _ _ => True) (fun _ op h _ => step_identified op h)
    ops _ identified_empty (Runs.along_true _ _)

/-! ### Tool runs -/

/-- The tool run has ended. -/
def Ended (toolRuns : Table ToolRunRecord.toolCallId) (toolCallId : String) : Prop :=
  ∃ run ∈ toolRuns.rows, run.toolCallId = toolCallId ∧ run.status ≠ .started

/-- The record of a run is replaced by one that has ended. -/
theorem Ended.set {toolCallId : String} {toolRuns : Table ToolRunRecord.toolCallId}
    (h : Ended toolRuns toolCallId) (finished : ToolRunRecord) (hfinished : finished.status ≠ .started) :
    Ended (toolRuns.set finished) toolCallId := by
  obtain ⟨run, hmem, rfl, hstatus⟩ := h
  by_cases hsame : run.toolCallId = finished.toolCallId
  · exact ⟨finished, Table.mem_set.2 (Or.inl ⟨rfl, run, hmem, hsame⟩), hsame.symm, hfinished⟩
  · exact ⟨run, Table.mem_set.2 (Or.inr ⟨hmem, hsame⟩), rfl, hstatus⟩

theorem ToolOutcome.status_ne_started (outcome : ToolOutcome) : outcome.status ≠ .started := by
  cases outcome <;> decide

theorem BatchToolRun.status_ne_started (toolRun : BatchToolRun) : toolRun.status ≠ .started := by
  rw [BatchToolRun.status]
  split <;> decide

theorem step_ended {toolCallId : String} (op : BatchOp) (h : Ended s.store.toolRuns toolCallId) :
    Ended (step env s op).store.toolRuns toolCallId := by
  cases op with
  | createScanEpoch epoch =>
    rw [step]
    cases hop : s.store.onFacts (·.createScanEpoch epoch) with
    | error e => exact h
    | ok store =>
      obtain ⟨factStore, -, hstore⟩ := bind_ok.1 hop
      cases hstore
      exact h
  | finishScanEpoch taskId epochId status =>
    rw [step]
    cases hop : s.store.onFacts (·.finishScanEpoch taskId epochId status) with
    | error e => exact h
    | ok store =>
      obtain ⟨factStore, -, hstore⟩ := bind_ok.1 hop
      cases hstore
      exact h
  | startToolRun record =>
    rw [step]
    cases hop : s.store.startToolRun env.normalizer.digestObject record with
    | error e => exact h
    | ok store =>
      rw [BatchStore.startToolRun] at hop
      split at hop
      · obtain ⟨_, -, hop⟩ := bind_ok.1 hop
        cases hop
        exact h
      · obtain ⟨toolRuns, hinsert, hop⟩ := bind_ok.1 hop
        cases hop
        obtain ⟨run, hmem, hrun⟩ := h
        have hrows := (Table.insert?_eq_some (orThrow_ok.1 hinsert)).2
        exact ⟨run, hrows ▸ List.mem_append_left _ hmem, hrun⟩
  | finishToolRun finishedId outcome result error =>
    rw [step, BatchStore.finishToolRun]
    split
    · exact h
    · exact h.set _ (ToolOutcome.status_ne_started outcome)
  | commitFactBatch input fails =>
    rw [step]
    cases hcommit : s.store.commitFactBatch env fails input with
    | error e => exact h
    | ok store =>
      obtain ⟨prepared, drawn, hcommit⟩ := BatchStore.commitFactBatch_ok env hcommit
      cases hrun : input.toolRun with
      | none =>
        have hsame : (s.record input store).store.toolRuns = s.store.toolRuns :=
          hcommit.toolRuns.none hrun
        exact hsame ▸ h
      | some toolRun =>
        obtain ⟨run, -, -, -, result, hset⟩ := hcommit.toolRuns.some toolRun hrun
        have hsame : (s.record input store).store.toolRuns = _ := hset
        rw [hsame]
        exact h.set _ (BatchToolRun.status_ne_started toolRun)

/-! ### All of a batch or nothing -/

/-- Some version of its object has the content of the fact. -/
def HasVersion (versions : List EntityVersion) (fact : FactRecord) : Prop :=
  ∃ version ∈ versions, version.taskId = fact.taskId ∧ version.epochId = fact.epochId ∧
    version.entityRef = fact.subjectRef ∧ version.contentDigest = fact.payloadDigest

theorem hasVersion_versioned {digestObject : Json → String} {versions : List EntityVersion}
    (fact : FactRecord) : HasVersion (BatchStore.versioned digestObject versions fact) fact := by
  rw [BatchStore.versioned]
  split
  · rename_i hany
    obtain ⟨version, hmem, hsame⟩ := List.any_eq_true.1 hany
    simp only [BatchStore.openFor, BatchStore.ofEntity, Bool.and_eq_true, decide_eq_true_eq] at hsame
    exact ⟨version, hmem, hsame.1.1.1.1, hsame.1.1.1.2, hsame.1.1.2, hsame.2⟩
  · exact ⟨_, List.mem_append_right _ List.mem_cons_self, rfl, rfl, rfl, rfl⟩

/-- A version is closed at most. -/
theorem HasVersion.versioned {digestObject : Json → String} {versions : List EntityVersion}
    {fact : FactRecord} (h : HasVersion versions fact) (next : FactRecord) :
    HasVersion (BatchStore.versioned digestObject versions next) fact := by
  obtain ⟨version, hmem, htask, hepoch, hentity, hcontent⟩ := h
  rw [BatchStore.versioned]
  split
  · exact ⟨version, hmem, htask, hepoch, hentity, hcontent⟩
  · refine ⟨_, List.mem_append_left _ (List.mem_map_of_mem hmem), ?_⟩
    rw [BatchStore.closed]
    split <;> exact ⟨htask, hepoch, hentity, hcontent⟩

theorem hasVersion_foldl {digestObject : Json → String} {facts : List FactRecord}
    {versions : List EntityVersion} :
    (∀ fact, HasVersion versions fact →
      HasVersion (facts.foldl (BatchStore.versioned digestObject) versions) fact) ∧
    ∀ fact ∈ facts, HasVersion (facts.foldl (BatchStore.versioned digestObject) versions) fact := by
  induction facts generalizing versions with
  | nil => exact ⟨fun _ h => h, by simp⟩
  | cons next rest ih =>
    obtain ⟨hkeep, hnew⟩ := @ih (BatchStore.versioned digestObject versions next)
    refine ⟨fun fact h => hkeep fact (h.versioned next), fun fact hfact => ?_⟩
    rcases List.mem_cons.1 hfact with rfl | hrest
    · exact hkeep fact (hasVersion_versioned fact)
    · exact hnew fact hrest

/-- The batch is in every table: its facts under the next numbers, each with a reference for its subject
    and a version with its content, its edges with their provenance and references for both ends, the
    batch, the end of the tool run and the event. -/
structure Recorded (s : BatchStore) (input : BatchInput) (s' : BatchStore) : Prop where
  facts : ∃ facts, s'.factStore.facts.rows = s.factStore.facts.rows ++ facts ∧
    facts.length = input.observations.length ∧
    facts.map (·.factSeq) =
      List.range' (FactStore.maxSeq s.factStore.facts.rows + 1) input.observations.length ∧
    ∀ fact ∈ facts, (∃ ref ∈ s'.factStore.refs.rows, ref.ref = fact.subjectRef) ∧
      HasVersion s'.versions.rows fact
  edges : ∃ edges, s'.factStore.edges.rows = s.factStore.edges.rows ++ edges ∧
    edges.length = input.edges.length ∧
    ∀ edge ∈ edges, (∃ ref ∈ s'.factStore.refs.rows, ref.ref = edge.fromRef) ∧
      (∃ ref ∈ s'.factStore.refs.rows, ref.ref = edge.toRef) ∧
      ∃ provenance ∈ s'.relationProvenance.rows, provenance.edgeRef = edge.edgeId
  batch : ∃ row, s'.batches.rows = s.batches.rows ++ [row] ∧ row.sourceRunId = input.sourceRunId ∧
    row.factCount = input.observations.length ∧ row.edgeCount = input.edges.length ∧
    ∃ event, s'.events.rows = s.events.rows ++ [event] ∧ event.sourceBatchRef = some row.batchId
  toolRun : BatchStore.RunFinished input s s'

theorem length_normalizeEdges {r : Runtime} {input : FactBatchInput} {lookup : Lookup}
    {edges : List WireEdge} {d d' : Drawing} {records : List EdgeRecord}
    (h : normalizeEdges r input lookup edges d = .ok (records, d')) :
    records.length = edges.length := by
  induction edges generalizing d records with
  | nil =>
    cases h
    rfl
  | cons edge rest ih =>
    obtain ⟨⟨record, d₁⟩, -, h⟩ := bind_ok.1 h
    obtain ⟨⟨others, d₂⟩, hothers, h⟩ := bind_ok.1 h
    cases h
    rw [List.length_cons, List.length_cons, ih hothers]

theorem length_edges {r : Runtime} {input : FactBatchInput} {lookup : Lookup} {drawn drawn' : ℕ}
    {prepared : PreparedFactBatch} (h : prepareFactBatch r input lookup drawn = .ok (prepared, drawn')) :
    prepared.edges.length = input.edges.length := by
  obtain ⟨d, -, hedges⟩ := prepareFactBatch_parts h
  exact length_normalizeEdges hedges

theorem Identified.recorded (h : Identified env s) {input : BatchInput} {fails : ℕ → Option Thrown}
    {store : BatchStore} (hcommit : s.store.commitFactBatch env fails input = .ok store) :
    Recorded s.store input store := by
  have hafter := h.commit hcommit
  obtain ⟨prepared, drawn, hcommit⟩ := BatchStore.commitFactBatch_ok env hcommit
  obtain ⟨-, hnamed, hjoined⟩ := prepareFactBatch_ok (lookup_sound _ _ _) hcommit.preparation
  have hlength := hnamed.length_eq
  have hedges := length_edges hcommit.preparation
  have hseqs := map_factSeq_numbered (FactStore.maxSeq s.store.factStore.facts.rows + 1) prepared.facts
  refine ⟨⟨_, hcommit.facts, ?_, ?_, ?_⟩, ⟨prepared.edges, hcommit.edges, hedges, ?_⟩,
    ⟨_, hcommit.batches, rfl, hlength, hedges, _, hcommit.events, rfl⟩, hcommit.toolRuns⟩
  · rw [← List.length_map (·.factSeq), hseqs, List.length_range', hlength]
  · rw [hseqs, hlength]
  · intro fact hfact
    constructor
    · have hrow : fact ∈ (s.record input store).observed.map (·.fact) := by
        rw [hafter.facts]
        exact (hcommit.facts ▸ List.mem_append_right _ hfact : fact ∈ store.factStore.facts.rows)
      obtain ⟨o, ho, rfl⟩ := List.mem_map.1 hrow
      obtain ⟨ref, href, hid, -⟩ := hafter.subjects o ho
      exact ⟨ref, href, hid⟩
    · rw [hcommit.versions]
      exact hasVersion_foldl.2 fact hfact
  · intro edge hedge
    obtain ⟨⟨source, hsource, hfrom⟩, target, htarget, hto⟩ := hjoined edge hedge
    refine ⟨⟨source, (h.mem_refs hcommit hsource).1, hfrom.symm⟩,
      ⟨target, (h.mem_refs hcommit htarget).1, hto.symm⟩, ?_⟩
    rw [hcommit.relationProvenance]
    exact ⟨_, List.mem_append_right _ (List.mem_map_of_mem hedge), rfl⟩

/-- In every run: a commit records its batch in every table or changes nothing; the numbers of the facts
    grow; two facts of a scan have the same subject exactly when the same object was observed, and there
    is one reference for it; and a tool run that has ended stays ended. -/
theorem commit_keeps_identity (ops : List BatchOp) :
    (∀ input fails, step env (runOps env ops) (.commitFactBatch input fails) = runOps env ops ∨
      Recorded (runOps env ops).store input
        (step env (runOps env ops) (.commitFactBatch input fails)).store) ∧
    ((runOps env ops).store.factStore.facts.rows.map (·.factSeq)).Pairwise (· < ·) ∧
    (runOps env ops).observed.map (·.fact) = (runOps env ops).store.factStore.facts.rows ∧
    (NoCollision env (runOps env ops) →
      ∀ o ∈ (runOps env ops).observed, ∀ o' ∈ (runOps env ops).observed,
        o.fact.taskId = o'.fact.taskId → o.fact.epochId = o'.fact.epochId →
        (o.fact.subjectRef = o'.fact.subjectRef ↔
          o.fact.namespace_ = o'.fact.namespace_ ∧ o.identity = o'.identity)) ∧
    (∀ ref ∈ (runOps env ops).store.factStore.refs.rows,
      ∀ ref' ∈ (runOps env ops).store.factStore.refs.rows,
        ref.taskId = ref'.taskId → ref.epochId = ref'.epochId → ref.namespace_ = ref'.namespace_ →
        ref.stableIdentity = ref'.stableIdentity → ref = ref') ∧
    (∀ toolCallId ops', Ended (runOps env ops).store.toolRuns toolCallId →
      Ended (runOps env (ops ++ ops')).store.toolRuns toolCallId) := by
  have h : Identified env (runOps env ops) := run_identified ops
  refine ⟨?_, h.increasing, h.facts, ?_, ?_, ?_⟩
  · intro input fails
    rw [step]
    cases hcommit : (runOps env ops).store.commitFactBatch env fails input with
    | error e => exact Or.inl rfl
    | ok store => exact Or.inr (h.recorded hcommit)
  · intro hapart o ho o' ho' htask hepoch
    obtain ⟨ref, href, hid, hkey⟩ := h.subjects o ho
    obtain ⟨ref', href', hid', hkey'⟩ := h.subjects o' ho'
    constructor
    · intro hsubject
      have hsame : ref = ref' :=
        (runOps env ops).store.factStore.refs.eq_of_key href href' (hid.trans (hsubject.trans hid'.symm))
      rw [hsame, hkey'] at hkey
      exact hapart o ho o' ho' (Prod.mk.inj (Prod.mk.inj (Prod.mk.inj hkey).2).2).2.symm
    · rintro ⟨hns, hidentity⟩
      have hsame : ref = ref' := by
        refine (runOps env ops).store.factStore.refs.eq_of_alt href href' ?_
        rw [hkey, hkey', htask, hepoch, hns, hidentity]
      rw [← hid, ← hid', hsame]
  · intro ref href ref' href' htask hepoch hns hidentity
    refine (runOps env ops).store.factStore.refs.eq_of_alt href href' ?_
    rw [ObjectReference.identityKey, ObjectReference.identityKey, htask, hepoch, hns,
      h.digests ref href, h.digests ref' href', hns, hidentity]
  · intro toolCallId ops' hended
    rw [runOps, Runs.run_append]
    exact Runs.run_invariant (I := fun (s : BatchSystem) => Ended s.store.toolRuns toolCallId) (C := fun _ _ => True)
      (fun _ op h _ => step_ended op h) ops' _ hended (Runs.along_true _ _)

/-! ### Two batches -/

/-- The text of a value, or the fact that a version comes from. -/
def sampleDigest (value : Json) : String :=
  match value.get? "sourceFactRef" with
  | some (.str factId) => factId
  | _ => String.ofList (JsonDump.dump (JsonDump.compact fun _ => []) value)

def sampleBatchEnv : FactEnv where
  query := ⟨Js.plainCoercions, Js.codeUnitCollation⟩
  normalizer := ⟨fun _ => none, sampleDigest, tallyIds⟩
  digestAst _ := ""

def cronIdentity : Payload := [("kind", .str "cron"), ("sourceDigest", .str "d")]

/-- One observation of the cron job, with an edge to itself. -/
def cronBatch (observedAt command : String) : BatchInput where
  taskId := "TASK-1"
  epochId := "EPOCH-1"
  sourceRunId := "CALL-1"
  source := { kind := .model }
  targetFingerprint := "SHA256:host"
  requestId := "REQ-1"
  collector := ⟨"helper", "2"⟩
  observations := [{
    namespace_ := .persistence
    identity := cronIdentity
    fields := [("command", .str command)]
    unavailableFields := []
    observedAt
    consistency := .pointInTime }]
  edges := [⟨"executes", ⟨.persistence, cronIdentity⟩, ⟨.persistence, cronIdentity⟩, observedAt⟩]
  gaps := []
  wireDigest := "w"

def opened : BatchOp := .createScanEpoch ⟨"EPOCH-1", "TASK-1", "SHA256:host", .running⟩

def committed (observedAt command : String) : BatchOp :=
  .commitFactBatch (cronBatch observedAt command) fun _ => none

instance (s : BatchSystem) : Decidable (NoCollision env s) :=
  inferInstanceAs (Decidable (∀ o ∈ s.observed, _))

theorem commit_keeps_identity_sample :
    (runOps sampleBatchEnv [opened, committed "1" "sh", committed "2" "bash"]).observed.length = 2 ∧
    ∀ o ∈ (runOps sampleBatchEnv [opened, committed "1" "sh", committed "2" "bash"]).observed,
      ∀ o' ∈ (runOps sampleBatchEnv [opened, committed "1" "sh", committed "2" "bash"]).observed,
        o.fact.taskId = o'.fact.taskId → o.fact.epochId = o'.fact.epochId →
        (o.fact.subjectRef = o'.fact.subjectRef ↔
          o.fact.namespace_ = o'.fact.namespace_ ∧ o.identity = o'.identity) :=
  ⟨by decide +kernel, (commit_keeps_identity _).2.2.2.1 (by decide +kernel)⟩

end BatchSystem

end HuntWarden
