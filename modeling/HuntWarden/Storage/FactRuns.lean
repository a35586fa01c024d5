import HuntWarden.Lib.Runs
import HuntWarden.Storage.Facts

/-! The operations on the fact tables in any order. A failed operation leaves the store as it was; the
    facts of a store stay at the front of every later store, and the newer ones have greater sequence
    numbers than all of them. -/

namespace HuntWarden

open Outcome FactQuery Normalizer

inductive FactOp where
  | createScanEpoch (epoch : EpochRecord)
  | finishScanEpoch (taskId epochId : String) (status : EpochStatus)
  | commitFactBatch (input : FactBatchInput)
  | queryFacts (taskId epochId : String) (ast : FactQueryAst)
  | previewQueryFacts (taskId epochId : String) (ast : FactQueryAst)
  /-- Evidence, assessments and coverage runs are written by other components. -/
  | putViewRows (view : View) (taskId epochId : String) (rows : List StaticRow)

namespace FactStore

def putViewRows (s : FactStore) (view : View) (taskId epochId : String) (rows : List StaticRow) :
    FactStore :=
  { s with viewRows := fun v t e =>
      if v = view ∧ t = taskId ∧ e = epochId then rows else s.viewRows v t e }

/-- A preview draws the references of its page and keeps none of them. -/
def step (env : FactEnv) (s : FactStore) : FactOp → FactStore
  | .createScanEpoch epoch => transact s (s.createScanEpoch epoch)
  | .finishScanEpoch taskId epochId status => transact s (s.finishScanEpoch taskId epochId status)
  | .commitFactBatch input => transact s (s.commitFactBatch env input)
  | .queryFacts taskId epochId ast => transact s (do
      let (s', _) ← s.queryFacts env taskId epochId ast
      return s')
  | .previewQueryFacts _ _ _ => { s with drawn := s.drawn + 1 }
  | .putViewRows view taskId epochId rows => s.putViewRows view taskId epochId rows

variable {env : FactEnv}

theorem queryFacts_ok {s s' : FactStore} {taskId epochId : String} {ast : FactQueryAst}
    {page : FactQueryPage} (h : s.queryFacts env taskId epochId ast = .ok (s', page)) :
    ∃ result, s.prepareQueryFacts env taskId epochId ast = .ok result ∧ page = result.page ∧
      s.keepResult taskId epochId result = .ok s' := by
  obtain ⟨result, hresult, h⟩ := bind_ok.1 h
  obtain ⟨kept, hkept, h⟩ := bind_ok.1 h
  cases h
  exact ⟨result, hresult, rfl, hkept⟩

/-! ### Later stores -/

/-- What is kept of a store in every later one. -/
structure Extends (s s' : FactStore) : Prop where
  facts : ∃ more, s'.facts.rows = s.facts.rows ++ more ∧
    ∀ fact ∈ more, maxSeq s.facts.rows < fact.factSeq
  cursors : ∀ row ∈ s.cursors.rows, row ∈ s'.cursors.rows

theorem Extends.of_facts_eq {s s' : FactStore} (hfacts : s'.facts = s.facts)
    (hcursors : ∀ row ∈ s.cursors.rows, row ∈ s'.cursors.rows) : Extends s s' :=
  ⟨⟨[], by rw [hfacts, List.append_nil], by simp⟩, hcursors⟩

theorem Extends.refl (s : FactStore) : Extends s s := .of_facts_eq rfl fun _ h => h

theorem Extends.trans {s s' s'' : FactStore} (h : Extends s s') (h' : Extends s' s'') :
    Extends s s'' := by
  obtain ⟨more, hrows, hmore⟩ := h.facts
  obtain ⟨more', hrows', hmore'⟩ := h'.facts
  refine ⟨⟨more ++ more', by rw [hrows', hrows, List.append_assoc], ?_⟩,
    fun row hrow => h'.cursors row (h.cursors row hrow)⟩
  intro fact hfact
  rcases List.mem_append.1 hfact with hfact | hfact
  · exact hmore fact hfact
  · refine (maxSeq_append s.facts.rows more).trans_lt ?_
    rw [← hrows]
    exact hmore' fact hfact

theorem keepResult_extends {s s' : FactStore} {taskId epochId : String} {result : QueryResult}
    (h : s.keepResult taskId epochId result = .ok s') : Extends s s' := by
  obtain ⟨hfacts, -, -, hcursors⟩ := keepResult_ok h
  exact .of_facts_eq hfacts fun row hrow => hcursors ▸ List.mem_append_left _ hrow

theorem step_extends (s : FactStore) (op : FactOp) : Extends s (step env s op) := by
  cases op with
  | createScanEpoch epoch =>
    refine transact_induction (.refl s) fun s' h => ?_
    obtain ⟨epochs, _, h⟩ := bind_ok.1 h
    cases h
    exact .of_facts_eq rfl fun _ hrow => hrow
  | finishScanEpoch taskId epochId status =>
    refine transact_induction (.refl s) fun s' h => ?_
    obtain ⟨epoch, _, h⟩ := bind_ok.1 h
    rw [← pure_ok.1 h]
    split <;> exact .of_facts_eq rfl fun _ hrow => hrow
  | commitFactBatch input =>
    refine transact_induction (.refl s) fun s' h => ?_
    have hcommit := commitFactBatch_ok env h
    obtain ⟨prepared, -, -, -, hrows⟩ := hcommit.facts
    exact ⟨⟨_, hrows, fun _ hfact => le_numbered hfact⟩, fun _ hrow => hcommit.cursors ▸ hrow⟩
  | queryFacts taskId epochId ast =>
    refine transact_induction (.refl s) fun s' h => ?_
    obtain ⟨⟨kept, page⟩, hquery, h⟩ := bind_ok.1 h
    cases h
    obtain ⟨result, -, -, hkept⟩ := queryFacts_ok hquery
    exact keepResult_extends hkept
  | previewQueryFacts => exact .of_facts_eq rfl fun _ hrow => hrow
  | putViewRows => exact .of_facts_eq rfl fun _ hrow => hrow

theorem run_extends (env : FactEnv) (s : FactStore) (ops : List FactOp) : Extends s (Runs.run (step env) s ops) :=
  Runs.run_rel (I := fun _ => True) Extends.refl Extends.trans (fun _ _ _ _ => trivial)
    (fun s op _ _ => step_extends s op) ops s trivial (Runs.along_true s ops)

/-! ### Fresh references -/

/-- The references a page would be given are not in use. -/
structure Fresh (env : FactEnv) (s : FactStore) : Prop where
  snapshots : ∀ row ∈ s.snapshots.rows, ∃ n < s.drawn,
    row.queryRef = env.normalizer.ids.createId .query n
  cursors : ∀ row ∈ s.cursors.rows, ∃ n < s.drawn,
    row.cursorRef = env.normalizer.ids.createId .queryCursor n

theorem Fresh.of_eq {s s' : FactStore} (h : Fresh env s) (hsnap : s'.snapshots = s.snapshots)
    (hcur : s'.cursors = s.cursors) (hdrawn : s.drawn ≤ s'.drawn) : Fresh env s' := by
  constructor
  · rw [hsnap]
    intro row hrow
    obtain ⟨n, hn, href⟩ := h.snapshots row hrow
    exact ⟨n, hn.trans_le hdrawn, href⟩
  · rw [hcur]
    intro row hrow
    obtain ⟨n, hn, href⟩ := h.cursors row hrow
    exact ⟨n, hn.trans_le hdrawn, href⟩

/-- A result whose references are those of the store. -/
structure RefsOf (env : FactEnv) (s : FactStore) (result : QueryResult) : Prop where
  snapshot : result.snapshot.queryRef = (s.pageRefs env).queryRef
  cursor : ∀ cursor, result.cursor = some cursor → cursor.1 = (s.pageRefs env).cursorRef

theorem prepareQueryFacts_refs {s : FactStore} {taskId epochId : String} {ast : FactQueryAst}
    {result : QueryResult} (h : s.prepareQueryFacts env taskId epochId ast = .ok result) :
    RefsOf env s result := by
  obtain ⟨cursor, _, h⟩ := bind_ok.1 h
  simp only at h
  split at h
  · obtain ⟨facts, _, h⟩ := bind_ok.1 h
    obtain ⟨_, _, h⟩ := bind_ok.1 h
    obtain ⟨_, _, h⟩ := bind_ok.1 h
    obtain ⟨_, _, h⟩ := bind_ok.1 h
    cases h
    refine ⟨rfl, fun cursor hcursor => ?_⟩
    obtain ⟨_, _, rfl⟩ := Option.map_eq_some_iff.1 hcursor
    rfl
  · obtain ⟨_, _, h⟩ := bind_ok.1 h
    obtain ⟨_, _, h⟩ := bind_ok.1 h
    obtain ⟨_, _, h⟩ := bind_ok.1 h
    cases h
    refine ⟨rfl, fun cursor hcursor => ?_⟩
    simp only at hcursor
    split at hcursor
    · cases hcursor
    · cases hcursor; rfl

theorem keepResult_fresh {s s' : FactStore} {taskId epochId : String} {result : QueryResult}
    (h : Fresh env s) (hrefs : RefsOf env s result)
    (hkept : s.keepResult taskId epochId result = .ok s') : Fresh env s' := by
  obtain ⟨-, hdrawn, hsnap, hcur⟩ := keepResult_ok hkept
  constructor
  · rw [hsnap, hdrawn]
    intro row hrow
    rcases List.mem_append.1 hrow with hrow | hrow
    · obtain ⟨n, hn, href⟩ := h.snapshots row hrow
      exact ⟨n, hn.trans (Nat.lt_succ_self _), href⟩
    · obtain rfl := List.mem_singleton.1 hrow
      exact ⟨s.drawn, Nat.lt_succ_self _, hrefs.snapshot⟩
  · rw [hcur, hdrawn]
    intro row hrow
    rcases List.mem_append.1 hrow with hrow | hrow
    · obtain ⟨n, hn, href⟩ := h.cursors row hrow
      exact ⟨n, hn.trans (Nat.lt_succ_self _), href⟩
    · rw [Option.mem_toList, Option.map_eq_some_iff] at hrow
      obtain ⟨cursor, hcursor, rfl⟩ := hrow
      exact ⟨s.drawn, Nat.lt_succ_self _, hrefs.cursor cursor hcursor⟩

theorem step_fresh {s : FactStore} (h : Fresh env s) (op : FactOp) : Fresh env (step env s op) := by
  cases op with
  | createScanEpoch epoch =>
    refine transact_induction h fun s' hs' => ?_
    obtain ⟨epochs, _, hs'⟩ := bind_ok.1 hs'
    cases hs'
    exact h.of_eq rfl rfl (Nat.le_refl _)
  | finishScanEpoch taskId epochId status =>
    refine transact_induction h fun s' hs' => ?_
    obtain ⟨epoch, _, hs'⟩ := bind_ok.1 hs'
    rw [← pure_ok.1 hs']
    split <;> exact h.of_eq rfl rfl (Nat.le_refl _)
  | commitFactBatch input =>
    refine transact_induction h fun s' hs' => ?_
    have hcommit := commitFactBatch_ok env hs'
    obtain ⟨prepared, drawn, hprepared, hdrawn, -⟩ := hcommit.facts
    exact h.of_eq hcommit.snapshots hcommit.cursors (hdrawn ▸ drawn_prepareFactBatch hprepared)
  | queryFacts taskId epochId ast =>
    refine transact_induction h fun s' hs' => ?_
    obtain ⟨⟨kept, page⟩, hquery, hs'⟩ := bind_ok.1 hs'
    cases hs'
    obtain ⟨result, hresult, -, hkept⟩ := queryFacts_ok hquery
    exact keepResult_fresh h (prepareQueryFacts_refs hresult) hkept
  | previewQueryFacts => exact h.of_eq rfl rfl (Nat.le_succ _)
  | putViewRows => exact h.of_eq rfl rfl (Nat.le_refl _)

theorem run_fresh {s : FactStore} (h : Fresh env s) (ops : List FactOp) :
    Fresh env (Runs.run (step env) s ops) :=
  Runs.run_invariant (I := Fresh env) (fun _ op h _ => step_fresh h op) ops s h
    (Runs.along_true s ops)

theorem fresh_empty : Fresh env empty := ⟨by simp [empty], by simp [empty]⟩

/-- With fresh references a result is always kept. -/
theorem keepResult_succeeds {s : FactStore} (taskId epochId : String) (h : Fresh env s)
    {result : QueryResult} (hrefs : RefsOf env s result) :
    ∃ s', s.keepResult taskId epochId result = .ok s' := by
  have hsnap : ∃ snapshots, s.snapshots.insert? result.snapshot = some snapshots := by
    refine Option.ne_none_iff_exists'.1 fun hnone => ?_
    obtain ⟨row, hrow, hkey⟩ := Table.insert?_eq_none.1 hnone
    obtain ⟨n, hn, href⟩ := h.snapshots row hrow
    have hn' := env.normalizer.ids.injective _ ((href.symm.trans hkey).trans hrefs.snapshot)
    omega
  obtain ⟨snapshots, hsnap⟩ := hsnap
  have hcur : ∃ cursors, insertCursor s.cursors taskId epochId result.cursor = .ok cursors := by
    rcases hc : result.cursor with _ | ⟨cursorRef, payload⟩
    · exact ⟨_, rfl⟩
    · have hsome : ∃ cursors,
          s.cursors.insert? ⟨cursorRef, taskId, epochId, payload⟩ = some cursors := by
        refine Option.ne_none_iff_exists'.1 fun hnone => ?_
        obtain ⟨row, hrow, hkey⟩ := Table.insert?_eq_none.1 hnone
        obtain ⟨n, hn, href⟩ := h.cursors row hrow
        have hn' := env.normalizer.ids.injective _
          ((href.symm.trans hkey).trans (hrefs.cursor _ hc))
        omega
      obtain ⟨cursors, hsome⟩ := hsome
      exact ⟨cursors, orThrow_ok.2 hsome⟩
  obtain ⟨cursors, hcur⟩ := hcur
  exact ⟨_, bind_ok.2 ⟨_, orThrow_ok.2 hsnap, bind_ok.2 ⟨_, hcur, rfl⟩⟩⟩

/-! ### Accounts of one host -/

/-- The user name tells the accounts below apart. -/
def sampleEnv : FactEnv where
  query := ⟨Js.plainCoercions, Js.codeUnitCollation⟩
  normalizer :=
    { dateParse := fun _ => some 0
      digestObject := fun value => (((value.get? "stableIdentity").bind (·.get? "username")).bind
        Json.asString?).getD "payload"
      ids := tallyIds }
  digestAst ast := ast.view.name

def sampleEpoch : EpochRecord := ⟨"EPOCH-1", "TASK-1", "host-1", .running⟩

/-- An account as the helper reports it. -/
def sampleAccount (uid : ℚ) (username passwordHash : String) : WireObservation where
  namespace_ := .account
  identity := [("uid", .num uid), ("username", .str username)]
  fields := [("shell", .str "/bin/sh"), ("passwordHash", .str passwordHash)]
  unavailableFields := []
  observedAt := "2026-01-01T00:00:00Z"
  consistency := .pointInTime

def sampleBatch (observations : List WireObservation) : FactBatchInput where
  taskId := "TASK-1"
  epochId := "EPOCH-1"
  sourceRunId := "call-1"
  source := { kind := .model }
  targetFingerprint := "host-1"
  requestId := "REQ-1"
  collector := ⟨"huntwarden-helper", "2"⟩
  observations
  edges := []
  gaps := []
  wireDigest := "wire"

end FactStore

end HuntWarden
