import HuntWarden.Facts.Normalizer
import HuntWarden.Facts.Query
import HuntWarden.Lib.Table

/-! The fact tables of the runtime store: batches are committed whole under sequence numbers that only
    grow, and `query_facts` is answered from them. A page reads as few rows as it can: the filters, the
    snapshot bound, the cursor position and, when nothing else decides, the limit go into the statement. -/

namespace HuntWarden

open Outcome FactQuery Normalizer

inductive EpochStatus where
  | running | completed | partialEpoch | aborted
  deriving DecidableEq, Repr

/-- The columns of an epoch that a batch is checked against. -/
structure EpochRecord where
  epochId : String
  taskId : String
  targetFingerprint : String
  status : EpochStatus
  deriving DecidableEq, Repr

/-- `UNIQUE(task_id, epoch_id, namespace, identity_digest)`. -/
def ObjectReference.identityKey (ref : ObjectReference) :
    String × String × NamespaceName × String :=
  (ref.taskId, ref.epochId, ref.namespace_, ref.stableIdentityDigest)

structure FactEnv where
  query : FactQuery.Runtime
  normalizer : Normalizer.Runtime
  digestAst : FactQueryAst → String

structure StoredCursor where
  cursorRef : String
  taskId : String
  epochId : String
  payload : QueryCursor

structure FactStore where
  epochs : Table EpochRecord.epochId
  refs : IndexedTable ObjectReference.ref ObjectReference.identityKey
  facts : IndexedTable FactRecord.factSeq FactRecord.factId
  edges : Table EdgeRecord.edgeId
  /-- The rows of the views that no fact batch writes to, by task and epoch. -/
  viewRows : View → String → String → List StaticRow
  cursors : Table StoredCursor.cursorRef
  snapshots : Table QuerySnapshot.queryRef
  drawn : ℕ

namespace FactStore

def empty : FactStore where
  epochs := .empty
  refs := .empty
  facts := .empty
  edges := .empty
  viewRows _ _ _ := []
  cursors := .empty
  snapshots := .empty
  drawn := 0

/-! ### Reading -/

structure ListFactsOptions where
  namespace_ : Option NamespaceName := none
  sourceRunId : Option String := none
  sourceKind : Option FactSourceKind := none
  subjectRef : Option String := none
  completeness : Option Completeness := none
  minFactSeqExclusive : Option ℕ := none
  maxFactSeq : Option ℕ := none
  limit : Option ℤ := none

/-- The `WHERE` clause. -/
def ListFactsOptions.admits (options : ListFactsOptions) (taskId epochId : String)
    (fact : FactRecord) : Bool :=
  fact.taskId = taskId && fact.epochId = epochId &&
  options.namespace_.all (fact.namespace_ = ·) &&
  (Js.truthyText options.sourceRunId).all (fact.sourceRunId = ·) &&
  options.sourceKind.all (fact.source.kind = ·) &&
  (Js.truthyText options.subjectRef).all (fact.subjectRef = ·) &&
  options.completeness.all (fact.completeness = ·) &&
  options.minFactSeqExclusive.all (· < fact.factSeq) &&
  options.maxFactSeq.all (fact.factSeq ≤ ·)

/-- `ORDER BY fact_seq`. -/
def bySeq (facts : List FactRecord) : List FactRecord :=
  facts.insertionSort fun left right => left.factSeq ≤ right.factSeq

def listFacts (s : FactStore) (taskId epochId : String) (options : ListFactsOptions) :
    Except Thrown (List FactRecord) := do
  require (options.limit.all (1 ≤ ·)) (invalidArgument "Fact 查询 SQL limit 非法")
  let rows := bySeq (s.facts.rows.filter (options.admits taskId epochId))
  return options.limit.elim rows fun limit => rows.take limit.toNat

/-- `COALESCE(MAX(fact_seq), 0)` over the given rows. -/
def maxSeq (facts : List FactRecord) : ℕ := (facts.map (·.factSeq)).foldl max 0

def maxFactSeq (s : FactStore) (taskId epochId : String) : ℕ :=
  maxSeq (s.facts.rows.filter fun fact => fact.taskId = taskId && fact.epochId = epochId)

def edgeRow (edge : EdgeRecord) : StaticRow where
  key := edge.edgeId
  fields := [("edgeId", .str edge.edgeId), ("relation", .str edge.relation),
    ("fromRef", .str edge.fromRef), ("toRef", .str edge.toRef),
    ("sourceRunId", .str edge.sourceRunId), ("observedAt", .str edge.observedAt)]

/-- `ORDER BY edge_id`. -/
def listEdges (s : FactStore) (taskId epochId : String) : List EdgeRecord :=
  (s.edges.rows.filter fun edge => edge.taskId = taskId && edge.epochId = epochId).insertionSort
    fun left right => left.edgeId ≤ right.edgeId

def modelViewRows (s : FactStore) (taskId epochId : String) : View → List StaticRow
  | .edges => (s.listEdges taskId epochId).map edgeRow
  | view => s.viewRows view taskId epochId

/-- The stored cursor of the query, or none when the query starts afresh. -/
def findCursor (s : FactStore) (taskId epochId : String) (ast : FactQueryAst) :
    Except Thrown (Option QueryCursor) :=
  match Js.truthyText ast.cursorRef with
  | none => .ok none
  | some cursorRef => do
    let row ← orThrow ((s.cursors.get? cursorRef).filter fun row =>
        row.taskId = taskId && row.epochId = epochId)
      (invalidArgument "未知或跨 task/epoch 的 Query cursor")
    return some row.payload

/-- What the statement can be told about the page. -/
def pageOptions (ast : FactQueryAst) (snapshotMax : ℕ) (cursor : Option QueryCursor) :
    ListFactsOptions :=
  let positioned := cursor.filter fun cursor => cursor.mode ≠ some .remaining
  { namespace_ := ast.namespace_
    sourceRunId := ast.sourceRunId
    sourceKind := ast.sourceKind
    subjectRef := ast.subjectRef
    completeness := ast.completeness
    minFactSeqExclusive := positioned.bind (·.lastFactSeq)
    maxFactSeq := some snapshotMax
    limit := if ast.predicate.isNone && isDefaultFactOrder ast &&
        cursor.all (·.mode ≠ some .remaining) then some (ast.limit + 1) else none }

variable (env : FactEnv)

def pageRefs (s : FactStore) : PageRefs where
  queryRef := env.normalizer.ids.createId .query s.drawn
  cursorRef := env.normalizer.ids.createId .queryCursor s.drawn

def prepareQueryFacts (s : FactStore) (taskId epochId : String) (ast : FactQueryAst) :
    Except Thrown QueryResult := do
  let cursor ← s.findCursor taskId epochId ast
  let snapshotMax := (cursor.map (·.snapshotMaxFactSeq)).getD (s.maxFactSeq taskId epochId)
  if ast.view = .facts then
    let facts ← s.listFacts taskId epochId (pageOptions ast snapshotMax cursor)
    runFactQuery env.query env.digestAst taskId epochId ast facts snapshotMax cursor (s.pageRefs env)
  else
    runStaticQuery env.query env.digestAst taskId epochId ast
      (s.modelViewRows taskId epochId ast.view) snapshotMax cursor (s.pageRefs env)

def previewQueryFacts (s : FactStore) (taskId epochId : String) (ast : FactQueryAst) :
    Except Thrown FactQueryPage := do
  let result ← s.prepareQueryFacts env taskId epochId ast
  return result.page

def insertCursor (cursors : Table StoredCursor.cursorRef) (taskId epochId : String) :
    Option (String × QueryCursor) → Except Thrown (Table StoredCursor.cursorRef)
  | none => .ok cursors
  | some (cursorRef, payload) => orThrow (cursors.insert? ⟨cursorRef, taskId, epochId, payload⟩)
      (uniqueConstraint "query_cursors_v2.cursor_ref")

/-- Keeps the snapshot and the cursor of a page. -/
def keepResult (s : FactStore) (taskId epochId : String) (result : QueryResult) :
    Except Thrown FactStore := do
  let snapshots ← orThrow (s.snapshots.insert? result.snapshot)
    (uniqueConstraint "query_snapshots_v2.query_ref")
  let cursors ← insertCursor s.cursors taskId epochId result.cursor
  return { s with snapshots, cursors, drawn := s.drawn + 1 }

def queryFacts (s : FactStore) (taskId epochId : String) (ast : FactQueryAst) :
    Except Thrown (FactStore × FactQueryPage) := do
  let result ← s.prepareQueryFacts env taskId epochId ast
  let s' ← s.keepResult taskId epochId result
  return (s', result.page)

/-! ### Writing -/

def createScanEpoch (s : FactStore) (epoch : EpochRecord) : Except Thrown FactStore := do
  let epochs ← orThrow (s.epochs.insert? epoch) (uniqueConstraint "scan_epochs.epoch_id")
  return { s with epochs }

def finishScanEpoch (s : FactStore) (taskId epochId : String) (status : EpochStatus) :
    Except Thrown FactStore := do
  let epoch ← orThrow ((s.epochs.get? epochId).filter fun epoch => epoch.taskId = taskId)
    (invalidArgument "未知 ScanEpoch")
  return if epoch.status = .running then { s with epochs := s.epochs.set { epoch with status } }
    else s

/-- Inserts the facts of a batch under the next sequence numbers. -/
def insertFacts (facts : IndexedTable FactRecord.factSeq FactRecord.factId) (nextSeq : ℕ) :
    List FactRecord → Except Thrown (IndexedTable FactRecord.factSeq FactRecord.factId)
  | [] => .ok facts
  | fact :: rest => do
    let facts ← orThrow (facts.insert? { fact with factSeq := nextSeq })
      (uniqueConstraint "facts_v2.fact_id")
    insertFacts facts (nextSeq + 1) rest

def insertEdges (edges : Table EdgeRecord.edgeId) :
    List EdgeRecord → Except Thrown (Table EdgeRecord.edgeId)
  | [] => .ok edges
  | edge :: rest => do
    let edges ← orThrow (edges.insert? edge) (uniqueConstraint "fact_edges_v2.edge_id")
    insertEdges edges rest

def findObjectReferenceByIdentity (s : FactStore) (taskId epochId : String) : Lookup :=
  fun namespace_ digest => s.refs.rows.find? fun ref =>
    ref.identityKey = (taskId, epochId, namespace_, digest)

def commitFactBatch (s : FactStore) (input : FactBatchInput) : Except Thrown FactStore := do
  let epoch := (s.epochs.get? input.epochId).filter fun epoch => epoch.taskId = input.taskId
  let epoch ← orThrow (epoch.filter fun epoch => epoch.status = .running)
    (securityError .recoveryUncertain "FactBatch 必须写入当前 RUNNING epoch")
  require (epoch.targetFingerprint = input.targetFingerprint)
    (securityError .invalidTarget "FactBatch 目标身份与 epoch 不匹配")
  let (prepared, drawn) ← prepareFactBatch env.normalizer input
    (s.findObjectReferenceByIdentity input.taskId input.epochId) s.drawn
  let facts ← insertFacts s.facts (maxSeq s.facts.rows + 1) prepared.facts
  let edges ← insertEdges s.edges prepared.edges
  return { s with
    refs := prepared.refs.foldl (fun refs ref => refs.insertOrIgnore ref) s.refs
    facts, edges, drawn }

/-! ### What the reads and writes say -/

theorem le_maxSeq {facts : List FactRecord} {fact : FactRecord} (h : fact ∈ facts) :
    fact.factSeq ≤ maxSeq facts :=
  Js.le_foldl_max.2 _ (List.mem_map_of_mem h)

theorem maxSeq_append (facts more : List FactRecord) :
    maxSeq facts ≤ maxSeq (facts ++ more) := by
  rw [maxSeq, maxSeq, List.map_append, List.foldl_append]
  exact Js.le_foldl_max.1

/-- No fact of a scan is newer than the newest fact of all. -/
theorem maxSeq_filter (p : FactRecord → Bool) : ∀ (facts : List FactRecord) (a b : ℕ), a ≤ b →
    ((facts.filter p).map (·.factSeq)).foldl max a ≤ (facts.map (·.factSeq)).foldl max b
  | [], _, _, h => h
  | fact :: facts, a, b, h => by
      rw [List.filter_cons, List.map_cons, List.foldl_cons]
      split
      · exact maxSeq_filter p facts _ _ (max_le_max_right _ h)
      · exact maxSeq_filter p facts _ _ (h.trans (le_max_left b _))

theorem maxFactSeq_le (s : FactStore) (taskId epochId : String) :
    s.maxFactSeq taskId epochId ≤ maxSeq s.facts.rows :=
  maxSeq_filter _ _ 0 0 (Nat.le_refl 0)

/-- The facts under the sequence numbers they are inserted with. -/
def numbered : ℕ → List FactRecord → List FactRecord
  | _, [] => []
  | nextSeq, fact :: rest => { fact with factSeq := nextSeq } :: numbered (nextSeq + 1) rest

theorem le_numbered : ∀ {facts : List FactRecord} {nextSeq : ℕ} {fact : FactRecord},
    fact ∈ numbered nextSeq facts → nextSeq ≤ fact.factSeq
  | [], _, _, h => by cases h
  | _ :: _, nextSeq, _, h => by
      rcases List.mem_cons.1 h with rfl | h
      · exact Nat.le_refl nextSeq
      · exact (Nat.le_succ nextSeq).trans (le_numbered h)

theorem insertFacts_ok : ∀ {prepared : List FactRecord} {nextSeq : ℕ}
    {facts facts' : IndexedTable FactRecord.factSeq FactRecord.factId},
    insertFacts facts nextSeq prepared = .ok facts' →
      facts'.rows = facts.rows ++ numbered nextSeq prepared
  | [], _, facts, _, h => by cases h; exact (List.append_nil _).symm
  | fact :: rest, nextSeq, facts, _, h => by
      obtain ⟨facts₁, hinsert, h⟩ := bind_ok.1 h
      rw [insertFacts_ok h, (IndexedTable.insert?_eq_some (orThrow_ok.1 hinsert)).2, numbered,
        List.append_assoc, List.singleton_append]

/-- What a committed batch leaves of the store, and what it adds to it. -/
structure Committed (s s' : FactStore) (input : FactBatchInput) : Prop where
  facts : ∃ prepared drawn, prepareFactBatch env.normalizer input
      (s.findObjectReferenceByIdentity input.taskId input.epochId) s.drawn = .ok (prepared, drawn) ∧
    s'.drawn = drawn ∧
    s'.facts.rows = s.facts.rows ++ numbered (maxSeq s.facts.rows + 1) prepared.facts
  cursors : s'.cursors = s.cursors
  snapshots : s'.snapshots = s.snapshots

theorem commitFactBatch_ok {s s' : FactStore} {input : FactBatchInput}
    (h : s.commitFactBatch env input = .ok s') : Committed env s s' input := by
  obtain ⟨epoch, _, h⟩ := bind_ok.1 h
  obtain ⟨_, _, h⟩ := bind_ok.1 h
  obtain ⟨⟨prepared, drawn⟩, hprepared, h⟩ := bind_ok.1 h
  obtain ⟨facts, hfacts, h⟩ := bind_ok.1 h
  obtain ⟨edges, _, h⟩ := bind_ok.1 h
  cases h
  exact ⟨⟨prepared, drawn, hprepared, rfl, insertFacts_ok hfacts⟩, rfl, rfl⟩

/-- The stored cursors once those of the result are added. -/
theorem keepResult_ok {s s' : FactStore} {taskId epochId : String} {result : QueryResult}
    (h : s.keepResult taskId epochId result = .ok s') :
    s'.facts = s.facts ∧ s'.drawn = s.drawn + 1 ∧
      s'.snapshots.rows = s.snapshots.rows ++ [result.snapshot] ∧
      s'.cursors.rows = s.cursors.rows ++ (result.cursor.map fun (cursorRef, payload) =>
        (⟨cursorRef, taskId, epochId, payload⟩ : StoredCursor)).toList := by
  obtain ⟨snapshots, hsnap, h⟩ := bind_ok.1 h
  obtain ⟨cursors, hcur, h⟩ := bind_ok.1 h
  cases h
  refine ⟨rfl, rfl, (Table.insert?_eq_some (orThrow_ok.1 hsnap)).2, ?_⟩
  rcases hc : result.cursor with _ | ⟨cursorRef, payload⟩
  · rw [hc] at hcur
    cases hcur
    exact (List.append_nil _).symm
  · rw [hc] at hcur
    exact (Table.insert?_eq_some (orThrow_ok.1 hcur)).2

end FactStore

end HuntWarden
