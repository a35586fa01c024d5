import HuntWarden.Protocol.Predicate
import HuntWarden.Protocol.Types
import Mathlib.Data.List.Sort

/-! `query_facts`: the query language of the model, its validation, and the evaluation of a page in
    memory. A page starts where its cursor points: after a sequence number when the order is the
    default one, else at the keys the first page left over. -/

namespace HuntWarden.FactQuery

open Outcome

/-- What the language runtime and the digest supply. -/
structure Runtime where
  coercions : Coercions
  collation : Collation

inductive View where
  | facts | edges | evidenceMeta | assessments | coverage
  deriving DecidableEq, Repr

def View.name : View → String
  | .facts => "facts"
  | .edges => "edges"
  | .evidenceMeta => "evidence_meta"
  | .assessments => "assessments"
  | .coverage => "coverage"

inductive Direction where
  | asc | desc
  deriving DecidableEq, Repr

structure OrderBy where
  field : String
  direction : Direction
  deriving DecidableEq, Repr

structure FactQueryAst where
  view : View
  namespace_ : Option NamespaceName := none
  predicate : Option Predicate := none
  sourceRunId : Option String := none
  subjectRef : Option String := none
  sourceKind : Option FactSourceKind := none
  completeness : Option Completeness := none
  category : Option String := none
  authorType : Option String := none
  verdict : Option String := none
  status : Option String := none
  applicability : Option String := none
  select : List String
  orderBy : Option (List OrderBy) := none
  limit : ℤ
  cursorRef : Option String := none
  deriving Repr

/-- `FACT_QUERY_SELECT_FIELDS`. -/
def selectFields : View → List String
  | .facts => ["factId", "factSeq", "namespace", "subjectRef", "observedAt", "sourceRunId", "source",
      "collector", "consistency", "completeness", "gaps", "payload", "redactedFields",
      "unavailableFields"]
  | .edges => ["edgeId", "relation", "fromRef", "toRef", "sourceRunId", "observedAt"]
  | .evidenceMeta => ["evidenceId", "type", "source", "sha256", "size", "collectedAt", "tool",
      "toolCallId", "subjectRef", "complete"]
  | .assessments => ["assessmentId", "authorType", "category", "subjectRef", "scope", "verdict",
      "severity", "confidence", "rationale", "evidenceRefs", "factRefs", "queryRefs", "createdAt"]
  | .coverage => ["coverageId", "category", "presetId", "presetVersion", "status", "applicability",
      "completedCriteria", "missingCriteria", "createdAt"]

/-- Whether one of the filters is set. -/
def anySet (filters : List (Option String)) : Bool :=
  filters.any fun text => (Js.truthyText text).isSome

/-- The filters a view does not know. -/
def foreignFilters (ast : FactQueryAst) : Bool :=
  match ast.view with
  | .facts => false
  | .edges => anySet [ast.category, ast.authorType, ast.verdict, ast.status, ast.applicability]
  | .evidenceMeta => anySet [ast.sourceRunId, ast.category, ast.authorType, ast.verdict, ast.status,
      ast.applicability]
  | .assessments => anySet [ast.sourceRunId, ast.status, ast.applicability]
  | .coverage => anySet [ast.sourceRunId, ast.subjectRef, ast.authorType, ast.verdict]

/-- What the `facts` view accepts. -/
def validateFactsView (ast : FactQueryAst) : Except Thrown Unit := do
  require (ast.predicate.isNone || ast.namespace_.isSome)
    (invalidArgument "带 predicate 的 facts 查询必须指定 namespace")
  ast.namespace_.elim (pure ()) fun namespace_ => Predicate.validatePredicate namespace_
    ast.predicate ⟨Manifest.queryPredicateDepth, Manifest.queryPredicateNodes⟩
  require (!anySet [ast.category, ast.authorType, ast.verdict, ast.status, ast.applicability])
    (invalidArgument "facts 视图不接受其他视图的过滤条件")

/-- What the other views accept. -/
def validateOtherView (ast : FactQueryAst) : Except Thrown Unit :=
  require (ast.namespace_.isNone && ast.predicate.isNone && ast.sourceKind.isNone &&
      ast.completeness.isNone)
    (invalidArgument s!"{ast.view.name} 视图不接受 facts 专用过滤条件")

def validateFactQuery (ast : FactQueryAst) : Except Thrown Unit := do
  require (1 ≤ ast.limit ∧ ast.limit ≤ 500) (invalidArgument "query limit 必须在 1..500")
  require (1 ≤ ast.select.length ∧ ast.select.length ≤ 32 ∧
      ∀ field ∈ ast.select, field ∈ selectFields ast.view)
    (invalidArgument "query select 含非法字段或超过上限")
  require ((ast.orderBy.getD []).length ≤ 3) (invalidArgument "query orderBy 超过上限")
  require ((ast.orderBy.getD []).all fun item => item.field ∈ selectFields ast.view)
    (invalidArgument "query orderBy 含非法字段")
  if ast.view = .facts then validateFactsView ast else validateOtherView ast
  require (!foreignFilters ast) (invalidArgument s!"{ast.view.name} 视图过滤条件不合法")

/-- `{ ...ast, cursorRef: undefined, limit: undefined }`. -/
def canonicalAst (ast : FactQueryAst) : FactQueryAst := { ast with cursorRef := none, limit := 0 }

abbrev Row := List (String × Option Json)

structure FactQueryPage where
  queryRef : String
  rows : List Row
  nextCursorRef : Option String
  snapshotMaxFactSeq : ℕ
  deriving DecidableEq, Repr

structure QuerySnapshot where
  queryRef : String
  taskId : String
  epochId : String
  view : View
  astDigest : String
  maxFactSeq : ℕ
  rowCount : ℕ
  rowRefs : List String
  deriving DecidableEq, Repr

inductive CursorMode where
  | factSeq | remaining
  deriving DecidableEq, Repr

/-- The stored payload of a cursor of either kind; a field of the other kind is `undefined`. -/
structure QueryCursor where
  taskId : String
  epochId : String
  astDigest : String
  snapshotMaxFactSeq : ℕ
  view : Option View := none
  mode : Option CursorMode := none
  lastFactSeq : Option ℕ := none
  remainingFactSeqs : List ℕ := []
  remainingKeys : List String := []
  deriving DecidableEq, Repr

/-- A page, the record of what it showed, and where the next one starts. -/
structure QueryResult where
  page : FactQueryPage
  snapshot : QuerySnapshot
  cursor : Option (String × QueryCursor)
  deriving DecidableEq, Repr

/-- The random parts of a page. -/
structure PageRefs where
  queryRef : String
  cursorRef : String

variable (r : Runtime) (digestAst : FactQueryAst → String)

/-- `String(value)`; `none` is `undefined`. -/
def toText (value : Option Json) : String := (value.map (Js.toText r.coercions)).getD "undefined"

def compareValues (a b : Option Json) : Ordering :=
  match a, b with
  | some (.num x), some (.num y) => cmp x y
  | a, b => r.collation.localeCompare (toText r a) (toText r b)

def Direction.apply : Direction → Ordering → Ordering
  | .asc, o => o
  | .desc, o => o.swap

/-- The first key of the order that tells two records apart. -/
def compareBy (left right : String → Option Json) : List OrderBy → Ordering
  | [] => .eq
  | item :: order =>
    (item.direction.apply (compareValues r (left item.field) (right item.field))).then
      (compareBy left right order)

def defaultOrder : List OrderBy := [⟨"factSeq", .asc⟩]

def orderOf (ast : FactQueryAst) : List OrderBy := ast.orderBy.getD defaultOrder

def isDefaultFactOrder (ast : FactQueryAst) : Bool := orderOf ast = defaultOrder

/-- `compare(left, right, order) || left.factSeq - right.factSeq`, as an order of positions. -/
def factBefore (order : List OrderBy) (left right : FactRecord) : Bool :=
  ((compareBy r left.get? right.get? order).then (cmp left.factSeq right.factSeq)).isLE

def sortFacts (order : List OrderBy) (facts : List FactRecord) : List FactRecord :=
  facts.insertionSort fun left right => factBefore r order left right

/-- The filters of the query, the predicate apart. -/
def matchesFilters (ast : FactQueryAst) (fact : FactRecord) : Bool :=
  ast.namespace_.all (fact.namespace_ = ·) &&
  (Js.truthyText ast.sourceRunId).all (fact.sourceRunId = ·) &&
  (Js.truthyText ast.subjectRef).all (fact.subjectRef = ·) &&
  ast.sourceKind.all (fact.source.kind = ·) &&
  ast.completeness.all (fact.completeness = ·)

def satisfies (ast : FactQueryAst) (fact : FactRecord) : Bool :=
  matchesFilters ast fact && Predicate.evaluatePredicate r.coercions ast.predicate fact.modelPayload

def project (fact : FactRecord) (field : String) : Option Json :=
  if field = "payload" then some (.obj fact.modelPayload) else fact.get? field

/-- `Object.fromEntries(select.map(…))`. -/
def selectRow (select : List String) (get : String → Option Json) : Row :=
  (Js.distinct select).map fun field => (field, get field)

/-- The candidates from the cursor's position on, in order. -/
def fromCursor (ast : FactQueryAst) (cursor : Option QueryCursor) (candidates : List FactRecord) :
    List FactRecord :=
  match cursor with
  | none => sortFacts r (orderOf ast) candidates
  | some cursor =>
    if cursor.mode = some .remaining then
      cursor.remainingFactSeqs.filterMap fun seq => candidates.find? fun fact => fact.factSeq = seq
    else sortFacts r (orderOf ast)
      (candidates.filter fun fact => cursor.lastFactSeq.any (· < fact.factSeq))

def nextCursor (taskId epochId : String) (ast : FactQueryAst) (snapshotMaxFactSeq : ℕ)
    (candidates selected : List FactRecord) : Option QueryCursor :=
  match selected.getLast? with
  | none => none
  | some last =>
    if selected.length < candidates.length then
      some (if isDefaultFactOrder ast then
        { taskId, epochId, astDigest := digestAst (canonicalAst ast), snapshotMaxFactSeq
          mode := some .factSeq, lastFactSeq := some last.factSeq }
      else
        { taskId, epochId, astDigest := digestAst (canonicalAst ast), snapshotMaxFactSeq
          mode := some .remaining
          remainingFactSeqs := (candidates.drop selected.length).map (·.factSeq) })
    else none

/-- The page that the candidates give, its snapshot and its cursor. -/
def pageResult (taskId epochId : String) (ast : FactQueryAst) (snapshotMaxFactSeq : ℕ)
    (candidates : List FactRecord) (refs : PageRefs) : QueryResult :=
  let selected := candidates.take ast.limit.toNat
  let next := nextCursor digestAst taskId epochId ast snapshotMaxFactSeq candidates selected
  { page :=
      { queryRef := refs.queryRef
        rows := selected.map fun fact => selectRow ast.select (project fact)
        nextCursorRef := next.map fun _ => refs.cursorRef
        snapshotMaxFactSeq }
    snapshot :=
      { queryRef := refs.queryRef, taskId, epochId, view := .facts
        astDigest := digestAst (canonicalAst ast), maxFactSeq := snapshotMaxFactSeq
        rowCount := selected.length, rowRefs := selected.map (·.factId) }
    cursor := next.map fun value => (refs.cursorRef, value) }

/-- The facts of the task and epoch, no newer than the snapshot, that the query asks for. -/
def isCandidate (taskId epochId : String) (ast : FactQueryAst) (snapshotMaxFactSeq : ℕ)
    (fact : FactRecord) : Bool :=
  fact.taskId = taskId && fact.epochId = epochId && fact.factSeq ≤ snapshotMaxFactSeq &&
    satisfies r ast fact

def runFactQuery (taskId epochId : String) (ast : FactQueryAst) (facts : List FactRecord)
    (snapshotMaxFactSeq : ℕ) (cursor : Option QueryCursor) (refs : PageRefs) :
    Except Thrown QueryResult := do
  validateFactQuery ast
  require (ast.view = .facts) (invalidArgument "runFactQuery 只处理 facts 视图")
  require (cursor.all fun cursor => cursor.taskId = taskId && cursor.epochId = epochId &&
      cursor.astDigest = digestAst (canonicalAst ast))
    (invalidArgument "Query cursor 与当前 task/epoch/query 不匹配")
  let candidates := fromCursor r ast cursor
    (facts.filter (isCandidate r taskId epochId ast snapshotMaxFactSeq))
  return pageResult digestAst taskId epochId ast snapshotMaxFactSeq candidates refs

/-! ### The other views -/

/-- A row of a view other than `facts`, under its key. -/
structure StaticRow where
  key : String
  fields : Payload
  deriving DecidableEq, Repr

def StaticRow.get? (row : StaticRow) (field : String) : Option Json := row.fields.lookup field

def defaultOrderField : View → String
  | .edges => "observedAt"
  | .evidenceMeta => "collectedAt"
  | _ => "createdAt"

/-- `value ?? ""`. -/
def orEmpty (value : Option Json) : Option Json :=
  match value with
  | none | some .null => some (.str "")
  | some v => some v

def rowBefore (order : List OrderBy) (left right : StaticRow) : Bool :=
  ((compareBy r (fun f => orEmpty (left.get? f)) (fun f => orEmpty (right.get? f)) order).then
    (r.collation.localeCompare left.key right.key)).isLE

/-- `expected === undefined || value === expected`. -/
def admits (expected : Option String) (value : Option Json) : Bool :=
  expected.all fun text => Js.strictEq value (some (.str text))

def matchesStatic (ast : FactQueryAst) (row : StaticRow) : Bool :=
  admits ast.sourceRunId (row.get? "sourceRunId") && admits ast.category (row.get? "category") &&
  admits ast.authorType (row.get? "authorType") && admits ast.verdict (row.get? "verdict") &&
  admits ast.status (row.get? "status") && admits ast.applicability (row.get? "applicability") &&
  if ast.view = .edges then
    admits ast.subjectRef (row.get? "fromRef") || admits ast.subjectRef (row.get? "toRef")
  else admits ast.subjectRef (row.get? "subjectRef")

/-- The rows from the cursor's position on, in order. -/
def fromStaticCursor (order : List OrderBy) (cursor : Option QueryCursor) (rows : List StaticRow) :
    List StaticRow :=
  match cursor with
  | some cursor => cursor.remainingKeys.filterMap fun key => rows.find? fun row => row.key = key
  | none => rows.insertionSort fun left right => rowBefore r order left right

def runStaticQuery (taskId epochId : String) (ast : FactQueryAst) (rows : List StaticRow)
    (snapshotMaxFactSeq : ℕ) (cursor : Option QueryCursor) (refs : PageRefs) :
    Except Thrown QueryResult := do
  validateFactQuery ast
  require (ast.view ≠ .facts) (invalidArgument "runStaticQuery 不处理 facts 视图")
  let astDigest := digestAst (canonicalAst ast)
  require (cursor.all fun cursor => cursor.taskId = taskId && cursor.epochId = epochId &&
      cursor.astDigest = astDigest && cursor.view = some ast.view)
    (invalidArgument "Query cursor 与当前 task/epoch/query 不匹配")
  let matching := rows.filter (matchesStatic ast)
  let order := ast.orderBy.getD [⟨defaultOrderField ast.view, .asc⟩]
  let candidates := fromStaticCursor r order cursor matching
  let selected := candidates.take ast.limit.toNat
  let remaining := (candidates.drop selected.length).map (·.key)
  let next := if remaining = [] then none else some (refs.cursorRef,
    { taskId, epochId, astDigest, view := some ast.view, remainingKeys := remaining
      snapshotMaxFactSeq : QueryCursor })
  return {
    page :=
      { queryRef := refs.queryRef
        rows := selected.map fun row => selectRow ast.select row.get?
        nextCursorRef := next.map (·.1)
        snapshotMaxFactSeq }
    snapshot :=
      { queryRef := refs.queryRef, taskId, epochId, view := ast.view, astDigest
        maxFactSeq := snapshotMaxFactSeq, rowCount := selected.length
        rowRefs := selected.map (·.key) }
    cursor := next }

end HuntWarden.FactQuery
