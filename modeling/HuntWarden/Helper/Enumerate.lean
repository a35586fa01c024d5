import HuntWarden.Helper.Output
import HuntWarden.Helper.Visits

/-! `enumerate`: one page of the objects of a namespace. Processes, files and log events page inside their
    collectors; all other rows are collected and sorted anew for every page, and the page is the window
    that begins at the offset of the cursor. -/

namespace HuntWarden.Helper.Enumerate

open Outcome

/-! ### Requests and cursors -/

inductive Direction where
  | asc | desc
  deriving DecidableEq, Repr

structure SortKey where
  field : String
  direction : Direction
  deriving DecidableEq, Repr

/-- A resolved Scope Grant. -/
structure Scope where
  namespace_ : Option String
  canonicalRoot : String
  mountId : Option String

/-- The parameters of the request beside its cursor. -/
structure EnumerateParams where
  namespace_ : NamespaceName
  fields : Option (List String)
  limit : Option Json
  predicate : Option Predicate
  sort : List SortKey
  sinceHours : Option Json
  scope : Option Scope

/-- An opaque cursor, decoded. -/
structure CursorToken where
  v : ℕ
  body : Cursor
  integrity : String

/-- What the helper computes texts with: digests of the values that make up a source generation, of a
    request, and of the body of a cursor; the texts of log events; `str` of lists, dictionaries and
    fractions. -/
structure Texts where
  generationDigest : List Json → String
  bindingDigest : String → EnumerateParams → String
  cursorDigest : Cursor → String
  log : LogTexts
  repr : Json → String

/-! ### The target -/

/-- What a collector of rows gives. -/
structure Collected where
  rows : List Payload
  warnings : List String
  partial_ : Bool

/-- An account of the passwd database; `inspected` is what `inspect_account` says of its groups and of
    its lock. -/
structure AccountEntry where
  base : Payload
  inspected : Except String (Json × Bool)

structure FileStat where
  path : String
  device : String
  inode : String
  mtime : ℕ
  size : ℕ

/-- What the root of a scope leads to; `tree` is `none` when it is gone once the walk begins. -/
structure RootDirectory where
  stat : FileStat
  isDirectory : Bool
  tree : Option Tree

/-- The target at one moment. Every pid has one directory of `/proc`. `collect` stands for the collectors
    of rows, `events` for those of a window of so many hours. -/
structure Snapshot where
  now : ℕ
  observedAt : String
  node : String
  machine : String
  bootId : Option String
  deadline : ℕ → Bool
  processes : List ProcessEntry
  processes_nodup : (processes.map ProcessEntry.pid).Nodup
  accounts : List AccountEntry
  accountWarnings : List String
  accountPartial : Bool
  collect : NamespaceName → Except HelperError Collected
  events : NamespaceName → ℤ → Except HelperError Collected
  rootAt : String → Except HelperError RootDirectory
  logs : LogSources
  configStats : NamespaceName → List FileStat
  logStats : List FileStat
  journalGeneration : Option String

def FileStat.values (stat : FileStat) : List Json :=
  [.str stat.device, .str stat.inode, .num stat.mtime, .num stat.size]

/-- The values whose digest is the generation of the source. -/
def generationValues (s : Snapshot) (params : EnumerateParams) : Except HelperError (List Json) :=
  let head := [.str params.namespace_.name, .str s.node, .str s.machine]
  let boot := .str (s.bootId.getD "boot-unavailable")
  match params.namespace_ with
  | .file =>
    match params.scope with
    | none => .error (invalidArgument "file cursor has no bound source")
    | some scope => (s.rootAt scope.canonicalRoot).map fun root => head ++ root.stat.values
  | .delegationRule | .sshTrustConfig =>
    .ok (head ++ (s.configStats params.namespace_).flatMap fun stat => .str stat.path :: stat.values)
  | .logSource | .logEvent | .authEvent | .execEvent =>
    .ok (head ++ (s.logStats.flatMap fun stat => .str stat.path :: stat.values) ++
      [.str journalSource, .str (s.journalGeneration.getD "journal-unavailable"), boot])
  | _ => .ok (head ++ [boot])

variable (texts : Texts) (epochId : String)

def v2_source_generation (s : Snapshot) (params : EnumerateParams) : Except HelperError String :=
  (generationValues s params).map texts.generationDigest

def v2_encode_cursor (body : Cursor) : CursorToken where
  v := 1
  body
  integrity := texts.cursorDigest body

/-- Where a page begins. -/
structure Start where
  offset : ℕ
  binding : String
  sourceGeneration : String
  sourceChanged : Bool
  upperBound : Option ℕ

def maxCursorOffset : ℕ := 10000000

def v2_cursor_start (s : Snapshot) (params : EnumerateParams) (tolerateSourceChange : Bool)
    (token : Option CursorToken) : Except HelperError Start := do
  let binding := texts.bindingDigest epochId params
  let generation ← v2_source_generation texts s params
  match token with
  | none => .ok {
      offset := 0, binding, sourceGeneration := generation, sourceChanged := false, upperBound := none }
  | some token => do
    require (token.integrity = texts.cursorDigest token.body ∧ token.v = 1 ∧
      token.body.namespace_ = params.namespace_) (invalidArgument "opaque cursor identity mismatch")
    require (token.body.binding = binding) (invalidArgument "opaque cursor request binding mismatch")
    let changed := decide (token.body.sourceGeneration ≠ generation)
    require (!changed || tolerateSourceChange) {
      code := .sourceChanged, message := "cursor source generation changed" }
    require (token.body.offset ≤ maxCursorOffset) (invalidArgument "invalid cursor offset")
    return {
      offset := token.body.offset, binding, sourceGeneration := generation, sourceChanged := changed,
      upperBound := token.body.upperBound }

/-! ### Fields -/

/-- `V2_NON_ENUMERABLE_FIELDS` -/
def nonEnumerableFields : NamespaceName → List String
  | .file => ["sha256", "content", "baseline", "baselineStatus"]
  | .module_ => ["sha256"]
  | .account => ["passwordHash"]
  | _ => []

/-- `V2_NON_SORTABLE_FIELDS` -/
def nonSortableFields : List String := ["groups", "configPaths", "mappings", "fields"]

def enumerable : NamespaceName → Bool
  | .javaComponent | .class_ | .taskIoc => false
  | _ => true

def v2_requested_fields (params : EnumerateParams) : Except HelperError (List String) := do
  let namespace_ := params.namespace_
  let requested := params.fields.getD (v2IdentityFields namespace_)
  require (!requested.isEmpty && requested.length ≤ 32 && requested.all fun field =>
      field ∈ v2NamespaceFields namespace_ ∧ field ∉ nonEnumerableFields namespace_ ∧
        field ∉ v2UnavailableFields namespace_)
    (invalidArgument "invalid enumerate fields")
  return Js.distinct (v2IdentityFields namespace_ ++ requested)

/-! ### Rows that are collected whole -/

/-- `str(value)` -/
def str (value : Json) : String :=
  match value with
  | .null => "None"
  | .bool b => if b then "True" else "False"
  | .num q => if q.den = 1 then toString q.num else texts.repr value
  | .str text => text
  | value => texts.repr value

/-- The implicit last sort key: the texts of the identity. -/
def identityKey (namespace_ : NamespaceName) (row : Payload) : List String :=
  (v2IdentityFields namespace_).map fun name => str texts ((row.lookup name).getD (.str ""))

def fieldKey (field : String) (row : Payload) : Bool × String :=
  (fieldOf row field = .null, str texts ((row.lookup field).getD (.str "")))

def compareFields (key : SortKey) (left right : Payload) : Ordering :=
  let a := fieldKey texts key.field left
  let b := fieldKey texts key.field right
  match key.direction with
  | .asc => (cmp a.1 b.1).then (cmp a.2 b.2)
  | .desc => (cmp b.1 a.1).then (cmp b.2 a.2)

/-- Stable sorts, by the identity first and by the first key last. -/
def sortRows (params : EnumerateParams) (rows : List Payload) : List Payload :=
  params.sort.foldr (fun key rows => Paging.sortBy (compareFields texts key) rows)
    (Paging.sortBy (fun a b => cmp (identityKey texts params.namespace_ a)
      (identityKey texts params.namespace_ b)) rows)

def sortable (namespace_ : NamespaceName) (key : SortKey) : Bool :=
  key.field ∈ v2NamespaceFields namespace_ ∧ key.field ∉ nonSortableFields

/-- The groups and the lock are read only on request. -/
def accountRow (requested : List String) (entry : AccountEntry) : Payload :=
  match entry.inspected with
  | .error _ => entry.base
  | .ok (groups, locked) =>
    let row := if "groups" ∈ requested then setField "groups" groups entry.base else entry.base
    if "locked" ∈ requested then setField "locked" (.bool locked) row else row

def accountWarning (entry : AccountEntry) : Option String :=
  match entry.inspected with
  | .error message =>
    let username := (fieldOf entry.base "username").asString?.getD ""
    some s!"账户 {username}: {message}"
  | .ok _ => none

def accountRows (s : Snapshot) (requested : List String) : Collected :=
  let failures := if "groups" ∈ requested ∨ "locked" ∈ requested then
    s.accounts.filterMap accountWarning else []
  { rows := s.accounts.map (accountRow requested)
    warnings := s.accountWarnings ++ failures
    partial_ := s.accountPartial || !failures.isEmpty }

def sinceHours (params : EnumerateParams) : Except HelperError ℤ :=
  safe_int (some (params.sinceHours.getD (.num 24))) 1 (24 * 365) "sinceHours"

def collectRows (s : Snapshot) (params : EnumerateParams) (requested : List String) :
    Except HelperError Collected :=
  match params.namespace_ with
  | .account => .ok (accountRows s requested)
  | .authEvent | .execEvent => sinceHours params >>= s.events params.namespace_
  | namespace_ => s.collect namespace_

/-- The loop over the rows of a page with a predicate. -/
def scanRows (namespace_ : NamespaceName) (predicate : Predicate) (limit : ℕ) :
    List Payload → ℕ × List Payload → Except HelperError (ℕ × List Payload)
  | [], s => .ok s
  | row :: rows, (scanned, window) =>
    if limit ≤ window.length then .ok (scanned, window)
    else v2_predicate namespace_ row predicate >>= fun keep =>
      scanRows namespace_ predicate limit rows (scanned + 1, if keep then window ++ [row] else window)

def rowWindow (namespace_ : NamespaceName) (predicate : Option Predicate) (offset limit : ℕ)
    (rows : List Payload) : Except HelperError (ℕ × List Payload) :=
  match predicate with
  | none => .ok (((rows.drop offset).take limit).length, (rows.drop offset).take limit)
  | some predicate =>
    scanRows namespace_ predicate limit ((rows.drop offset).take enumerateScanPageLimit) (0, [])

/-- The page of the rows, which are collected and sorted for it. -/
def rowInventory (s : Snapshot) (params : EnumerateParams) (requested : List String)
    (offset limit : ℕ) : Except HelperError Inventory := do
  let collected ← collectRows s params requested
  require (params.sort.all (sortable params.namespace_)) (invalidArgument "invalid sort")
  let rows := sortRows texts params collected.rows
  let (scanned, window) ← rowWindow params.namespace_ params.predicate offset limit rows
  return {
    rows := window
    warnings := collected.warnings
    partial_ := collected.partial_
    scannedCount := scanned
    matchedCount := window.length
    nextOffset := offset + scanned
    upperBound := none
    complete := !decide (offset + scanned < rows.length) }

/-! ### The page -/

def pseudoFilesystemRoots : List String := ["/proc", "/sys", "/dev", "/run"]

def v2_scope_root (s : Snapshot) (params : EnumerateParams) : Except HelperError (Option Tree) := do
  let scope ← orThrow (params.scope.filter fun scope => scope.namespace_ ∈ [none, some "file"]) {
    code := .permissionDenied, message := "file enumerate requires a resolved file Scope Grant" }
  let root ← s.rootAt scope.canonicalRoot
  require (root.stat.path ≠ "/" ∧ root.stat.path ∉ pseudoFilesystemRoots) {
    code := .permissionDenied, message := "root and pseudo-filesystem scopes are forbidden" }
  require root.isDirectory (invalidArgument "file scope root must be a directory")
  require (scope.mountId.all (· = root.stat.device)) {
    code := .sourceChanged, message := "file scope mount identity changed" }
  return root.tree

/-- The summary of the mappings of the process that a row is about. -/
def mapsSummaryOf (s : Snapshot) (row : Payload) : Json :=
  ((s.processes.find? fun entry => .num entry.pid = fieldOf row "pid").map (·.mapsSummary)).getD .null

/-- The maps are read after the rows have been filtered. -/
def withMaps (s : Snapshot) (requested : List String) (row : Payload) : Payload :=
  if "mapsSummary" ∈ requested then setField "mapsSummary" (mapsSummaryOf s row) row else row

/-- The beginning of the window. -/
def cutoffOf (s : Snapshot) (hours : ℤ) : ℕ := s.now - hours.toNat * 3600 * 1000000

/-- The collector of the namespace. -/
def inventory (s : Snapshot) (params : EnumerateParams) (requested : List String) (limit : ℕ)
    (start : Start) : Except HelperError Inventory :=
  match params.namespace_ with
  | .process => do
    require (params.sort ∈ [[], [⟨"pid", .asc⟩]])
      (invalidArgument "large process scans only support PID ascending keyset order")
    require (start.upperBound.all fun upper => start.offset ≤ upper ∧ upper ≤ maxCursorOffset)
      (invalidArgument "invalid process cursor upper bound")
    let inv ← v2_process_inventory s.deadline params.predicate limit s.processes start.offset
      (decide ("exeSha256" ∈ requested)) start.upperBound
    return { inv with rows := inv.rows.map (withMaps s requested) }
  | .file => do
    require (params.sort ∈ [[], [⟨"path", .asc⟩]])
      (invalidArgument "large file scans only support traversal order or path asc")
    let root ← v2_scope_root s params
    v2_file_inventory s.deadline params.predicate limit root start.offset
  | .logEvent => do
    let hours ← sinceHours params
    require (params.sort = []) (invalidArgument "large log scans only support collector traversal order")
    v2_log_event_inventory s.deadline params.predicate limit texts.log s.logs (cutoffOf s hours)
      start.offset
  | _ => rowInventory texts s params requested start.offset limit

/-- The fields of the row that were requested, as an object. -/
def report (observedAt : String) (namespace_ : NamespaceName) (requested : List String)
    (row : Payload) : Except HelperError Normalizer.WireObservation :=
  v2_observation observedAt namespace_
    (requested.filterMap fun field => (row.lookup field).map fun value => (field, value))
    .cursorBestEffort requested

/-- A comprehension over the rows. -/
def reports (report : Payload → Except HelperError Normalizer.WireObservation) :
    List Payload → Except HelperError (List Normalizer.WireObservation)
  | [] => .ok []
  | row :: rows => do
    let object ← report row
    let objects ← reports report rows
    return object :: objects

structure EnumeratePage where
  objects : List Normalizer.WireObservation
  cursor : Option CursorToken
  gaps : List CoverageGap
  scan : Scan

/-- When the parts of a page see the target: the generation of the source is read before it is collected
    and once more afterwards. -/
structure Moment where
  start : Snapshot
  collected : Snapshot
  finish : Snapshot

def toleratesDrift : NamespaceName → Bool
  | .process | .logSource | .logEvent | .authEvent | .execEvent => true
  | _ => false

def collectorErrorGap (warnings : List String) : CoverageGap where
  code := "COLLECTOR_ERROR"
  detail := some ("; ".intercalate (warnings.take 20))
  field := none
  resumable := false

def nodeLimitGap : CoverageGap where
  code := "NODE_LIMIT"
  detail := some "enumerate limit reached"
  field := none
  resumable := true

def pageGaps (inv : Inventory) : List CoverageGap :=
  (if inv.partial_ then [collectorErrorGap inv.warnings] else []) ++
    if inv.complete then [] else [nodeLimitGap]

def sourceChangedGap : CoverageGap where
  code := "SOURCE_CHANGED"
  detail := some "分页期间数据源发生变化，本页为 CURSOR_BEST_EFFORT 结果"
  field := none
  resumable := true

/-- The rest of the page once its objects are there: whether the source has changed, and the cursor. -/
def finishPage (m : Moment) (params : EnumerateParams) (start : Start) (inv : Inventory)
    (objects : List Normalizer.WireObservation) : Except HelperError EnumeratePage := do
  let current ← v2_source_generation texts m.finish params
  let changed := start.sourceChanged || (!inv.complete && decide (current ≠ start.sourceGeneration))
  require (!(changed && objects.isEmpty)) {
    code := .sourceChanged, message := "enumerate source changed before any object was produced" }
  return {
    objects
    cursor := if inv.complete then none else some (v2_encode_cursor texts {
      namespace_ := params.namespace_, offset := inv.nextOffset, binding := start.binding,
      sourceGeneration := current, upperBound := inv.upperBound })
    gaps := pageGaps inv ++ if changed then [sourceChangedGap] else []
    scan := {
      sourceGeneration := start.sourceGeneration, scannedCount := inv.scannedCount,
      matchedCount := inv.matchedCount, nextOffset := inv.nextOffset, upperBound := inv.upperBound,
      complete := inv.complete, returnedCount := objects.length } }

def checkPredicate (params : EnumerateParams) : Except HelperError Unit :=
  match params.predicate with
  | none => .ok ()
  | some predicate => (v2_validate_predicate params.namespace_ 1 0 predicate).map fun _ => ()

/-- `params.get("limit")` -/
def pageLimit (params : EnumerateParams) : Except HelperError ℕ :=
  (safe_int params.limit 1 500 "limit").map Int.toNat

def v2_enumerate (m : Moment) (params : EnumerateParams) (token : Option CursorToken) :
    Except HelperError EnumeratePage := do
  require (params.namespace_ ≠ .taskIoc) (invalidArgument "task_ioc is controller-local")
  require (enumerable params.namespace_) {
    code := .unsupportedEnvironment, message := "namespace unavailable" }
  let requested ← v2_requested_fields params
  let limit ← pageLimit params
  checkPredicate params
  let start ← v2_cursor_start texts epochId m.start params (toleratesDrift params.namespace_) token
  let inv ← inventory texts m.collected params requested limit start
  require (params.sort.length ≤ 3) (invalidArgument "invalid sort")
  let objects ← reports (report m.collected.observedAt params.namespace_ requested) inv.rows
  finishPage texts m params start inv objects

end HuntWarden.Helper.Enumerate
