import HuntWarden.Lib.Backfill
import HuntWarden.Lib.Statements
import Mathlib.Algebra.Order.Field.Rat

/-! The opening of the database: one transaction that brings any earlier schema to the present one. It
    records each migration with its checksum, fills in the keys of obligations that have none and puts a
    unique index on them, removes repeated gaps, adds the epoch columns, and copies entity versions and
    relation provenance into tables with other constraints. A table that an earlier schema has not is
    created. -/

namespace HuntWarden.Migration

open Outcome

/-- `RUNTIME_SCHEMA_VERSION`. -/
def runtimeSchemaVersion : ℤ := 6

/-! ### What SQLite does with values -/

inductive SqlValue where
  | null
  | number (value : ℚ)
  | text (value : String)
  deriving DecidableEq

structure Sqlite where
  /-- `json_extract(payload, '$.name')`; nothing for a payload that is not JSON, an error of the statement. -/
  jsonExtract : String → String → Option SqlValue
  /-- What a TEXT column keeps of a number. -/
  numberText : ℚ → String
  numberText_ne : ∀ n, numberText n ≠ ""

/-- `NULLIF(value, '')`. -/
def nullIfEmpty : SqlValue → SqlValue
  | .text value => if value = "" then .null else .text value
  | value => value

/-- `COALESCE(value, fallback)`. -/
def coalesce (value : SqlValue) (fallback : String) : SqlValue :=
  match value with
  | .null => .text fallback
  | value => value

/-- The value in a column of TEXT affinity. -/
def Sqlite.textColumn (sq : Sqlite) : SqlValue → Option String
  | .null => none
  | .number value => some (sq.numberText value)
  | .text value => some value

/-! ### The tables that a migration changes or reads -/

structure MigrationRecord where
  version : ℤ
  name : String
  checksum : String
  appliedAt : String
  deriving DecidableEq

structure ToolRunRow where
  toolCallId : String
  taskId : String
  toolName : String
  risk : String
  replayPolicy : String
  status : String
  argsJson : String
  resultJson : Option String
  error : Option String
  startedAt : String
  finishedAt : Option String

structure MessageRow where
  messageId : String
  taskId : String
  seq : ℤ
  payload : String
  createdAt : String

structure QueuedInputRow where
  inputId : String
  taskId : String
  status : String
  payload : String
  createdAt : String
  deliveredAt : Option String

/-- Rows with the epoch they are bound to. Earlier tables have no column for it. -/
structure EpochTable (ρ : Type) where
  hasEpochId : Bool
  rows : List (Option String × ρ)
  unbound : hasEpochId = false → ∀ row ∈ rows, row.1 = none

structure GapRow where
  rowid : ℕ
  gapId : String
  taskId : String
  epochId : String
  code : String
  payload : String
  createdAt : String

structure GapTable where
  rows : List GapRow
  rowids : (rows.map GapRow.rowid).Nodup
  /-- Whether `idx_investigation_gaps_semantic` is there. -/
  semanticIndex : Bool

structure ObligationRow where
  obligationId : String
  taskId : String
  epochId : String
  hypothesisId : Option String
  obligationKind : String
  dedupeKey : Option String
  required : Bool
  status : String
  payload : String
  createdAt : String
  updatedAt : String

/-- The columns of `idx_investigation_obligations_dedupe`; a row whose key is NULL is in no conflict. -/
def ObligationRow.indexKey (o : ObligationRow) : Option (String × String × String) :=
  o.dedupeKey.map fun key => (o.taskId, o.epochId, key)

/-- Earlier tables have no column for the key, or no unique index on it, or not the triggers that refuse an
    empty one. -/
structure ObligationTable where
  hasDedupeKey : Bool
  unique : Bool
  guarded : Bool
  rows : List ObligationRow
  keyless : hasDedupeKey = false → ∀ row ∈ rows, row.dedupeKey = none
  indexed : unique = true → Backfill.Unique ObligationRow.indexKey rows

structure EntityVersionRow where
  versionRef : String
  entityRef : String
  taskId : String
  epochId : String
  «namespace» : String
  identityDigest : String
  contentDigest : Option String
  sourceFactRef : String
  validFrom : String
  validTo : Option String
  payload : String

structure EntityVersionTable where
  /-- The columns of each unique index besides the primary key's; an expression has no name. -/
  uniqueIndexes : List (List (Option String))
  rows : List EntityVersionRow

structure RelationProvenanceRow where
  edgeRef : String
  taskId : String
  epochId : String
  fromVersionRef : Option String
  toVersionRef : Option String
  derivation : String
  resolverVersion : String
  timeErrorMs : ℤ
  payload : String

/-- The database file. A table that is not there is `none`; of the tables that others refer to only the
    keys are here. -/
structure Database where
  userVersion : ℤ
  schemaMigrations : Option (List MigrationRecord)
  objectRefs : Option (List String)
  facts : Option (List String)
  factEdges : Option (List String)
  toolRuns : Option (EpochTable ToolRunRow)
  messages : Option (EpochTable MessageRow)
  queuedInputs : Option (EpochTable QueuedInputRow)
  gaps : Option GapTable
  obligations : Option ObligationTable
  entityVersions : Option EntityVersionTable
  relationProvenance : Option (List RelationProvenanceRow)

/-! ### `CREATE TABLE IF NOT EXISTS` -/

/-- A table of the present schema, still empty. -/
def EpochTable.fresh {ρ : Type} : EpochTable ρ := ⟨true, [], by simp⟩

def GapTable.fresh : GapTable := ⟨[], by simp, false⟩

def ObligationTable.fresh : ObligationTable := ⟨true, true, false, [], by simp, by simp [Backfill.Unique]⟩

def versionColumns : List (Option String) :=
  [some "task_id", some "epoch_id", some "entity_ref", some "source_fact_ref"]

def EntityVersionTable.fresh : EntityVersionTable := ⟨[versionColumns], []⟩

def orCreate {α : Type} (table : Option α) (fresh : α) : Option α := some (table.getD fresh)

def createBaseline (db : Database) : Except String Database :=
  .ok { db with
    schemaMigrations := orCreate db.schemaMigrations []
    objectRefs := orCreate db.objectRefs []
    facts := orCreate db.facts []
    factEdges := orCreate db.factEdges []
    toolRuns := orCreate db.toolRuns .fresh
    messages := orCreate db.messages .fresh
    queuedInputs := orCreate db.queuedInputs .fresh
    gaps := orCreate db.gaps .fresh }

def createInvestigation (db : Database) : Except String Database :=
  .ok { db with
    obligations := orCreate db.obligations .fresh
    entityVersions := orCreate db.entityVersions .fresh
    relationProvenance := orCreate db.relationProvenance [] }

/-! ### `recordMigration` -/

variable (checksum : ℤ → String → String) (now : String)

/-- The migrations that are recorded. -/
def schemaNames : List (ℤ × String) :=
  [(1, "baseline-runtime-and-protocol-v2"), (2, "autonomous-investigation-state"),
    (3, "investigation-obligation-dedupe"), (4, "investigation-gap-semantic-dedupe"),
    (5, "runtime-epoch-binding"), (6, "entity-version-observation-instances")]

def recorded (records : List MigrationRecord) (version : ℤ) : Option MigrationRecord :=
  records.find? fun record => record.version = version

/-- A migration is recorded once; a record of it with another name or checksum stops the program. -/
def recordIn (m : ℤ × String) (records : List MigrationRecord) : Except String (List MigrationRecord) :=
  match recorded records m.1 with
  | some existing =>
    if existing.name ≠ m.2 ∨ existing.checksum ≠ checksum m.1 m.2 then
      .error ("数据库迁移 v" ++ toString m.1 ++ " 摘要不匹配")
    else .ok records
  | none => .ok (records ++ [⟨m.1, m.2, checksum m.1 m.2, now⟩])

def recordMigration (version : ℤ) (name : String) (db : Database) : Except String Database := do
  let records ← orThrow db.schemaMigrations "no such table: schema_migrations"
  let records ← recordIn checksum now (version, name) records
  .ok { db with schemaMigrations := some records }

/-! ### The keys of obligations -/

variable (sq : Sqlite)

/-- `ALTER TABLE … ADD COLUMN dedupe_key`, unless it is there. -/
def ObligationTable.addDedupeKey (t : ObligationTable) : ObligationTable :=
  { t with hasDedupeKey := true, keyless := by simp }

/-- `dedupe_key IS NULL OR dedupe_key=''`. -/
def ObligationRow.keyMissing (o : ObligationRow) : Bool := o.dedupeKey = none || o.dedupeKey = some ""

/-- `SET dedupe_key=COALESCE(NULLIF(json_extract(payload, '$.dedupeKey'), ''), obligation_id)`. -/
def ObligationRow.withKey (o : ObligationRow) : Except String ObligationRow := do
  let value ← orThrow (sq.jsonExtract o.payload "dedupeKey") "malformed JSON"
  .ok { o with dedupeKey := sq.textColumn (coalesce (nullIfEmpty value) o.obligationId) }

/-- What a row of the table has to be: the trigger, then the index. -/
def ObligationTable.accepts (t : ObligationTable) (o : ObligationRow) (others : List ObligationRow) : Bool :=
  (!t.guarded || !o.keyMissing) &&
    (!t.unique || o.indexKey.all fun key => !(others.filterMap ObligationRow.indexKey).contains key)

def ObligationTable.update (t : ObligationTable) : Backfill.Update String ObligationRow where
  set := ObligationRow.withKey sq
  accepts := t.accepts
  refused := "investigation obligation dedupe_key is required"

theorem ObligationTable.indexed_update {t : ObligationTable} {rows : List ObligationRow}
    (h : (t.update sq).rows ObligationRow.keyMissing [] t.rows = .ok rows) :
    t.unique = true → Backfill.Unique ObligationRow.indexKey rows := by
  rintro hunique
  have hbefore : Backfill.Unique ObligationRow.indexKey ([] ++ t.rows) := t.indexed hunique
  refine Backfill.unique_rows (fun o others hacc key hkey => ?_) hbefore h
  have haccepts : t.accepts o others = true := hacc
  rw [ObligationTable.accepts, hunique, hkey, Bool.and_eq_true] at haccepts
  simpa using haccepts.2

def ObligationTable.backfill (t : ObligationTable) : Except String ObligationTable :=
  if hcolumn : t.hasDedupeKey = true then
    match h : (t.update sq).rows ObligationRow.keyMissing [] t.rows with
    | .error e => .error e
    | .ok rows => .ok ⟨t.hasDedupeKey, t.unique, t.guarded, rows, by simp [hcolumn], t.indexed_update sq h⟩
  else .error "no such column: dedupe_key"

/-- `CREATE UNIQUE INDEX IF NOT EXISTS`, and the triggers that refuse an empty key from then on. -/
def ObligationTable.index (t : ObligationTable) : Except String ObligationTable :=
  if h : Backfill.Unique ObligationRow.indexKey t.rows then
    .ok { t with unique := true, guarded := true, indexed := fun _ => h }
  else .error "UNIQUE constraint failed: investigation_obligations"

def onObligations (f : ObligationTable → Except String ObligationTable) (db : Database) :
    Except String Database := do
  let table ← orThrow db.obligations "no such table: investigation_obligations"
  let table ← f table
  .ok { db with obligations := some table }

/-! ### Repeated gaps -/

/-- The columns of `idx_investigation_gaps_semantic`; nothing for a payload that is not JSON. -/
def GapRow.semantic (g : GapRow) : Option (String × String × String × SqlValue × SqlValue) := do
  let category ← sq.jsonExtract g.payload "category"
  let reasonCode ← sq.jsonExtract g.payload "reasonCode"
  pure (g.taskId, g.epochId, g.code, coalesce category "", coalesce reasonCode "")

/-- `DELETE … WHERE rowid NOT IN (SELECT MIN(rowid) … GROUP BY …)`. -/
def GapTable.dedupe (t : GapTable) : Except String GapTable := do
  require (t.rows.all fun g => (g.semantic sq).isSome) "malformed JSON"
  .ok { t with
    rows := Backfill.firsts GapRow.rowid (GapRow.semantic sq) t.rows
    rowids := t.rowids.sublist ((Backfill.firsts_sublist t.rows).map _) }

def GapTable.index (t : GapTable) : Except String GapTable := do
  require (t.semanticIndex || (t.rows.map (GapRow.semantic sq)).Nodup)
    "UNIQUE constraint failed: index 'idx_investigation_gaps_semantic'"
  .ok { t with semanticIndex := true }

def onGaps (f : GapTable → Except String GapTable) (db : Database) : Except String Database := do
  let table ← orThrow db.gaps "no such table: investigation_gaps_v2"
  let table ← f table
  .ok { db with gaps := some table }

/-! ### Epochs of tool runs, messages and queued inputs -/

/-- `ALTER TABLE … ADD COLUMN epoch_id`, unless it is there. -/
def EpochTable.addEpochId {ρ : Type} (t : EpochTable ρ) : EpochTable ρ :=
  { t with hasEpochId := true, unbound := by simp }

def addEpochColumns (db : Database) : Except String Database :=
  .ok { db with
    toolRuns := db.toolRuns.map EpochTable.addEpochId
    messages := db.messages.map EpochTable.addEpochId
    queuedInputs := db.queuedInputs.map EpochTable.addEpochId }

/-! ### The constraints of entity versions -/

def hasLegacyVersionUniqueness (t : EntityVersionTable) : Bool :=
  t.uniqueIndexes.any fun columns =>
    ["entity_ref", "identity_digest", "content_digest"].all fun name => columns.contains (some name)

/-- What `INSERT INTO entity_versions_v6 SELECT *` asks of the rows. -/
def versionsFit (objectRefs facts : List String) (rows : List EntityVersionRow) : Bool :=
  (rows.map EntityVersionRow.versionRef).Nodup &&
    (rows.map fun v => (v.taskId, v.epochId, v.entityRef, v.sourceFactRef)).Nodup &&
    rows.all fun v => objectRefs.contains v.entityRef && facts.contains v.sourceFactRef

/-- What `INSERT INTO relation_provenance_v6 SELECT *` asks of the rows. -/
def provenanceFits (factEdges : List String) (versions : List EntityVersionRow)
    (rows : List RelationProvenanceRow) : Bool :=
  (rows.map RelationProvenanceRow.edgeRef).Nodup &&
    rows.all fun p => decide (0 ≤ p.timeErrorMs) && factEdges.contains p.edgeRef &&
      (p.fromVersionRef.all fun ref => (versions.map EntityVersionRow.versionRef).contains ref) &&
      p.toVersionRef.all fun ref => (versions.map EntityVersionRow.versionRef).contains ref

def rebuildEntityVersions (db : Database) : Except String Database := do
  let versions ← orThrow db.entityVersions "no such table: entity_versions"
  let provenance ← orThrow db.relationProvenance "no such table: relation_provenance"
  if hasLegacyVersionUniqueness versions then do
    require (versionsFit (db.objectRefs.getD []) (db.facts.getD []) versions.rows)
      "constraint failed: entity_versions_v6"
    require (provenanceFits (db.factEdges.getD []) versions.rows provenance)
      "constraint failed: relation_provenance_v6"
    .ok { db with entityVersions := some ⟨[versionColumns], versions.rows⟩ }
  else .ok db

/-! ### `migrate` -/

def setUserVersion (db : Database) : Except String Database :=
  .ok { db with userVersion := runtimeSchemaVersion }

/-- What the transaction executes, in order. -/
def statements : List (Database → Except String Database) :=
  [createBaseline, recordMigration checksum now 1 "baseline-runtime-and-protocol-v2",
    createInvestigation, recordMigration checksum now 2 "autonomous-investigation-state",
    onObligations fun t => .ok t.addDedupeKey, onObligations (ObligationTable.backfill sq),
    onObligations ObligationTable.index, recordMigration checksum now 3 "investigation-obligation-dedupe",
    onGaps (GapTable.dedupe sq), onGaps (GapTable.index sq),
    recordMigration checksum now 4 "investigation-gap-semantic-dedupe",
    addEpochColumns, recordMigration checksum now 5 "runtime-epoch-binding",
    rebuildEntityVersions, recordMigration checksum now 6 "entity-version-observation-instances",
    setUserVersion]

def migrate (db : Database) : Except String Database := do
  require (db.userVersion ≤ runtimeSchemaVersion)
    ("数据库 schema v" ++ toString db.userVersion ++ " 高于当前程序支持的 v" ++
      toString runtimeSchemaVersion ++ "，拒绝写入")
  Statements.complete (statements checksum now sq) db

/-- The file after the program was started with it: an error rolls the transaction back. -/
def opened (db : Database) : Database := transact db (migrate checksum now sq db)

end HuntWarden.Migration
