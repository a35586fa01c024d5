import HuntWarden.Storage.Migrate

/-! What a migration makes of a database of an earlier schema. -/

namespace HuntWarden.Migration

open Outcome

variable (sq : Sqlite) (checksum : ℤ → String → String) (now : String)

/-! ### The transaction, table by table -/

/-- The tables after a migration. -/
structure Upgrade where
  records : List MigrationRecord
  obligations : ObligationTable
  gaps : GapTable

def ObligationTable.upgrade (t : ObligationTable) : Except String ObligationTable :=
  t.addDedupeKey.backfill sq >>= ObligationTable.index

def GapTable.upgrade (t : GapTable) : Except String GapTable := t.dedupe sq >>= GapTable.index sq

def recordAll : List MigrationRecord → Except String (List MigrationRecord) :=
  Statements.complete (schemaNames.map (recordIn checksum now))

/-- The constraints of the new tables are asked for only where the old ones are. -/
def VersionsAccepted (db : Database) : Prop :=
  hasLegacyVersionUniqueness (db.entityVersions.getD .fresh) = true →
    versionsFit (db.objectRefs.getD []) (db.facts.getD []) (db.entityVersions.getD .fresh).rows = true ∧
      provenanceFits (db.factEdges.getD []) (db.entityVersions.getD .fresh).rows
        (db.relationProvenance.getD []) = true

def EntityVersionTable.upgraded (t : EntityVersionTable) : EntityVersionTable :=
  if hasLegacyVersionUniqueness t then ⟨[versionColumns], t.rows⟩ else t

def Database.upgraded (db : Database) (u : Upgrade) : Database where
  userVersion := runtimeSchemaVersion
  schemaMigrations := some u.records
  objectRefs := some (db.objectRefs.getD [])
  facts := some (db.facts.getD [])
  factEdges := some (db.factEdges.getD [])
  toolRuns := some (db.toolRuns.getD .fresh).addEpochId
  messages := some (db.messages.getD .fresh).addEpochId
  queuedInputs := some (db.queuedInputs.getD .fresh).addEpochId
  gaps := some u.gaps
  obligations := some u.obligations
  entityVersions := some (db.entityVersions.getD .fresh).upgraded
  relationProvenance := some (db.relationProvenance.getD [])

variable {sq checksum now} {db db' : Database}

theorem upgraded_of_not_legacy {t : EntityVersionTable} (h : ¬hasLegacyVersionUniqueness t = true) :
    t.upgraded = t := if_neg h

theorem rebuildEntityVersions_ok {versions : EntityVersionTable} {provenance : List RelationProvenanceRow}
    (hversions : db.entityVersions = some versions) (hprovenance : db.relationProvenance = some provenance) :
    rebuildEntityVersions db = .ok db' ↔
      VersionsAccepted db ∧ db' = { db with entityVersions := some versions.upgraded } := by
  cases db
  cases hversions
  cases hprovenance
  simp only [rebuildEntityVersions, VersionsAccepted, orThrow_ok, bind_ok, Option.some.injEq, exists_eq_left',
    Option.getD_some]
  by_cases hlegacy : hasLegacyVersionUniqueness versions = true
  · rw [if_pos hlegacy, EntityVersionTable.upgraded, if_pos hlegacy]
    simp only [hlegacy, bind_ok, require_ok, exists_and_left, exists_const, Except.ok.injEq, forall_const,
      and_assoc]
    exact and_congr_right fun _ => and_congr_right fun _ => eq_comm
  · rw [if_neg hlegacy, upgraded_of_not_legacy hlegacy, Except.ok.injEq]
    exact ⟨fun h => ⟨fun htrue => absurd htrue hlegacy, h.symm⟩, fun h => h.2.symm⟩

theorem migrate_ok : migrate checksum now sq db = .ok db' ↔
    db.userVersion ≤ runtimeSchemaVersion ∧ VersionsAccepted db ∧ ∃ u : Upgrade,
      recordAll checksum now (db.schemaMigrations.getD []) = .ok u.records ∧
      (db.obligations.getD .fresh).upgrade sq = .ok u.obligations ∧
      (db.gaps.getD .fresh).upgrade sq = .ok u.gaps ∧ db' = db.upgraded u := by
  rw [migrate, bind_ok]
  simp only [require_ok, decide_eq_true_eq, exists_and_left, exists_const]
  refine and_congr_right fun _ => ?_
  simp only [statements, Statements.complete, createBaseline, createInvestigation, recordMigration,
    onObligations, onGaps, addEpochColumns, setUserVersion, orCreate, bind_ok, orThrow_ok,
    Option.some.injEq, Except.ok.injEq, exists_eq_left', ↓existsAndEq, and_true, true_and]
  constructor
  · rintro ⟨r₁, h₁, r₂, h₂, o₁, ho₁, o₂, ho₂, r₃, h₃, g₁, hg₁, g₂, hg₂, r₄, h₄, r₅, h₅, db₁, hdb, r₆, r₇,
      ⟨hr₆, h₆⟩, rfl⟩
    obtain ⟨hversions, rfl⟩ := (rebuildEntityVersions_ok rfl rfl).1 hdb
    cases hr₆
    refine ⟨hversions, ⟨r₇, o₂, g₂⟩, ?_, bind_ok.2 ⟨o₁, ho₁, ho₂⟩, bind_ok.2 ⟨g₁, hg₁, hg₂⟩, rfl⟩
    simp only [recordAll, schemaNames, List.map_cons, List.map_nil, Statements.complete, bind_ok]
    exact ⟨r₁, h₁, r₂, h₂, r₃, h₃, r₄, h₄, r₅, h₅, r₇, h₆, rfl⟩
  · rintro ⟨hversions, ⟨r₆, o₂, g₂⟩, hr, ho, hg, rfl⟩
    simp only [recordAll, schemaNames, List.map_cons, List.map_nil, Statements.complete, bind_ok,
      Except.ok.injEq] at hr
    obtain ⟨r₁, h₁, r₂, h₂, r₃, h₃, r₄, h₄, r₅, h₅, r₇, h₆, rfl⟩ := hr
    obtain ⟨o₁, ho₁, ho₂⟩ := bind_ok.1 ho
    obtain ⟨g₁, hg₁, hg₂⟩ := bind_ok.1 hg
    exact ⟨r₁, h₁, r₂, h₂, o₁, ho₁, o₂, ho₂, r₃, h₃, g₁, hg₁, g₂, hg₂, r₄, h₄, r₅, h₅, _,
      (rebuildEntityVersions_ok rfl rfl).2 ⟨hversions, rfl⟩, r₅, r₇, ⟨rfl, h₆⟩, rfl⟩

/-! ### The recorded migrations -/

section Records

variable (checksum)

/-- No other migration is recorded under this version. -/
def Agrees (records : List MigrationRecord) (m : ℤ × String) : Prop :=
  ∀ record, recorded records m.1 = some record → record.name = m.2 ∧ record.checksum = checksum m.1 m.2

variable {checksum} {records records' : List MigrationRecord} {m : ℤ × String}

theorem recordIn_same {record : MigrationRecord} (h : recorded records m.1 = some record)
    (hagree : Agrees checksum records m) : recordIn checksum now m records = .ok records := by
  obtain ⟨hname, hsum⟩ := hagree record h
  rw [recordIn, h]
  exact if_neg (by rw [not_or, not_not, not_not]; exact ⟨hname, hsum⟩)

/-- A record is kept, or the first one under its version is written. -/
theorem recordIn_ok (h : recordIn checksum now m records = .ok records') :
    Agrees checksum records m ∧ (records' = records ∧ (recorded records m.1).isSome ∨
      recorded records m.1 = none ∧ records' = records ++ [⟨m.1, m.2, checksum m.1 m.2, now⟩]) := by
  rw [recordIn] at h
  cases hrecord : recorded records m.1 with
  | none =>
    rw [hrecord] at h
    refine ⟨fun record hr => ?_, .inr ⟨rfl, (Except.ok.inj h).symm⟩⟩
    rw [hrecord] at hr
    cases hr
  | some record =>
    rw [hrecord] at h
    dsimp only at h
    by_cases hdiffers : record.name ≠ m.2 ∨ record.checksum ≠ checksum m.1 m.2
    · rw [if_pos hdiffers] at h
      cases h
    · rw [if_neg hdiffers] at h
      rw [not_or, not_not, not_not] at hdiffers
      refine ⟨fun other hother => ?_, .inl ⟨(Except.ok.inj h).symm, rfl⟩⟩
      rw [← Option.some.inj (hrecord.symm.trans hother)]
      exact hdiffers

theorem recorded_concat {record : MigrationRecord} {version : ℤ} :
    recorded (records ++ [record]) version =
      (recorded records version).or (if record.version = version then some record else none) := by
  rw [recorded, List.find?_append, recorded]
  congr 1
  by_cases h : record.version = version <;> simp [h]

theorem recorded_of_recordIn (h : recordIn checksum now m records = .ok records') {version : ℤ}
    {record : MigrationRecord} (hr : recorded records version = some record) :
    recorded records' version = some record := by
  obtain ⟨-, ⟨rfl, -⟩ | ⟨-, rfl⟩⟩ := recordIn_ok h
  · exact hr
  · rw [recorded_concat, hr]
    rfl

theorem recordIn_done (h : recordIn checksum now m records = .ok records') :
    (recorded records' m.1).isSome ∧ Agrees checksum records' m := by
  obtain ⟨hagree, ⟨rfl, hsome⟩ | ⟨hnone, rfl⟩⟩ := recordIn_ok h
  · exact ⟨hsome, hagree⟩
  · rw [Agrees, recorded_concat, hnone, Option.none_or, if_pos rfl]
    refine ⟨rfl, fun record hr => ?_⟩
    rw [← Option.some.inj hr]
    exact ⟨rfl, rfl⟩

/-- Recording them once more, at whatever time, writes nothing. -/
theorem recordAll_again (now' : String) (h : recordAll checksum now records = .ok records') :
    recordAll checksum now' records' = .ok records' := by
  have hdone := Statements.complete_map
    (P := fun m records => ∃ record, recorded records m.1 = some record ∧ Agrees checksum records m)
    (fun m s s' hs => by
      obtain ⟨hsome, hagree⟩ := recordIn_done hs
      obtain ⟨record, hrecord⟩ := Option.isSome_iff_exists.1 hsome
      exact ⟨record, hrecord, hagree⟩)
    (fun m m' s s' hs hP => by
      obtain ⟨record, hrecord, hagree⟩ := hP
      have hkept := recorded_of_recordIn hs hrecord
      refine ⟨record, hkept, fun other hother => ?_⟩
      rw [← Option.some.inj (hkept.symm.trans hother)]
      exact hagree record hrecord) h
  refine Statements.complete_self fun statement hst => ?_
  obtain ⟨m, hm, rfl⟩ := List.mem_map.1 hst
  obtain ⟨record, hrecord, hagree⟩ := hdone m hm
  exact recordIn_same hrecord hagree

theorem agrees_of_complete {items : List (ℤ × String)}
    (h : Statements.complete (items.map (recordIn checksum now)) records = .ok records') :
    ∀ m ∈ items, Agrees checksum records m := by
  induction items generalizing records with
  | nil => simp
  | cons m rest ih =>
    obtain ⟨records₁, hm, hrest⟩ := bind_ok.1 h
    rintro m' hm'
    rcases List.mem_cons.1 hm' with rfl | hm'
    · exact (recordIn_ok hm).1
    · exact fun record hrecord => ih hrest m' hm' record (recorded_of_recordIn hm hrecord)

theorem complete_of_agrees {items : List (ℤ × String)} (hdistinct : (items.map Prod.fst).Nodup)
    (h : ∀ m ∈ items, Agrees checksum records m) :
    ∃ records', Statements.complete (items.map (recordIn checksum now)) records = .ok records' := by
  induction items generalizing records with
  | nil => exact ⟨records, rfl⟩
  | cons m rest ih =>
    obtain ⟨hfresh, hdistinct⟩ := List.nodup_cons.1 hdistinct
    have hm := h m List.mem_cons_self
    have hrest : ∀ m' ∈ rest, Agrees checksum records m' := fun m' hm' => h m' (List.mem_cons_of_mem _ hm')
    cases hrecord : recorded records m.1 with
    | some record =>
      obtain ⟨records', h'⟩ := ih hdistinct hrest
      exact ⟨records', bind_ok.2 ⟨records, recordIn_same hrecord hm, h'⟩⟩
    | none =>
      have hnew : recordIn checksum now m records =
          .ok (records ++ [⟨m.1, m.2, checksum m.1 m.2, now⟩]) := by rw [recordIn, hrecord]
      have hstill : ∀ m' ∈ rest, Agrees checksum (records ++ [⟨m.1, m.2, checksum m.1 m.2, now⟩]) m' := by
        rintro m' hm' record hr
        have hne : m.1 ≠ m'.1 := fun heq => hfresh (heq ▸ List.mem_map_of_mem hm')
        rw [recorded_concat, if_neg hne, Option.or_none] at hr
        exact hrest m' hm' record hr
      obtain ⟨records', h'⟩ := ih hdistinct hstill
      exact ⟨records', bind_ok.2 ⟨_, hnew, h'⟩⟩

end Records

/-! ### The keys of obligations -/

section Obligations

variable (sq)

/-- The key that an obligation states, in its column or else in its payload. -/
def ObligationRow.statedKey (o : ObligationRow) : Option String :=
  (o.dedupeKey.filter (· ≠ "")).or
    (((sq.jsonExtract o.payload "dedupeKey").bind sq.textColumn).filter (· ≠ ""))

/-- The key that it is to have; one that states none gets its id. -/
def ObligationRow.finalKey (o : ObligationRow) : String := (o.statedKey sq).getD o.obligationId

def ObligationRow.keyed (o : ObligationRow) : ObligationRow := { o with dedupeKey := some (o.finalKey sq) }

variable {sq} {o o' : ObligationRow} {t t' : ObligationTable}

theorem keyMissing_iff : o.keyMissing = true ↔ o.dedupeKey.filter (· ≠ "") = none := by
  cases h : o.dedupeKey with
  | none => simp [ObligationRow.keyMissing, h]
  | some key => simp [ObligationRow.keyMissing, h, Option.filter]

theorem not_keyMissing {key : String} (hkey : o.dedupeKey = some key) (hne : key ≠ "") :
    o.keyMissing = false := by
  simp [ObligationRow.keyMissing, hkey, hne]

theorem key_of_not_keyMissing (h : o.keyMissing = false) : ∃ key, o.dedupeKey = some key ∧ key ≠ "" := by
  cases hkey : o.dedupeKey with
  | none => simp [ObligationRow.keyMissing, hkey] at h
  | some key => exact ⟨key, rfl, by simpa [ObligationRow.keyMissing, hkey] using h⟩

theorem keyed_of_not_keyMissing (h : o.keyMissing = false) : o.keyed sq = o := by
  obtain ⟨key, hkey, hne⟩ := key_of_not_keyMissing h
  have hstated : o.statedKey sq = some key := by
    simp [ObligationRow.statedKey, hkey, Option.filter, hne]
  rw [ObligationRow.keyed, ObligationRow.finalKey, hstated, Option.getD_some, ← hkey]

/-- What the update writes is the text that the payload states, or else the id. -/
theorem textColumn_coalesce (value : SqlValue) (id : String) :
    sq.textColumn (coalesce (nullIfEmpty value) id) = some (((sq.textColumn value).filter (· ≠ "")).getD id) := by
  cases value with
  | null => rfl
  | number value => simp [nullIfEmpty, coalesce, Sqlite.textColumn, Option.filter, sq.numberText_ne]
  | text value =>
    by_cases hempty : value = ""
    · simp [nullIfEmpty, coalesce, Sqlite.textColumn, hempty, Option.filter]
    · simp [nullIfEmpty, coalesce, Sqlite.textColumn, hempty, Option.filter]

theorem withKey_ok (hmissing : o.keyMissing = true) :
    o.withKey sq = .ok o' ↔ (sq.jsonExtract o.payload "dedupeKey").isSome ∧ o' = o.keyed sq := by
  rw [ObligationRow.withKey, bind_ok]
  cases hvalue : sq.jsonExtract o.payload "dedupeKey" with
  | none => simp [orThrow_ok]
  | some value =>
    have hkey : o.finalKey sq = ((sq.textColumn value).filter (· ≠ "")).getD o.obligationId := by
      rw [ObligationRow.finalKey, ObligationRow.statedKey, keyMissing_iff.1 hmissing, Option.none_or, hvalue]
      rfl
    simp only [orThrow_ok, Option.some.injEq, exists_eq_left', textColumn_coalesce, Except.ok.injEq,
      Option.isSome_some, true_and, ObligationRow.keyed, hkey]
    exact eq_comm

theorem updated_keyed : Backfill.updated ObligationRow.keyMissing (ObligationRow.keyed sq) o = o.keyed sq := by
  rw [Backfill.updated]
  by_cases h : o.keyMissing = true
  · rw [if_pos h]
  · rw [if_neg h, keyed_of_not_keyMissing (Bool.not_eq_true _ ▸ h)]

theorem map_updated (rows : List ObligationRow) :
    rows.map (Backfill.updated ObligationRow.keyMissing (ObligationRow.keyed sq)) = rows.map (ObligationRow.keyed sq) :=
  List.map_congr_left fun _ _ => updated_keyed

/-- The update of one row writes its final key, whatever the other rows are. -/
theorem set_eq_keyed {r r' : ObligationRow} (hmissing : r.keyMissing = true)
    (h : (t.update sq).set r = .ok r') : r' = r.keyed sq :=
  ((withKey_ok hmissing).1 h).2

theorem backfill_ok (hcolumn : t.hasDedupeKey = true) : t.backfill sq = .ok t' ↔
    (t.update sq).rows ObligationRow.keyMissing [] t.rows = .ok t'.rows ∧ t'.hasDedupeKey = true ∧
      t'.unique = t.unique ∧ t'.guarded = t.guarded := by
  rw [ObligationTable.backfill, dif_pos hcolumn]
  split
  · rename_i e he
    simp [he]
  · rename_i rows hrows
    constructor
    · rintro h
      cases h
      exact ⟨hrows, hcolumn, rfl, rfl⟩
    · rintro ⟨h, hc, hu, hg⟩
      have hsame : rows = t'.rows := Except.ok.inj (hrows.symm.trans h)
      subst hsame
      cases t'
      simp_all

theorem index_ok : t.index = .ok t' ↔ Backfill.Unique ObligationRow.indexKey t.rows ∧
    t'.rows = t.rows ∧ t'.hasDedupeKey = t.hasDedupeKey ∧ t'.unique = true ∧ t'.guarded = true := by
  rw [ObligationTable.index]
  by_cases h : Backfill.Unique ObligationRow.indexKey t.rows
  · rw [dif_pos h, Except.ok.injEq]
    constructor
    · rintro rfl
      exact ⟨h, rfl, rfl, rfl, rfl⟩
    · rintro ⟨-, hr, hc, hu, hg⟩
      cases t'
      simp_all
  · rw [dif_neg h]
    exact iff_of_false (by simp) fun hindexed => h hindexed.1

theorem indexKey_keyed : (o.keyed sq).indexKey = some (o.taskId, o.epochId, o.finalKey sq) := rfl

theorem unique_keyed (rows : List ObligationRow) :
    Backfill.Unique ObligationRow.indexKey (rows.map (ObligationRow.keyed sq)) ↔
      (rows.map fun o => (o.taskId, o.epochId, o.finalKey sq)).Nodup := by
  rw [Backfill.Unique, List.filterMap_map, ← List.filterMap_eq_map]
  rfl

/-- The table after an upgrade. -/
theorem upgrade_ok (h : t.upgrade sq = .ok t') :
    t'.rows = t.rows.map (ObligationRow.keyed sq) ∧
      t'.hasDedupeKey = true ∧ t'.unique = true ∧ t'.guarded = true ∧
      (t.rows.map fun o => (o.taskId, o.epochId, o.finalKey sq)).Nodup ∧
      ∀ o ∈ t.rows, o.keyMissing = true → (sq.jsonExtract o.payload "dedupeKey").isSome := by
  obtain ⟨t₁, hfilled, hindexed⟩ := bind_ok.1 h
  obtain ⟨hrows, hcolumn, -, -⟩ := (backfill_ok (t := t.addDedupeKey) rfl).1 hfilled
  obtain ⟨hunique, hsame, hcolumn', hu, hg⟩ := index_ok.1 hindexed
  have hkeyed : t₁.rows = t.rows.map (ObligationRow.keyed sq) := by
    rw [Backfill.rows_eq_updated (fun _ _ => set_eq_keyed) hrows, List.nil_append]
    exact map_updated t.rows
  refine ⟨hsame.trans hkeyed, hcolumn'.trans hcolumn, hu, hg, (unique_keyed _).1 (hkeyed ▸ hunique), ?_⟩
  rintro o ho hmissing
  obtain ⟨o', hset⟩ := Backfill.set_of_rows hrows o ho hmissing
  exact ((withKey_ok hmissing).1 hset).1

/-- The triggers and the index accept a final key: it is not empty, and a row still to come that has it
    already keeps it. -/
theorem accepts_keyed {before after : List ObligationRow}
    (hunique : Backfill.Unique ObligationRow.indexKey ((before ++ o :: after).map (ObligationRow.keyed sq)))
    (hkey : o.finalKey sq ≠ "") :
    t.accepts (o.keyed sq)
      ([] ++ before.map (Backfill.updated ObligationRow.keyMissing (ObligationRow.keyed sq)) ++ after) = true := by
  have hpresent : (o.keyed sq).keyMissing = false := not_keyMissing rfl hkey
  rw [← map_updated] at hunique
  have hapart := Backfill.key_apart hunique (updated_keyed (o := o) ▸ indexKey_keyed)
    fun x _ hx => by
      obtain ⟨key, hcolumn, hkeys⟩ := Option.map_eq_some_iff.1 hx
      have hkept : x.keyMissing = false := not_keyMissing hcolumn (by
        rw [(Prod.mk.inj (Prod.mk.inj hkeys).2).2]
        exact hkey)
      rw [updated_keyed, keyed_of_not_keyMissing hkept]
      exact hx
  rw [ObligationTable.accepts, hpresent, Bool.not_false, Bool.or_true, Bool.true_and, indexKey_keyed,
    Option.all_some, List.nil_append]
  refine Bool.or_eq_true_iff.2 (.inr ?_)
  rw [Bool.not_eq_true', Bool.eq_false_iff, Ne, List.contains_iff_mem, List.mem_filterMap]
  rintro ⟨x, hx, hxk⟩
  exact hapart x hx hxk

theorem upgrade_total
    (hread : ∀ o ∈ t.rows, o.keyMissing = true → (sq.jsonExtract o.payload "dedupeKey").isSome)
    (hdistinct : (t.rows.map fun o => (o.taskId, o.epochId, o.finalKey sq)).Nodup)
    (hkeys : ∀ o ∈ t.rows, o.finalKey sq ≠ "") : ∃ t', t.upgrade sq = .ok t' := by
  have hunique : Backfill.Unique ObligationRow.indexKey (t.rows.map (ObligationRow.keyed sq)) :=
    (unique_keyed t.rows).2 hdistinct
  have hrows : (t.addDedupeKey.update sq).rows ObligationRow.keyMissing [] t.rows =
      .ok (t.rows.map (ObligationRow.keyed sq)) := by
    rw [Backfill.rows_total (f := ObligationRow.keyed sq)
      (fun o ho hmissing => (withKey_ok hmissing).2 ⟨hread o ho hmissing, rfl⟩) ?_, map_updated,
      List.nil_append]
    rintro before o after hsplit -
    exact accepts_keyed (hsplit ▸ hunique) (hkeys o (by simp [hsplit]))
  have hfilled : t.addDedupeKey.backfill sq = .ok ⟨true, t.unique, t.guarded,
      t.rows.map (ObligationRow.keyed sq), by simp, t.addDedupeKey.indexed_update sq hrows⟩ :=
    (backfill_ok rfl).2 ⟨hrows, rfl, rfl, rfl⟩
  exact ⟨⟨true, true, true, t.rows.map (ObligationRow.keyed sq), by simp, fun _ => hunique⟩,
    bind_ok.2 ⟨_, hfilled, index_ok.2 ⟨hunique, rfl, rfl, rfl, rfl⟩⟩⟩

/-- A second upgrade finds nothing to fill in. -/
theorem upgrade_again (hcolumn : t.hasDedupeKey = true) (hunique : t.unique = true)
    (hguarded : t.guarded = true) (hkeys : ∀ o ∈ t.rows, o.keyMissing = false) :
    t.upgrade sq = .ok t := by
  have hsame : t.addDedupeKey = t := by
    rw [ObligationTable.addDedupeKey]
    cases t
    simp_all
  have hrows : (t.update sq).rows ObligationRow.keyMissing [] t.rows = .ok t.rows := by
    rw [Backfill.rows_total (f := ObligationRow.keyed sq)
      (fun o ho hmissing => absurd hmissing (by simp [hkeys o ho]))
      (fun before o after hsplit hmissing => absurd hmissing (by simp [hkeys o (by simp [hsplit])])),
      List.nil_append, map_updated]
    exact congrArg Except.ok ((List.map_congr_left fun o ho => keyed_of_not_keyMissing (hkeys o ho)).trans
      (List.map_id _))
  rw [ObligationTable.upgrade, hsame]
  exact bind_ok.2 ⟨t, (backfill_ok hcolumn).2 ⟨hrows, hcolumn, rfl, rfl⟩,
    index_ok.2 ⟨t.indexed hunique, rfl, rfl, hunique, hguarded⟩⟩

end Obligations

/-! ### Gaps -/

section Gaps

variable {t t' : GapTable}

theorem gaps_upgrade_ok : t.upgrade sq = .ok t' ↔ (∀ g ∈ t.rows, (g.semantic sq).isSome) ∧
    t'.rows = Backfill.firsts GapRow.rowid (GapRow.semantic sq) t.rows ∧ t'.semanticIndex = true := by
  simp only [GapTable.upgrade, GapTable.dedupe, GapTable.index, bind_ok, require_ok, exists_and_left,
    exists_const, List.all_eq_true, Except.ok.injEq, Bool.or_eq_true, decide_eq_true_eq]
  constructor
  · rintro ⟨t₁, ⟨hread, rfl⟩, -, rfl⟩
    exact ⟨hread, rfl, rfl⟩
  · rintro ⟨hread, hrows, hindex⟩
    refine ⟨_, ⟨hread, rfl⟩, .inr (Backfill.nodup_firsts t.rowids), ?_⟩
    cases t'
    simp_all

theorem gaps_upgrade_again (h : t.upgrade sq = .ok t') : t'.upgrade sq = .ok t' := by
  obtain ⟨hread, hrows, hindex⟩ := gaps_upgrade_ok.1 h
  refine gaps_upgrade_ok.2 ⟨?_, ?_, hindex⟩
  · rw [hrows]
    exact fun g hg => hread g ((Backfill.firsts_sublist _).subset hg)
  · rw [hrows, Backfill.firsts_eq_self (Backfill.nodup_firsts t.rowids)]

end Gaps

/-! ### Entity versions -/

theorem legacy_upgraded (t : EntityVersionTable) : hasLegacyVersionUniqueness t.upgraded = false := by
  rw [EntityVersionTable.upgraded]
  split
  · rw [hasLegacyVersionUniqueness, List.any_cons, List.any_nil, Bool.or_false]
    decide
  · rename_i h
    exact Bool.not_eq_true _ ▸ h

theorem upgraded_rows (t : EntityVersionTable) : t.upgraded.rows = t.rows := by
  rw [EntityVersionTable.upgraded]
  split <;> rfl

/-! ### What a migration is to keep -/

section Keeps

/-- The rows of a table; of a missing one there are none. -/
def Database.obligationRows (db : Database) : List ObligationRow := (db.obligations.getD .fresh).rows
def Database.gapRows (db : Database) : List GapRow := (db.gaps.getD .fresh).rows
def Database.versionRows (db : Database) : List EntityVersionRow := (db.entityVersions.getD .fresh).rows
def Database.provenanceRows (db : Database) : List RelationProvenanceRow := db.relationProvenance.getD []
def Database.toolRunRows (db : Database) : List (Option String × ToolRunRow) := (db.toolRuns.getD .fresh).rows
def Database.messageRows (db : Database) : List (Option String × MessageRow) := (db.messages.getD .fresh).rows
def Database.queuedInputRows (db : Database) : List (Option String × QueuedInputRow) :=
  (db.queuedInputs.getD .fresh).rows

/-- An obligation apart from its key. -/
def ObligationRow.withoutKey (o : ObligationRow) : ObligationRow := { o with dedupeKey := none }

variable (sq)

/-- The second database holds the investigation of the first one: all its rows, every obligation with a key
    of its own, and of the gaps that say the same exactly one. -/
structure Kept (db db' : Database) : Prop where
  obligations : db'.obligationRows.map ObligationRow.withoutKey = db.obligationRows.map ObligationRow.withoutKey
  versions : db'.versionRows = db.versionRows
  provenance : db'.provenanceRows = db.provenanceRows
  toolRuns : db'.toolRunRows = db.toolRunRows
  messages : db'.messageRows = db.messageRows
  queuedInputs : db'.queuedInputRows = db.queuedInputRows
  keys : ∀ o ∈ db'.obligationRows, ∃ key, o.dedupeKey = some key ∧ key ≠ ""
  distinct : (db'.obligationRows.map fun o => (o.taskId, o.epochId, o.dedupeKey)).Nodup
  gaps : db'.gapRows.Sublist db.gapRows
  oneGap : ∀ g ∈ db.gapRows, ∃! g', g' ∈ db'.gapRows ∧ g'.semantic sq = g.semantic sq

variable (checksum now)

/-- Apart from the keys of its obligations nothing keeps the database from being migrated: it is not of a
    later schema, the migrations on record are these ones, the payloads that are read are JSON, and the
    versions fit their new table where they are copied. -/
structure Migratable (db : Database) : Prop where
  version : db.userVersion ≤ runtimeSchemaVersion
  records : ∀ m ∈ schemaNames, Agrees checksum (db.schemaMigrations.getD []) m
  obligations : ∀ o ∈ db.obligationRows, o.keyMissing = true → (sq.jsonExtract o.payload "dedupeKey").isSome
  gaps : ∀ g ∈ db.gapRows, (g.semantic sq).isSome
  versions : VersionsAccepted db

/-- An opening either keeps the investigation, and a second one changes nothing, or it leaves the file as it
    was; and the keys of obligations are no reason for the latter. -/
structure MigratesSafely (db : Database) : Prop where
  kept : ∀ db', migrate checksum now sq db = .ok db' → Kept sq db db'
  again : ∀ db' now', migrate checksum now sq db = .ok db' → migrate checksum now' sq db' = .ok db'
  unchanged : ∀ e, migrate checksum now sq db = .error e → opened checksum now sq db = db
  opens : Migratable sq checksum db → ∃ db', migrate checksum now sq db = .ok db'

/-- No two obligations of a task and epoch come to the same key, and none that states no key has an empty
    id. -/
structure KeysApart (db : Database) : Prop where
  distinct : (db.obligationRows.map fun o => (o.taskId, o.epochId, (o.statedKey sq).getD o.obligationId)).Nodup
  ids : ∀ o ∈ db.obligationRows, o.statedKey sq = none → o.obligationId ≠ ""

variable {sq checksum now} {db db' : Database}

theorem ne_of_stated {o : ObligationRow} {key : String} (h : o.statedKey sq = some key) : key ≠ "" := by
  rw [ObligationRow.statedKey, Option.or_eq_some_iff] at h
  rcases h with h | ⟨-, h⟩
  · exact of_decide_eq_true (Option.filter_eq_some_iff.1 h).2
  · exact of_decide_eq_true (Option.filter_eq_some_iff.1 h).2

theorem KeysApart.finalKey_ne (h : KeysApart sq db) : ∀ o ∈ db.obligationRows, o.finalKey sq ≠ "" := by
  rintro o ho
  rw [ObligationRow.finalKey]
  cases hkey : o.statedKey sq with
  | none => exact h.ids o ho hkey
  | some key => exact ne_of_stated hkey

theorem migratable_of_ok (h : migrate checksum now sq db = .ok db') : Migratable sq checksum db := by
  obtain ⟨hversion, hversions, u, hrecords, hobligations, hgaps, -⟩ := migrate_ok.1 h
  obtain ⟨-, -, -, -, -, hread⟩ := upgrade_ok hobligations
  exact ⟨hversion, agrees_of_complete hrecords, hread, (gaps_upgrade_ok.1 hgaps).1, hversions⟩

theorem migrate_total (h : Migratable sq checksum db) (hkeys : KeysApart sq db) :
    ∃ db', migrate checksum now sq db = .ok db' := by
  obtain ⟨records, hrecords⟩ : ∃ records, recordAll checksum now (db.schemaMigrations.getD []) = .ok records :=
    complete_of_agrees (by decide) h.records
  obtain ⟨obligations, hobligations⟩ := upgrade_total h.obligations hkeys.distinct hkeys.finalKey_ne
  obtain ⟨gaps, hgaps⟩ : ∃ gaps, (db.gaps.getD .fresh).upgrade sq = .ok gaps :=
    ⟨⟨_, (db.gaps.getD .fresh).rowids.sublist ((Backfill.firsts_sublist _).map _), true⟩,
      gaps_upgrade_ok.2 ⟨h.gaps, rfl, rfl⟩⟩
  exact ⟨_, migrate_ok.2 ⟨h.version, h.versions, ⟨records, obligations, gaps⟩, hrecords, hobligations,
    hgaps, rfl⟩⟩

theorem obligations_of_ok (h : migrate checksum now sq db = .ok db') :
    db'.obligationRows = db.obligationRows.map (ObligationRow.keyed sq) := by
  obtain ⟨-, -, u, -, hobligations, -, rfl⟩ := migrate_ok.1 h
  exact (upgrade_ok hobligations).1

theorem distinct_of_ok (h : migrate checksum now sq db = .ok db') :
    (db.obligationRows.map fun o => (o.taskId, o.epochId, o.finalKey sq)).Nodup := by
  obtain ⟨-, -, u, -, hobligations, -, -⟩ := migrate_ok.1 h
  obtain ⟨-, -, -, -, hdistinct, -⟩ := upgrade_ok hobligations
  exact hdistinct

theorem gaps_of_ok (h : migrate checksum now sq db = .ok db') :
    db'.gapRows = Backfill.firsts GapRow.rowid (GapRow.semantic sq) db.gapRows := by
  obtain ⟨-, -, u, -, -, hgaps, rfl⟩ := migrate_ok.1 h
  exact (gaps_upgrade_ok.1 hgaps).2.1

/-- Of the gaps that say the same one is kept, the first. -/
theorem oneGap_of_ok (h : migrate checksum now sq db = .ok db') {g : GapRow} (hg : g ∈ db.gapRows) :
    ∃! g', g' ∈ db'.gapRows ∧ g'.semantic sq = g.semantic sq := by
  rw [gaps_of_ok h]
  obtain ⟨g', hg', hsame⟩ : ∃ g' ∈ Backfill.firsts GapRow.rowid (GapRow.semantic sq) db.gapRows,
      g'.semantic sq = g.semantic sq := Backfill.exists_first hg
  refine ⟨g', ⟨hg', hsame⟩, fun g'' hg'' => ?_⟩
  exact List.inj_on_of_nodup_map (Backfill.nodup_firsts (db.gaps.getD .fresh).rowids) hg''.1 hg'
    (hg''.2.trans hsame.symm)

theorem kept_of_ok (h : migrate checksum now sq db = .ok db') (hkeys : KeysApart sq db) : Kept sq db db' := by
  have hrows := obligations_of_ok h
  have hdistinct := distinct_of_ok h
  have hgaps := gaps_of_ok h
  obtain ⟨-, -, u, -, -, -, hdb⟩ := migrate_ok.1 h
  refine ⟨?_, ?_, ?_, ?_, ?_, ?_, ?_, ?_, hgaps ▸ Backfill.firsts_sublist _, fun g hg => oneGap_of_ok h hg⟩
  · rw [hrows, List.map_map]
    rfl
  · rw [hdb]
    exact upgraded_rows _
  · rw [hdb]
    rfl
  · rw [hdb]
    rfl
  · rw [hdb]
    rfl
  · rw [hdb]
    rfl
  · rw [hrows]
    rintro o ho
    obtain ⟨o, hmem, rfl⟩ := List.mem_map.1 ho
    exact ⟨o.finalKey sq, rfl, hkeys.finalKey_ne o hmem⟩
  · rw [hrows, List.map_map]
    refine List.Nodup.of_map (fun row : String × String × Option String => (row.1, row.2.1, row.2.2.getD "")) ?_
    rw [List.map_map]
    exact hdistinct

theorem again_of_ok (now' : String) (h : migrate checksum now sq db = .ok db') (hkept : Kept sq db db') :
    migrate checksum now' sq db' = .ok db' := by
  have hkeys := hkept.keys
  obtain ⟨-, -, u, hrecords, hobligations, hgaps, rfl⟩ := migrate_ok.1 h
  obtain ⟨-, hcolumn, hunique, hguarded, -, -⟩ := upgrade_ok hobligations
  have hmissing : ∀ o ∈ u.obligations.rows, o.keyMissing = false := fun o ho => by
    obtain ⟨key, hkey, hne⟩ := hkeys o ho
    exact not_keyMissing hkey hne
  refine migrate_ok.2 ⟨le_rfl, fun hlegacy => ?_, u, recordAll_again now' hrecords,
    upgrade_again hcolumn hunique hguarded hmissing, gaps_upgrade_again hgaps, ?_⟩
  · exact absurd hlegacy (by simp [Database.upgraded, legacy_upgraded])
  · simp [Database.upgraded, upgraded_of_not_legacy, legacy_upgraded, EpochTable.addEpochId]

/-- A key that is kept is not empty, so an obligation that states none has an id. -/
theorem ids_of_kept (h : migrate checksum now sq db = .ok db') (hkept : Kept sq db db') :
    ∀ o ∈ db.obligationRows, o.statedKey sq = none → o.obligationId ≠ "" := by
  rintro o ho hnone
  obtain ⟨key, hkey, hne⟩ := hkept.keys (o.keyed sq) (obligations_of_ok h ▸ List.mem_map_of_mem ho)
  have hid : o.obligationId = key := by
    rw [ObligationRow.keyed, ObligationRow.finalKey, hnone, Option.getD_none] at hkey
    exact Option.some.inj hkey
  exact hid ▸ hne

/-- Opening a database is safe exactly when the keys of its obligations are apart, or when something else
    keeps it from being opened. -/
theorem migration_safe_iff :
    MigratesSafely sq checksum now db ↔ (Migratable sq checksum db → KeysApart sq db) := by
  constructor
  · rintro h hmigratable
    obtain ⟨db', hok⟩ := h.opens hmigratable
    exact ⟨distinct_of_ok hok, ids_of_kept hok (h.kept db' hok)⟩
  · rintro hkeys
    have hkept : ∀ db', migrate checksum now sq db = .ok db' → Kept sq db db' := fun db' hok =>
      kept_of_ok hok (hkeys (migratable_of_ok hok))
    refine ⟨hkept, fun db' now' hok => again_of_ok now' hok (hkept db' hok), fun e he => ?_, fun hmigratable =>
      migrate_total hmigratable (hkeys hmigratable)⟩
    rw [opened, he]
    rfl

/-! ### Two obligations that state the same key -/

def samplePayload : String := "\x7b\"dedupeKey\":\"k\"\x7d"

/-- SQLite on the payload of the sample. -/
def sampleSqlite : Sqlite where
  jsonExtract payload name := if payload = samplePayload ∧ name = "dedupeKey" then some (.text "k") else some .null
  numberText _ := "0"
  numberText_ne _ := by decide

def sampleObligation (obligationId : String) : ObligationRow where
  obligationId := obligationId
  taskId := "TASK-1"
  epochId := "EPOCH-1"
  hypothesisId := none
  obligationKind := "CHECK_ALTERNATIVE"
  dedupeKey := none
  required := true
  status := "OPEN"
  payload := samplePayload
  createdAt := "2026-01-01T00:00:00.000Z"
  updatedAt := "2026-01-01T00:00:00.000Z"

/-- A database of the second schema: its table of obligations has no column for the key. -/
def repeatedKeys : Database where
  userVersion := 2
  schemaMigrations := none
  objectRefs := none
  facts := none
  factEdges := none
  toolRuns := none
  messages := none
  queuedInputs := none
  gaps := none
  obligations := some ⟨false, false, false, [sampleObligation "OBL-1", sampleObligation "OBL-2"], by
    simp [sampleObligation], by simp⟩
  entityVersions := none
  relationProvenance := none

theorem repeatedKeys_migratable : Migratable sampleSqlite (fun _ name => name) repeatedKeys where
  version := by decide
  records _ _ _ hrecord := by cases hrecord
  obligations _ _ _ := by
    dsimp only [sampleSqlite]
    split <;> rfl
  gaps _ hg := by cases hg
  versions hlegacy := by cases hlegacy

theorem repeated_keys_unopenable :
    ¬MigratesSafely sampleSqlite (fun _ name => name) "2026-01-02T00:00:00.000Z" repeatedKeys := by
  rintro h
  obtain ⟨db', hok⟩ := h.opens repeatedKeys_migratable
  exact absurd (distinct_of_ok hok) (by decide)

end Keeps

end HuntWarden.Migration
