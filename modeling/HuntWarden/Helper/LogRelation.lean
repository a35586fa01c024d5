import HuntWarden.Helper.LogSources

/-! What a log source contains. The relation runs the collectors that the kind of the source stands for and
    keeps the events of the source. Kinds are told from the paths of the sources and events are attributed
    by the collectors, so that the relation finds every event exactly where no collector that the kind does
    not stand for has an event of the source. -/

namespace HuntWarden.Helper.LogRelation

open Outcome

/-! ### What the enumerations list -/

/-- The pages of an enumeration of log events, from an offset to the last one. -/
inductive LogPages (deadline : ℕ → Bool) (maximum : ℕ) (texts : LogTexts) (sources : LogSources) (cutoff : ℕ) :
    ℕ → List Payload → Prop where
  | last {start : ℕ} {inv : Inventory}
      (page : v2_log_event_inventory deadline none maximum texts sources cutoff start = .ok inv)
      (whole : inv.complete = true) : LogPages deadline maximum texts sources cutoff start inv.rows
  | more {start : ℕ} {inv : Inventory} {rows : List Payload}
      (page : v2_log_event_inventory deadline none maximum texts sources cutoff start = .ok inv)
      (cut : inv.complete = false) (rest : LogPages deadline maximum texts sources cutoff inv.nextOffset rows) :
      LogPages deadline maximum texts sources cutoff start (inv.rows ++ rows)

section Statements

variable (texts : EventTexts) (tree : LogTree)

/-- What the pages of an enumeration of events list; log events have pages of their own. -/
def enumerated (logRows : List Payload) (cutoff : ℕ) : NamespaceName → List Payload
  | .logEvent => logRows
  | target => (v2_query_events texts tree cutoff collectorLimit target).map (v2_event_row texts target)

/-- The events of one namespace that are attributed to the source. -/
def attributedTo (logRows : List Payload) (cutoff : ℕ) (sourceId : Json) (target : NamespaceName) :
    List (NamespaceName × Payload) :=
  ((enumerated texts tree logRows cutoff target).filter fun row => fieldOf row "sourceId" = sourceId).map fun row =>
    (target, row)

def eventNamespaces : List NamespaceName := [.logEvent, .authEvent, .execEvent]

/-- The pages of the relation have the events, and the source is not said to have none when it has some. -/
structure Complete (contained : Contained) (events : List (NamespaceName × Payload)) : Prop where
  pages : ∀ limits : List ℕ, contained.rows.length ≤ limits.sum →
    (Paging.readPages contained.rows 0 limits).1.flatten.Perm events
  able : (∃ kind, unavailableGap kind ∈ contained.gaps) → events = []

/-- The record comes before the other records of its event. -/
def First (records : List (String × LogRecord)) (entry : String × LogRecord) : Prop :=
  ∃ before after, records = before ++ entry :: after ∧ ∀ other ∈ before, eventOf other ≠ eventOf entry

theorem First.mem {records : List (String × LogRecord)} {entry : String × LogRecord} (h : First records entry) :
    entry ∈ records := by
  obtain ⟨before, after, rfl, -⟩ := h
  exact List.mem_append_right _ List.mem_cons_self

/-- No event of the source is one that the kind of the source does not stand for: no login, unless it is the
    journal or a log of authentications, and no record that comes first of its event, for an access log. -/
structure KindCovers (cutoff : ℕ) (source : SourceRow) : Prop where
  logins : source.kind ≠ .journald → source.kind ≠ .auth → ∀ database ∈ tree.logins,
    tree.loginSource database = source.path → ∀ line ∈ database.lines, line.moment < cutoff
  records : source.kind = .webAccess → ∀ entry, First (logRecords (tree.host texts cutoff) cutoff) entry ∨
    First (authRecords (tree.host texts cutoff) cutoff) entry → entry.1 ≠ source.path

end Statements

variable {texts : EventTexts} {tree : LogTree} {cutoff : ℕ} {logRows : List Payload}

/-! ### The sources of the events -/

/-- The path of a file in the directory that one of the patterns finds. -/
def FromLog (directory : String) (patterns : List String) (source : String) : Prop :=
  ∃ name, '/' ∉ name.toList ∧ matchesAny patterns name = true ∧ source = pathIn directory name

theorem matches_of_fromLog {file : SourceFile} {directory : String} {patterns : List String}
    (h : file ∈ sourceFiles tree) (hfrom : FromLog directory patterns file.path) :
    matchesAny patterns file.name = true := by
  obtain ⟨name, hplain, hmatch, hpath⟩ := hfrom
  rw [name_of_path (found_of_mem h).1 hplain hpath]
  exact hmatch

theorem fromLog_of_set {patterns : List String} {entry : String × LogRecord}
    (h : entry ∈ fileRecords (tree.log_file_set patterns)) : FromLog tree.directory patterns entry.1 := by
  obtain ⟨file, hfile, hentry⟩ := List.mem_flatMap.1 h
  obtain ⟨record, -, rfl⟩ := List.mem_map.1 hentry
  obtain ⟨log, hlog, rfl⟩ := List.mem_map.1 hfile
  exact ⟨log.name, log.plain, (List.mem_filter.1 (List.mem_of_mem_take hlog)).2, rfl⟩

/-- A record was read out of the journal or out of a log of the patterns. -/
theorem source_of_mem {journal : Option (List JournalEntry)} {kept : List JournalEntry → List JournalEntry}
    {patterns : List String} {entry : String × LogRecord}
    (h : entry ∈ journal.elim [] (fun entries => (kept entries).map fun entry => (journalSource, entry.record)) ++
      fileRecords (tree.log_file_set patterns)) :
    entry.1 = journalSource ∨ FromLog tree.directory patterns entry.1 := by
  rcases List.mem_append.1 h with h | h
  · cases journal with
    | none => cases h
    | some entries =>
      obtain ⟨found, -, rfl⟩ := List.mem_map.1 h
      exact Or.inl rfl
  · exact Or.inr (fromLog_of_set h)

theorem source_of_log {entry : String × LogRecord} (h : entry ∈ logRecords (tree.host texts cutoff) cutoff) :
    entry.1 = journalSource ∨ FromLog tree.directory logPatterns entry.1 :=
  source_of_mem (List.mem_filter.1 h).1

theorem source_of_auth {entry : String × LogRecord} (h : entry ∈ authRecords (tree.host texts cutoff) cutoff) :
    entry.1 = journalSource ∨ FromLog tree.directory authLogPatterns entry.1 :=
  source_of_mem (List.mem_filter.1 (List.mem_filter.1 h).1).1

theorem foldl_absorbExec_subset {ceiling : ℕ} : ∀ (stream : List ExecRecord) (s : ExecCollection),
    (stream.foldl (absorbExec texts ceiling cutoff) s).collected ⊆ s.collected ++ stream
  | [], s => by
      rw [List.foldl_nil, List.append_nil]
      exact List.Subset.refl _
  | record :: stream, s => by
      rw [List.foldl_cons]
      refine List.Subset.trans (foldl_absorbExec_subset stream _) fun found hfound => ?_
      have hstep : (absorbExec texts ceiling cutoff s record).collected ⊆ s.collected ++ [record] := by
        rw [absorbExec]
        split
        · exact List.subset_append_left ..
        · split
          · exact List.subset_append_left ..
          · exact List.Subset.refl _
      rcases List.mem_append.1 hfound with hfound | hfound
      · rcases List.mem_append.1 (hstep hfound) with hfound | hfound
        · exact List.mem_append_left _ hfound
        · exact List.mem_append_right _ (List.mem_cons.2 (Or.inl (List.mem_singleton.1 hfound)))
      · exact List.mem_append_right _ (List.mem_cons_of_mem _ hfound)

theorem source_of_exec {maximum : ℕ} {record : ExecRecord} (h : record ∈ collectExec texts tree cutoff maximum) :
    record.source = journalSource ∨ FromLog tree.auditDirectory auditLogPatterns record.source := by
  have hstream := foldl_absorbExec_subset _ _ h
  rw [List.nil_append] at hstream
  rcases List.mem_append.1 hstream with h | h
  · obtain ⟨file, hfile, hline⟩ := List.mem_flatMap.1 h
    obtain ⟨line, -, rfl⟩ := List.mem_map.1 hline
    exact Or.inr ⟨file.name, file.plain, (List.mem_filter.1 (List.mem_of_mem_take hfile)).2, rfl⟩
  · cases hjournal : tree.journal with
    | none =>
      rw [hjournal] at h
      cases h
    | some store =>
      rw [hjournal] at h
      obtain ⟨entry, hentry, rfl⟩ := List.mem_map.1 h
      obtain ⟨found, -, rfl⟩ := List.mem_map.1 (List.mem_filter.1 hentry).1
      exact Or.inl rfl

/-! ### The events of a source -/

theorem attributedTo_nil {sourceId : Json} {target : NamespaceName} :
    attributedTo texts tree logRows cutoff sourceId target = [] ↔
      ∀ row ∈ enumerated texts tree logRows cutoff target, fieldOf row "sourceId" ≠ sourceId := by
  rw [attributedTo, List.map_eq_nil_iff, List.filter_eq_nil_iff]
  exact forall_congr' fun row => forall_congr' fun _ => not_congr decide_eq_true_iff

theorem sourceId_event (namespace_ : NamespaceName) (value : Payload) :
    fieldOf (v2_event_row texts namespace_ value) "sourceId" = fieldOf value "sourceId" := by
  cases namespace_ <;> rfl

/-- The pages of log events put end to end. -/
theorem logPages_rows {deadline : ℕ → Bool} {maximum start : ℕ} {log : LogTexts} {sources : LogSources}
    {rows : List Payload} (htime : Unhurried deadline sources cutoff)
    (h : LogPages deadline maximum log sources cutoff start rows) :
    rows = ((windowRecords log sources cutoff).drop start).map fun entry => logRow log entry.1 entry.2 := by
  induction h with
  | last page whole =>
    obtain ⟨hswept, -⟩ := v2_log_event_inventory_spec page (Or.inl htime)
    have hfound := hswept.found
    rw [collect_rows, hswept.whole whole, List.take_length] at hfound
    exact (Except.ok.inj hfound).symm
  | more page cut rest ih =>
    obtain ⟨hswept, -, hnext, -⟩ := v2_log_event_inventory_spec page (Or.inl htime)
    have hfound := hswept.found
    rw [collect_rows] at hfound
    rw [ih, ← Except.ok.inj hfound, ← List.map_append, hnext, ← List.drop_drop, List.take_append_drop]

section Below

variable (hsha : Function.Injective texts.sha256) (hid : Function.Injective texts.log_source_id)
include hsha

/-- The relation keeps the events that the enumerations attribute to the source, namespace by namespace. -/
theorem relatedRows_perm {deadline : ℕ → Bool} {maximum : ℕ}
    (hlog : LogBelow (tree.host texts cutoff) cutoff collectorLimit) (htime : ∀ n, deadline n = false)
    (hpages : LogPages deadline maximum texts.toLogTexts (tree.host texts cutoff).sources cutoff 0 logRows)
    (sourceId : Json) {target : NamespaceName} (htarget : target ∈ eventNamespaces) :
    (relatedRows texts tree cutoff sourceId target).Perm
      (attributedTo texts tree logRows cutoff sourceId target) := by
  have hmapped : ∀ rows : List Payload, (rows.filter fun value => fieldOf value "sourceId" = sourceId).map
      (fun value => (target, v2_event_row texts target value)) =
        ((rows.map (v2_event_row texts target)).filter fun row => fieldOf row "sourceId" = sourceId).map
          fun row => (target, row) := fun rows => by
    rw [List.filter_map, List.map_map]
    refine congrArg (List.map _) (List.filter_congr fun value _ => ?_)
    rw [Function.comp_apply, sourceId_event]
  rw [relatedRows, hmapped, attributedTo]
  refine List.Perm.map _ (List.Perm.filter _ ?_)
  rcases List.mem_cons.1 htarget with rfl | htarget
  · have hrows := logPages_rows (unhurried_sources htime _ cutoff) hpages
    rw [List.drop_zero, windowRecords_eq hsha hlog.journal, ← collectLog_eq hsha hlog.journal hlog.events] at hrows
    rw [enumerated, hrows]
    refine ((query_log_events_perm hsha hlog).map _).trans (List.Perm.of_eq ?_)
    rw [List.map_map]
    rfl
  · rcases List.mem_cons.1 htarget with rfl | htarget
    · exact List.Perm.refl _
    · obtain rfl := List.mem_singleton.1 htarget
      exact List.Perm.refl _

include hid

theorem no_log_events {deadline : ℕ → Bool} {maximum : ℕ} {path : String}
    (hlog : LogBelow (tree.host texts cutoff) cutoff collectorLimit) (htime : ∀ n, deadline n = false)
    (hpages : LogPages deadline maximum texts.toLogTexts (tree.host texts cutoff).sources cutoff 0 logRows) :
    attributedTo texts tree logRows cutoff (.str (texts.log_source_id path)) .logEvent = [] ↔
      ∀ entry, First (logRecords (tree.host texts cutoff) cutoff) entry → entry.1 ≠ path := by
  have hrows := logPages_rows (unhurried_sources htime _ cutoff) hpages
  rw [List.drop_zero, windowRecords_eq hsha hlog.journal] at hrows
  rw [attributedTo_nil, enumerated, hrows, List.forall_mem_map]
  refine forall_congr' fun entry => imp_congr ?_ (not_congr ?_)
  · rw [Merge.mem_kept_iff, First, and_iff_right List.not_mem_nil]
  · exact ⟨fun h => hid (Json.str.inj h), fun h => congrArg (fun source => Json.str (texts.log_source_id source)) h⟩

omit hid in
/-- An event of a file is collected when it comes first of the events of authentication. -/
theorem mem_collectAuth {host : HostLogs} {maximum : ℕ} {entry : String × LogRecord}
    (hauth : AuthBelow host cutoff maximum) (hfile : entry.1 ≠ journalSource) :
    entry ∈ (collectAuth texts.toLogTexts host cutoff maximum).collected ↔ First (authRecords host cutoff) entry := by
  obtain ⟨found, hperm, hcollected⟩ := collectAuth_split hsha hauth.facility hauth.command hauth.events
  have hjournal : ∀ other ∈ authEvents cutoff (journalAuthRecords host), other.1 = journalSource := by
    intro other hother
    have hmem := (List.mem_filter.1 (List.mem_filter.1 hother).1).1
    rw [journalAuthRecords] at hmem
    cases hentries : host.journal with
    | none =>
      rw [hentries] at hmem
      cases hmem
    | some entries =>
      rw [hentries] at hmem
      obtain ⟨inner, -, rfl⟩ := List.mem_map.1 hmem
      rfl
  rw [hcollected, Merge.mem_kept_append_perm hperm fun hmem => hfile (hjournal entry (hperm.mem_iff.1 hmem)),
    ← authRecords_eq, Merge.mem_kept_iff, First, and_iff_right List.not_mem_nil]

omit hsha in
/-- Some row of a login is of the source when some login in the window is. -/
theorem login_of_source {path : String} : (∃ login ∈ binary_login_events texts tree cutoff,
    login.sourceId = texts.log_source_id path) ↔
      ∃ database ∈ tree.logins, tree.loginSource database = path ∧ ∃ line ∈ database.lines, cutoff ≤ line.moment := by
  constructor
  · rintro ⟨login, hlogin, hsource⟩
    obtain ⟨database, hdatabase, hlogin⟩ := List.mem_flatMap.1 hlogin
    obtain ⟨line, hline, rfl⟩ := List.mem_map.1 hlogin
    obtain ⟨hline, hwindow⟩ := List.mem_filter.1 hline
    exact ⟨database, hdatabase, hid hsource, line, hline, of_decide_eq_true hwindow⟩
  · rintro ⟨database, hdatabase, rfl, line, hline, hwindow⟩
    exact ⟨_, List.mem_flatMap.2 ⟨database, hdatabase, List.mem_map.2
      ⟨line, List.mem_filter.2 ⟨hline, decide_eq_true hwindow⟩, rfl⟩⟩, rfl⟩

omit hsha hid in
theorem sourceId_login {login : LoginEvent} (h : login ∈ binary_login_events texts tree cutoff) :
    fieldOf login.row "sourceId" = .str login.sourceId := by
  obtain ⟨database, -, hlogin⟩ := List.mem_flatMap.1 h
  obtain ⟨line, -, rfl⟩ := List.mem_map.1 hlogin
  rfl

omit hid in
/-- There is room for all logins, so that the source of each of them has a row. -/
theorem loginRows_of_source (hauth : AuthBelow (tree.host texts cutoff) cutoff collectorLimit) (sourceId : String) :
    (∃ row ∈ loginRows texts.toLogTexts (tree.host texts cutoff) cutoff collectorLimit,
      fieldOf row "sourceId" = .str sourceId) ↔
        ∃ login ∈ binary_login_events texts tree cutoff, login.sourceId = sourceId := by
  have hlength := length_collectAuth hsha hauth
  have hroom : (binary_login_events texts tree cutoff).length ≤ eventCeiling collectorLimit -
      (collectAuth texts.toLogTexts (tree.host texts cutoff) cutoff collectorLimit).collected.length := by
    have hevents := hauth.events.2
    have hlogins : (tree.host texts cutoff).logins = binary_login_events texts tree cutoff := rfl
    have hceiling : eventCeiling collectorLimit = 10000 := rfl
    have hlimit : collectorLimit = 5000 := rfl
    rw [hlogins] at hevents
    omega
  have hrows : loginRows texts.toLogTexts (tree.host texts cutoff) cutoff collectorLimit =
      (Merge.kept (fun login : LoginEvent => (login.sourceId, login.cursor)) []
        (binary_login_events texts tree cutoff)).map (·.row) := by
    rw [loginRows, absorbLogins]
    exact congrArg (fun logins => (Merge.kept (fun login : LoginEvent => (login.sourceId, login.cursor)) []
      logins).map (·.row)) (List.take_of_length_le hroom)
  rw [hrows]
  constructor
  · rintro ⟨row, hrow, hsource⟩
    obtain ⟨login, hlogin, rfl⟩ := List.mem_map.1 hrow
    rw [sourceId_login (Merge.kept_subset hlogin)] at hsource
    exact ⟨login, Merge.kept_subset hlogin, Json.str.inj hsource⟩
  · rintro ⟨login, hlogin, rfl⟩
    rcases @Merge.exists_kept _ _ _ (fun login : LoginEvent => (login.sourceId, login.cursor)) _ _ []
      hlogin with hnil | ⟨other, hother, hkey⟩
    · cases hnil
    · refine ⟨other.row, List.mem_map_of_mem hother, ?_⟩
      rw [sourceId_login (Merge.kept_subset hother), (Prod.mk.inj hkey).1]

theorem no_auth_events {path : String} (hpath : path ≠ journalSource)
    (hauth : AuthBelow (tree.host texts cutoff) cutoff collectorLimit) :
    attributedTo texts tree logRows cutoff (.str (texts.log_source_id path)) .authEvent = [] ↔
      (∀ entry, First (authRecords (tree.host texts cutoff) cutoff) entry → entry.1 ≠ path) ∧
        ∀ database ∈ tree.logins, tree.loginSource database = path → ∀ line ∈ database.lines, line.moment < cutoff := by
  have hmem : ∀ row, row ∈ query_auth_events texts.toAuthTexts (tree.host texts cutoff) cutoff collectorLimit ↔
      (∃ entry ∈ (collectAuth texts.toLogTexts (tree.host texts cutoff) cutoff collectorLimit).collected,
        authRow texts.toAuthTexts entry = row) ∨
        row ∈ loginRows texts.toLogTexts (tree.host texts cutoff) cutoff collectorLimit := fun row => by
    rw [(query_auth_events_perm hsha hauth).mem_iff, List.mem_append, List.mem_map]
  rw [attributedTo_nil]
  constructor
  · intro h
    have hrow : ∀ row ∈ query_auth_events texts.toAuthTexts (tree.host texts cutoff) cutoff collectorLimit,
        fieldOf row "sourceId" ≠ .str (texts.log_source_id path) := fun row hrow => by
      rw [← sourceId_event .authEvent row]
      exact h _ (List.mem_map_of_mem hrow)
    refine ⟨fun entry hfirst hentry => ?_, fun database hdatabase hsource line hline => ?_⟩
    · have hcollected := (mem_collectAuth hsha hauth (hentry ▸ hpath)).2 hfirst
      refine hrow _ ((hmem _).2 (Or.inl ⟨entry, hcollected, rfl⟩)) ?_
      exact congrArg (fun source => Json.str (texts.log_source_id source)) hentry
    · by_contra hwindow
      obtain ⟨row, hlogin, hid'⟩ := (loginRows_of_source hsha hauth _).2
        ((login_of_source hid).2 ⟨database, hdatabase, hsource, line, hline, Nat.le_of_not_lt hwindow⟩)
      exact hrow row ((hmem row).2 (Or.inr hlogin)) hid'
  · rintro ⟨hrecords, hlogins⟩ event hevent hsource
    obtain ⟨row, hrow, rfl⟩ := List.mem_map.1 hevent
    rw [sourceId_event] at hsource
    rcases (hmem row).1 hrow with ⟨entry, hentry, rfl⟩ | hlogin
    · have hentryPath : entry.1 = path := hid (Json.str.inj hsource)
      exact hrecords entry ((mem_collectAuth hsha hauth (hentryPath ▸ hpath)).1 hentry) hentryPath
    · obtain ⟨database, hdatabase, hdatabasePath, line, hline, hwindow⟩ :=
        (login_of_source hid).1 ((loginRows_of_source hsha hauth _).1 ⟨row, hlogin, hsource⟩)
      exact absurd (hlogins database hdatabase hdatabasePath line hline) (Nat.not_lt.2 hwindow)

omit hsha in
theorem no_exec_events {path : String} (hpath : path ≠ journalSource)
    (hnone : ¬ FromLog tree.auditDirectory auditLogPatterns path) :
    attributedTo texts tree logRows cutoff (.str (texts.log_source_id path)) .execEvent = [] := by
  refine attributedTo_nil.2 fun event hevent hsource => ?_
  obtain ⟨row, hrow, rfl⟩ := List.mem_map.1 hevent
  rw [sourceId_event] at hsource
  obtain ⟨item, hitem, rfl⟩ := List.mem_map.1 (List.mem_of_mem_drop hrow)
  obtain ⟨record, hrecord, rfl⟩ := List.mem_map.1 (Paging.mem_sortBy.1 hitem)
  have hrecordPath : record.source = path := hid (Json.str.inj hsource)
  rcases source_of_exec hrecord with hjournal | hfrom
  · exact hpath (hrecordPath ▸ hjournal)
  · exact hnone (hrecordPath ▸ hfrom)

end Below

/-! ### When the relation is complete -/

/-- The namespaces that a kind stands for are some of the three. -/
theorem eventNamespaces_perm (kind : SourceKind) : eventNamespaces.Perm (logSourceEventKinds kind ++
    eventNamespaces.filter fun target => !(logSourceEventKinds kind).contains target) := by
  cases kind <;> decide

theorem wanted_subset {kind : SourceKind} : logSourceEventKinds kind ⊆ eventNamespaces := fun _ h =>
  (eventNamespaces_perm kind).symm.subset (List.mem_append_left _ h)

/-- The events of all namespaces that are attributed to a source. -/
def attributed (texts : EventTexts) (tree : LogTree) (logRows : List Payload) (cutoff : ℕ) (sourceId : Json) :
    List (NamespaceName × Payload) :=
  eventNamespaces.flatMap (attributedTo texts tree logRows cutoff sourceId)

/-- What the relation of a source is made of. -/
structure Related (texts : EventTexts) (tree : LogTree) (cutoff : ℕ) (source : SourceRow)
    (contained : Contained) : Prop where
  rows : contained.rows.Perm ((logSourceEventKinds source.kind).flatMap
    (relatedRows texts tree cutoff (.str source.sourceId)))
  gaps : ∀ kind, unavailableGap kind ∈ contained.gaps → logSourceEventKinds source.kind = []

/-- It is complete when the namespaces that the kind does not stand for have no event of the source. -/
theorem complete_iff {source : SourceRow} {contained : Contained}
    (hrelated : Related texts tree cutoff source contained)
    (hperm : ∀ target ∈ eventNamespaces, (relatedRows texts tree cutoff (.str source.sourceId) target).Perm
      (attributedTo texts tree logRows cutoff (.str source.sourceId) target)) :
    Complete contained (attributed texts tree logRows cutoff (.str source.sourceId)) ↔
      ∀ target ∈ eventNamespaces, (logSourceEventKinds source.kind).contains target = false →
        attributedTo texts tree logRows cutoff (.str source.sourceId) target = [] := by
  let events := attributedTo texts tree logRows cutoff (.str source.sourceId)
  let others := eventNamespaces.filter fun target => !(logSourceEventKinds source.kind).contains target
  have hothers : ∀ target, target ∈ others ↔
      target ∈ eventNamespaces ∧ (logSourceEventKinds source.kind).contains target = false := fun target => by
    rw [List.mem_filter, Bool.not_eq_true']
  have hrows : contained.rows.Perm ((logSourceEventKinds source.kind).flatMap events) :=
    hrelated.rows.trans (List.Perm.flatMap_left _ fun target htarget => hperm target (wanted_subset htarget))
  have hsplit : (attributed texts tree logRows cutoff (.str source.sourceId)).Perm
      ((logSourceEventKinds source.kind).flatMap events ++ others.flatMap events) := by
    rw [← List.flatMap_append]
    exact (eventNamespaces_perm source.kind).flatMap_right _
  have hpages : ∀ limits : List ℕ, contained.rows.length ≤ limits.sum →
      (Paging.readPages contained.rows 0 limits).1.flatten = contained.rows := fun limits hlimits => by
    rw [Paging.flatten_readPages, List.drop_zero, List.take_of_length_le hlimits]
  constructor
  · intro h target htarget hnot
    have hwhole := h.pages [contained.rows.length] (by simp)
    rw [hpages _ (by simp)] at hwhole
    -- as many events are kept as there are in all
    have hlength := (hrows.symm.trans (hwhole.trans hsplit)).length_eq
    rw [List.length_append] at hlength
    have hnil : others.flatMap events = [] := List.length_eq_zero_iff.1 (by omega)
    exact List.flatMap_eq_nil_iff.1 hnil target ((hothers target).2 ⟨htarget, hnot⟩)
  · intro h
    have hnil : others.flatMap events = [] :=
      List.flatMap_eq_nil_iff.2 fun target htarget =>
        h target ((hothers target).1 htarget).1 ((hothers target).1 htarget).2
    rw [hnil, List.append_nil] at hsplit
    refine ⟨fun limits hlimits => ?_, fun ⟨kind, hgap⟩ => ?_⟩
    · rw [hpages limits hlimits]
      exact hrows.trans hsplit.symm
    · rw [hrelated.gaps kind hgap] at hsplit
      exact List.perm_nil.1 hsplit

theorem mem_rows {source : SourceRow} (h : source ∈ v2_log_source_rows texts tree) :
    (∃ store, tree.journal = some store ∧ source = v2_journal_source_row texts store) ∨
      ∃ file ∈ sourceFiles tree, source = sourceRow texts tree file := by
  rcases List.mem_append.1 (List.mem_of_mem_take h) with h | h
  · obtain ⟨store, hstore, rfl⟩ := Option.map_eq_some_iff.1 (Option.mem_toList.1 h)
    exact Or.inl ⟨store, hstore, rfl⟩
  · obtain ⟨file, hfile, rfl⟩ := List.mem_map.1 h
    exact Or.inr ⟨file, Paging.mem_sortBy.1 hfile, rfl⟩

/-- A record of a file of logs is attributed to an access log, a log of authentications or of the system. -/
theorem kind_of_first_log {file : SourceFile} {entry : String × LogRecord} (h : file ∈ sourceFiles tree)
    (hfirst : First (logRecords (tree.host texts cutoff) cutoff) entry) (hpath : entry.1 = file.path) :
    sourceKind file = .webAccess ∨ sourceKind file = .auth ∨
      sourceKind file = .system ∧ matchesAny authLogPatterns file.name = false := by
  rcases source_of_log hfirst.mem with hjournal | hfrom
  · exact absurd (hpath ▸ hjournal) path_ne_journal
  · exact kind_of_log h (matches_of_fromLog h (hpath ▸ hfrom))

theorem kind_of_first_auth {file : SourceFile} {entry : String × LogRecord} (h : file ∈ sourceFiles tree)
    (hfirst : First (authRecords (tree.host texts cutoff) cutoff) entry) (hpath : entry.1 = file.path) :
    sourceKind file = .webAccess ∨ sourceKind file = .auth := by
  rcases source_of_auth hfirst.mem with hjournal | hfrom
  · exact absurd (hpath ▸ hjournal) path_ne_journal
  · have hmatch := matches_of_fromLog h (hpath ▸ hfrom)
    rcases kind_of_log h (log_of_auth hmatch) with hkind | hkind | ⟨-, hnot⟩
    · exact Or.inl hkind
    · exact Or.inr hkind
    · rw [hmatch] at hnot
      cases hnot

/-- The relation is asked of the source, at any generation. -/
structure AsksFor (request : ContainsRequest) (source : SourceRow) : Prop where
  sourceId : fieldOf request.identity "sourceId" = .str source.sourceId
  generation : isStr (fieldOf request.identity "generation") = true
  locator : fieldOf request.locator "path" = .null ∨ fieldOf request.locator "path" = .str source.path

theorem relate_contains_ok {request : ContainsRequest} {observed : SourceRow}
    (hfind : (v2_log_source_rows texts tree).find?
      (fun source => .str source.sourceId = fieldOf request.identity "sourceId") = some observed)
    (hasks : AsksFor request observed) :
    ∃ contained, relate_contains texts tree cutoff request = .ok contained ∧
      Related texts tree cutoff observed contained := by
  have hstr : (isStr (fieldOf request.identity "sourceId") &&
      isStr (fieldOf request.identity "generation")) = true := by
    rw [hasks.sourceId, hasks.generation]
    rfl
  have hpath : decide (fieldOf request.locator "path" = .null ∨
      fieldOf request.locator "path" = .str observed.path) = true := decide_eq_true hasks.locator
  have hrun : relate_contains texts tree cutoff request = .ok {
      current := { observed with generation := texts.str (fieldOf request.identity "generation") }
      rows := Paging.sortBy (fun a b => cmp (relationKey texts a) (relationKey texts b))
        ((logSourceEventKinds observed.kind).flatMap
          (relatedRows texts tree cutoff (fieldOf request.identity "sourceId")))
      gaps := (if .str observed.generation = fieldOf request.identity "generation" then [] else [sourceChangedGap]) ++
        if logSourceEventKinds observed.kind = [] then [unavailableGap observed.kind] else [] } := by
    rw [relate_contains, hstr, hfind]
    dsimp only
    rw [hpath]
    rfl
  refine ⟨_, hrun, ?_, fun kind hgap => ?_⟩
  · rw [hasks.sourceId]
    exact Paging.perm_sortBy
  · by_contra hwanted
    dsimp only at hgap
    rw [if_neg hwanted, List.append_nil] at hgap
    split at hgap
    · cases hgap
    · have hcode : "CAPABILITY_UNAVAILABLE" = "SOURCE_CHANGED" :=
        congrArg RelationGap.code (List.mem_singleton.1 hgap)
      exact absurd hcode (by decide)

/-- The namespaces that the kind of a file does not stand for have no event of it where the kind covers them. -/
theorem kindCovers_file_iff {deadline : ℕ → Bool} {maximum : ℕ} {file : SourceFile}
    (hsha : Function.Injective texts.sha256) (hid : Function.Injective texts.log_source_id)
    (hauth : AuthBelow (tree.host texts cutoff) cutoff collectorLimit)
    (hlog : LogBelow (tree.host texts cutoff) cutoff collectorLimit) (htime : ∀ n, deadline n = false)
    (hpages : LogPages deadline maximum texts.toLogTexts (tree.host texts cutoff).sources cutoff 0 logRows)
    (hfile : file ∈ sourceFiles tree) :
    (∀ target ∈ eventNamespaces, (logSourceEventKinds (sourceKind file)).contains target = false →
        attributedTo texts tree logRows cutoff (.str (texts.log_source_id file.path)) target = []) ↔
      KindCovers texts tree cutoff (sourceRow texts tree file) := by
  have hlogEvents : attributedTo texts tree logRows cutoff (.str (texts.log_source_id file.path)) .logEvent = [] ↔
      ∀ entry, First (logRecords (tree.host texts cutoff) cutoff) entry → entry.1 ≠ file.path :=
    no_log_events hsha hid hlog htime hpages
  have hauthEvents : attributedTo texts tree logRows cutoff (.str (texts.log_source_id file.path)) .authEvent = [] ↔
      (∀ entry, First (authRecords (tree.host texts cutoff) cutoff) entry → entry.1 ≠ file.path) ∧
        ∀ database ∈ tree.logins, tree.loginSource database = file.path →
          ∀ line ∈ database.lines, line.moment < cutoff :=
    no_auth_events hsha hid path_ne_journal hauth
  constructor
  · intro h
    have hnot : ∀ kind, kind ≠ .journald → kind ≠ .auth → (logSourceEventKinds kind).contains .authEvent = false := by
      intro kind hjournal hkind
      cases kind <;> first | rfl | exact absurd rfl hjournal | exact absurd rfl hkind
    refine ⟨fun hjournal hkind => ?_, fun hkind entry hfirst => ?_⟩
    · exact (hauthEvents.1 (h .authEvent (by decide) (hnot _ hjournal hkind))).2
    · have hkind : sourceKind file = .webAccess := hkind
      rw [hkind] at h
      rcases hfirst with hfirst | hfirst
      · exact hlogEvents.1 (h .logEvent (by decide) rfl) entry hfirst
      · exact (hauthEvents.1 (h .authEvent (by decide) rfl)).1 entry hfirst
  · intro hcovers target htarget hnot
    rcases List.mem_cons.1 htarget with rfl | htarget
    · refine hlogEvents.2 fun entry hfirst hpath => ?_
      rcases kind_of_first_log hfile hfirst hpath with hkind | hkind | ⟨hkind, -⟩
      · exact hcovers.records hkind entry (Or.inl hfirst) hpath
      · rw [hkind] at hnot
        cases hnot
      · rw [hkind] at hnot
        cases hnot
    rcases List.mem_cons.1 htarget with rfl | htarget
    · refine hauthEvents.2 ⟨fun entry hfirst hpath => ?_, hcovers.logins ?_ ?_⟩
      · rcases kind_of_first_auth hfile hfirst hpath with hkind | hkind
        · exact hcovers.records hkind entry (Or.inr hfirst) hpath
        · rw [hkind] at hnot
          cases hnot
      · exact sourceKind_ne_journald file
      · intro hkind
        have hkind : sourceKind file = .auth := hkind
        rw [hkind] at hnot
        cases hnot
    · obtain rfl := List.mem_singleton.1 htarget
      refine no_exec_events hid path_ne_journal fun hfrom => ?_
      rw [kind_of_audit hfile (matches_of_fromLog hfile hfrom)] at hnot
      cases hnot

/-- Without logs, only logins are attributed to a file. -/
theorem kindCovers_unlogged {file : SourceFile} (h : file ∈ sourceFiles tree)
    (hmatch : matchesAny logPatterns file.name = false) :
    KindCovers texts tree cutoff (sourceRow texts tree file) ↔
      ∀ database ∈ tree.logins, tree.loginSource database = file.path →
        ∀ line ∈ database.lines, line.moment < cutoff := by
  refine ⟨fun hcovers => hcovers.logins (sourceKind_ne_journald file) (kind_ne_auth h hmatch),
    fun hlogins => ⟨fun _ _ => hlogins, fun _ entry hfirst hpath => ?_⟩⟩
  have hpath : entry.1 = file.path := hpath
  have hlog : FromLog tree.directory logPatterns file.path := by
    have hjournal : entry.1 ≠ journalSource := fun heq => path_ne_journal (hpath.symm.trans heq)
    rcases hfirst with ⟨before, after, hsplit, -⟩ | ⟨before, after, hsplit, -⟩
    · have hmem : entry ∈ logRecords (tree.host texts cutoff) cutoff :=
        hsplit ▸ List.mem_append_right _ List.mem_cons_self
      exact hpath ▸ (source_of_log hmem).resolve_left hjournal
    · have hmem : entry ∈ authRecords (tree.host texts cutoff) cutoff :=
        hsplit ▸ List.mem_append_right _ List.mem_cons_self
      obtain ⟨name, hplain, hname, hsource⟩ := (source_of_auth hmem).resolve_left hjournal
      exact hpath ▸ ⟨name, hplain, log_of_auth hname, hsource⟩
  rw [matches_of_fromLog h hlog] at hmatch
  cases hmatch

/-- Sources of one id are covered alike. -/
theorem kindCovers_congr (hid : Function.Injective texts.log_source_id) {source observed : SourceRow}
    (hsource : source ∈ v2_log_source_rows texts tree) (hobserved : observed ∈ v2_log_source_rows texts tree)
    (heq : observed.sourceId = source.sourceId) : observed.path = source.path ∧
      (KindCovers texts tree cutoff observed ↔ KindCovers texts tree cutoff source) := by
  rcases mem_rows hsource with ⟨store, hstore, rfl⟩ | ⟨file, hfile, rfl⟩
  · rcases mem_rows hobserved with ⟨store', hstore', rfl⟩ | ⟨file, -, rfl⟩
    · obtain rfl : store' = store := Option.some.inj (hstore'.symm.trans hstore)
      exact ⟨rfl, Iff.rfl⟩
    · exact absurd (hid heq) path_ne_journal
  · rcases mem_rows hobserved with ⟨store, -, rfl⟩ | ⟨other, hother, rfl⟩
    · exact absurd (hid heq).symm path_ne_journal
    · have hpath : other.path = file.path := hid heq
      have hname : other.name = file.name := name_of_path (found_of_mem hother).1 (found_of_mem hfile).1 hpath
      refine ⟨hpath, ?_⟩
      by_cases hmatch : matchesAny logPatterns file.name = true
      · have hraw : other.raw = file.raw := by
          rw [raw_of_log hfile hmatch, raw_of_log hother (hname ▸ hmatch), hname]
        have hkind : sourceKind other = sourceKind file := by rw [sourceKind, sourceKind, hname, hraw]
        have hrow : sourceRow texts tree other = sourceRow texts tree file := by
          rw [sourceRow, sourceRow, hkind, hpath, hraw]
        rw [hrow]
      · have hnot := Bool.eq_false_iff.2 hmatch
        rw [kindCovers_unlogged hfile hnot, kindCovers_unlogged hother (hname ▸ hnot), hpath]

theorem wanted_journald {target : NamespaceName} (h : target ∈ eventNamespaces) :
    (logSourceEventKinds .journald).contains target = true := List.contains_iff_mem.2 h

/-- **What a log source contains.** Below the limits of the collectors, the relation of a listed log source is
    the events of the window that the enumerations attribute to it exactly where it is the journal, a log of
    authentications, or a source to which no login of the window is attributed and that is no access log
    with a record that comes first of its event. -/
theorem log_source_contains_iff (hsha : Function.Injective texts.sha256)
    (hid : Function.Injective texts.log_source_id) {deadline : ℕ → Bool} {maximum : ℕ}
    (hauth : AuthBelow (tree.host texts cutoff) cutoff collectorLimit)
    (hlog : LogBelow (tree.host texts cutoff) cutoff collectorLimit) (htime : ∀ n, deadline n = false)
    (hpages : LogPages deadline maximum texts.toLogTexts (tree.host texts cutoff).sources cutoff 0 logRows)
    {source : SourceRow} (hsource : source ∈ v2_log_source_rows texts tree) {request : ContainsRequest}
    (hasks : AsksFor request source) :
    ∃ contained, relate_contains texts tree cutoff request = .ok contained ∧
      (Complete contained (attributed texts tree logRows cutoff (.str source.sourceId)) ↔
        KindCovers texts tree cutoff source) := by
  -- the source that the relation finds is the first of its id
  obtain ⟨observed, hfind⟩ : ∃ observed, (v2_log_source_rows texts tree).find?
      (fun row => .str row.sourceId = fieldOf request.identity "sourceId") = some observed :=
    Option.isSome_iff_exists.1 (List.find?_isSome.2 ⟨source, hsource, decide_eq_true hasks.sourceId.symm⟩)
  have hobserved := List.mem_of_find?_eq_some hfind
  have hfound := List.find?_some hfind
  have heq : observed.sourceId = source.sourceId := Json.str.inj ((of_decide_eq_true hfound).trans hasks.sourceId)
  obtain ⟨hpath, hcovers⟩ : observed.path = source.path ∧
      (KindCovers texts tree cutoff observed ↔ KindCovers texts tree cutoff source) :=
    kindCovers_congr hid hsource hobserved heq
  obtain ⟨contained, hrun, hrelated⟩ : ∃ contained, relate_contains texts tree cutoff request = .ok contained ∧
      Related texts tree cutoff observed contained :=
    relate_contains_ok hfind ⟨heq ▸ hasks.sourceId, hasks.generation, hpath ▸ hasks.locator⟩
  refine ⟨contained, hrun, ?_⟩
  have hcomplete := complete_iff hrelated fun target htarget =>
    relatedRows_perm hsha hlog htime hpages (.str observed.sourceId) htarget
  rw [← hcovers, ← heq, hcomplete]
  rcases mem_rows hobserved with ⟨store, -, rfl⟩ | ⟨file, hfile, rfl⟩
  · refine ⟨fun _ => ⟨fun hkind => absurd rfl hkind, fun hkind => ?_⟩, fun _ target htarget hnot => ?_⟩
    · cases hkind
    · rw [v2_journal_source_row, wanted_journald htarget] at hnot
      cases hnot
  · exact kindCovers_file_iff hsha hid hauth hlog htime hpages hfile

/-! ### Two hosts -/

def plainTexts : EventTexts where
  toAuthTexts := plainAuthTexts
  audit_field _ _ := none
  optional_integer := id
  str
    | .str text => text
    | _ => ""

/-- A failed login in `auth.log`. -/
def authTree : LogTree where
  journal := none
  directory := "/var/log"
  auditDirectory := "/var/log/audit"
  logs := [⟨"auth.log", by decide, [failedLogin 5000000]⟩]
  audits := []
  access := []
  logins := []
  generation := id

/-- A login in `wtmp`. -/
def loginTree : LogTree where
  journal := none
  directory := "/var/log"
  auditDirectory := "/var/log/audit"
  logs := []
  audits := []
  access := []
  logins := [⟨"wtmp", by decide, none, [⟨5000000, "root", none, "root pts/0"⟩]⟩]
  generation := id

def requestFor (source : SourceRow) : ContainsRequest where
  identity := [("sourceId", .str source.sourceId), ("generation", .str source.generation)]
  locator := [("path", .str source.path)]

theorem asksFor_requestFor (source : SourceRow) : AsksFor (requestFor source) source := ⟨rfl, rfl, Or.inr rfl⟩

def authSource : SourceRow := ⟨"/var/log/auth.log", "/var/log/auth.log", .auth, "/var/log/auth.log"⟩
def wtmpSource : SourceRow := ⟨"/var/log/wtmp", "/var/log/wtmp", .loginDb, "/var/log/wtmp"⟩

/-- The failed login, as the log lists it. -/
def authLogRows : List Payload := [logRow plainTexts.toLogTexts "/var/log/auth.log" (failedLogin 5000000)]

/-- The relation of `auth.log` has the record, as an event of either kind. -/
theorem auth_log_contains : ∃ contained,
    relate_contains plainTexts authTree 4000000 (requestFor authSource) = .ok contained ∧
      Complete contained (attributed plainTexts authTree authLogRows 4000000 (.str authSource.sourceId)) := by
  have hauth : AuthBelow (authTree.host plainTexts 4000000) 4000000 collectorLimit :=
    ⟨by decide, by decide, by decide⟩
  have hlog : LogBelow (authTree.host plainTexts 4000000) 4000000 collectorLimit := ⟨by decide, by decide⟩
  have hpages : LogPages (fun _ => false) 10 plainTexts.toLogTexts (authTree.host plainTexts 4000000).sources
      4000000 0 authLogRows := by
    obtain ⟨inv, hpage, hwhole, hrows⟩ : ∃ inv, v2_log_event_inventory (fun _ => false) none 10
        plainTexts.toLogTexts (authTree.host plainTexts 4000000).sources 4000000 0 = .ok inv ∧
          inv.complete = true ∧ inv.rows = authLogRows := ⟨_, rfl, rfl, rfl⟩
    rw [← hrows]
    exact .last hpage hwhole
  have hsource : authSource ∈ v2_log_source_rows plainTexts authTree := List.mem_singleton.2 rfl
  obtain ⟨contained, hrun, hcomplete⟩ := log_source_contains_iff (fun _ _ h => h) (fun _ _ h => h) hauth hlog
    (fun _ => rfl) hpages hsource (asksFor_requestFor authSource)
  refine ⟨contained, hrun, hcomplete.2 ⟨fun _ hkind => absurd rfl hkind, fun hkind => ?_⟩⟩
  cases hkind

/-- The login is an event of `wtmp`, whose kind is said to have none. -/
theorem wtmp_login_missed : AuthBelow (loginTree.host plainTexts 4000000) 4000000 collectorLimit ∧
    LogBelow (loginTree.host plainTexts 4000000) 4000000 collectorLimit ∧
    LogPages (fun _ => false) 10 plainTexts.toLogTexts (loginTree.host plainTexts 4000000).sources 4000000 0 [] ∧
    wtmpSource ∈ v2_log_source_rows plainTexts loginTree ∧ AsksFor (requestFor wtmpSource) wtmpSource ∧
    ∃ contained, relate_contains plainTexts loginTree 4000000 (requestFor wtmpSource) = .ok contained ∧
      unavailableGap .loginDb ∈ contained.gaps ∧
      ¬ Complete contained (attributed plainTexts loginTree [] 4000000 (.str wtmpSource.sourceId)) := by
  have hevents : (attributed plainTexts loginTree [] 4000000 (.str wtmpSource.sourceId)).length = 1 := rfl
  refine ⟨⟨by decide, by decide, by decide⟩, ⟨by decide, by decide⟩, ?_, List.mem_singleton.2 rfl,
    asksFor_requestFor wtmpSource, _, rfl, List.mem_singleton.2 rfl, fun h => ?_⟩
  rotate_left
  · rw [h.able ⟨.loginDb, List.mem_singleton.2 rfl⟩] at hevents
    cases hevents
  obtain ⟨inv, hpage, hwhole, hrows⟩ : ∃ inv, v2_log_event_inventory (fun _ => false) none 10
      plainTexts.toLogTexts (loginTree.host plainTexts 4000000).sources 4000000 0 = .ok inv ∧
        inv.complete = true ∧ inv.rows = [] := ⟨_, rfl, rfl, rfl⟩
  rw [← hrows]
  exact .last hpage hwhole

end HuntWarden.Helper.LogRelation
