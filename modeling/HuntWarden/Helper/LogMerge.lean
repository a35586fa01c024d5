import HuntWarden.Helper.Visits
import HuntWarden.Lib.Merge
import Mathlib.Data.List.Infix

/-! The collectors that merge the journal with the log files. All three keep the first record of each second,
    program and message, whatever source it comes from; the collector of authentication events reads the
    journal twice, and what it reads again adds nothing. A merge loses no event exactly where no source has
    two records of one second, program and message. -/

namespace HuntWarden.Helper

open Outcome

/-! ### The collectors -/

/-- An entry of the journal, and whether it is of an authentication facility or command. -/
structure JournalEntry where
  record : LogRecord
  facility : Bool
  command : Bool

/-- A row of a login database. -/
structure LoginEvent where
  moment : ℕ
  sourceId : String
  cursor : String
  row : Payload

/-- The logs of a host: each file by the name of its source, with its records in order. -/
structure HostLogs where
  journal : Option (List JournalEntry)
  files : List (String × List LogRecord)
  authFiles : List (String × List LogRecord)
  logins : List LoginEvent

structure AuthTexts extends LogTexts where
  auth_username : String → Option String → Option String
  /-- What stands behind `from`. -/
  source_address : String → Option String

/-- `journalctl` with `--since` in whole seconds and `--lines`. -/
def printed (entries : List JournalEntry) (p : JournalEntry → Bool) (since lines : ℕ) : List LogRecord :=
  let found := (entries.filter fun entry =>
    p entry && decide (since / 1000000 * 1000000 ≤ entry.record.timestamp)).map (·.record)
  found.drop (found.length - lines)

/-- The records of `journal_records`. -/
def journalRecords (entries : List JournalEntry) (p : JournalEntry → Bool) (since maximum : ℕ) :
    List (String × LogRecord) :=
  ((printed entries p since (max 1 (min maximum journalMaxRecords))).filter
    fun record => decide (since ≤ record.timestamp)).map (journalSource, ·)

def fileRecords (files : List (String × List LogRecord)) : List (String × LogRecord) :=
  files.flatMap fun file => file.2.map (file.1, ·)

/-- `needle in text` -/
def occursIn (needle text : String) : Bool := needle.toList <:+: text.toList

def auth_event_type (record : LogRecord) : String :=
  if occursIn "Accepted " record.message then "authentication_success"
  else if occursIn "Failed " record.message ∨ occursIn "failure" record.message.toLower then
    "authentication_failure"
  else if record.program = some "sudo" ∨ occursIn "sudo:" record.message then "privilege_use"
  else "other"

def isAuthEvent (record : LogRecord) : Bool := auth_event_type record ≠ "other"

/-- `auth_event`, for a record that is one. -/
def authRow (texts : AuthTexts) (entry : String × LogRecord) : Payload :=
  let type := auth_event_type entry.2
  let timestamp := texts.utc_iso entry.2.timestamp
  let username := texts.auth_username entry.2.message entry.2.program
  let address := texts.source_address entry.2.message
  let text : Option String → Json := fun value => value.elim .null .str
  let named : Option String → String → String := fun value otherwise =>
    (value.filter (· ≠ "")).getD otherwise
  [("timestamp", .str timestamp), ("eventType", .str type), ("username", text username),
   ("sourceAddress", text address), ("program", text entry.2.program),
   ("success", if type = "authentication_success" then .bool true
     else if type = "authentication_failure" then .bool false else .null),
   ("pid", text entry.2.pid),
   ("summary", .str (type ++ "; user=" ++ named username "unknown" ++ "; source=" ++ named address "local" ++
     "; program=" ++ named entry.2.program "unknown")),
   ("source", .str entry.1), ("sourceId", .str (texts.log_source_id entry.1)),
   ("cursor", .str (texts.log_event_cursor entry.1 timestamp entry.2.program entry.2.message))]

structure Collection where
  seen : List (ℕ × String × String)
  collected : List (String × LogRecord)
  limited : Bool

/-- `absorb`, of the records that `isEvent` takes for events. -/
def absorbRecord (texts : LogTexts) (isEvent : LogRecord → Bool) (ceiling cutoff : ℕ) (s : Collection)
    (entry : String × LogRecord) : Collection :=
  if s.limited ∨ entry.2.timestamp < cutoff then s
  else if s.seen.contains (log_record_key texts entry.2) then s
  else if isEvent entry.2 then
    { seen := log_record_key texts entry.2 :: s.seen, collected := s.collected ++ [entry]
      limited := ceiling ≤ s.collected.length + 1 }
  else { s with seen := log_record_key texts entry.2 :: s.seen }

def eventCeiling (maximum : ℕ) : ℕ := min (maximum * 2) 100000

/-- The last of the items in the order of their times. -/
def latestItems (maximum : ℕ) (collected : List (ℕ × Payload)) : List Payload :=
  let items := (Paging.sortBy (fun a b => cmp a.1 b.1) collected).map Prod.snd
  items.drop (items.length - maximum)

/-- The journal by its facilities and again by its commands, and the files. -/
def authStream (host : HostLogs) (cutoff maximum : ℕ) : List (String × LogRecord) :=
  host.journal.elim [] (fun entries => journalRecords entries (·.facility) cutoff maximum ++
    journalRecords entries (·.command) cutoff maximum) ++ fileRecords host.authFiles

def collectAuth (texts : LogTexts) (host : HostLogs) (cutoff maximum : ℕ) : Collection :=
  (authStream host cutoff maximum).foldl (absorbRecord texts isAuthEvent (eventCeiling maximum) cutoff)
    ⟨[], [], false⟩

/-- The rows of the login databases that there is room for. -/
def absorbLogins (host : HostLogs) (room : ℕ) : List LoginEvent :=
  Merge.kept (fun login => (login.sourceId, login.cursor)) [] (host.logins.take room)

def query_auth_events (texts : AuthTexts) (host : HostLogs) (cutoff maximum : ℕ) : List Payload :=
  let collected := (collectAuth texts.toLogTexts host cutoff maximum).collected
  latestItems maximum (collected.map (fun entry => (entry.2.timestamp, authRow texts entry)) ++
    (absorbLogins host (eventCeiling maximum - collected.length)).map fun login => (login.moment, login.row))

def logStream (host : HostLogs) (cutoff maximum : ℕ) : List (String × LogRecord) :=
  host.journal.elim [] (fun entries => journalRecords entries (fun _ => true) cutoff maximum) ++
    fileRecords host.files

def collectLog (texts : LogTexts) (host : HostLogs) (cutoff maximum : ℕ) : Collection :=
  (logStream host cutoff maximum).foldl (absorbRecord texts (fun _ => true) (eventCeiling maximum) cutoff)
    ⟨[], [], false⟩

def query_log_events (texts : LogTexts) (host : HostLogs) (cutoff maximum : ℕ) : List Payload :=
  latestItems maximum ((collectLog texts host cutoff maximum).collected.map fun entry =>
    (entry.2.timestamp, logRow texts entry.1 entry.2))

/-- The logs as the inventory reads them. -/
def HostLogs.sources (host : HostLogs) : LogSources where
  journalctl := host.journal.map fun entries since lines =>
    (printed entries (fun _ => true) since lines).map .record
  setLines := []
  files := host.files.map fun file => ⟨file.1, file.2.map .record⟩

/-! ### What is merged -/

/-- Two records are of one event when second, program and message are the same. -/
def eventOf (entry : String × LogRecord) : ℕ × String × String :=
  (entry.2.timestamp / 1000000, entry.2.program.getD "", entry.2.message)

/-- The records of the window. -/
def inWindow (cutoff : ℕ) (entries : List (String × LogRecord)) : List (String × LogRecord) :=
  entries.filter fun entry => decide (cutoff ≤ entry.2.timestamp)

/-- The records of authentication events, each record of the journal once. -/
def authRecords (host : HostLogs) (cutoff : ℕ) : List (String × LogRecord) :=
  (inWindow cutoff (host.journal.elim [] (fun entries =>
    (entries.filter fun entry => entry.facility || entry.command).map fun entry =>
      (journalSource, entry.record)) ++ fileRecords host.authFiles)).filter fun entry => isAuthEvent entry.2

def logRecords (host : HostLogs) (cutoff : ℕ) : List (String × LogRecord) :=
  inWindow cutoff (host.journal.elim [] (fun entries => entries.map fun entry =>
    (journalSource, entry.record)) ++ fileRecords host.files)

/-- `journalctl` prints all there is. -/
def JournalFits (host : HostLogs) (cutoff maximum : ℕ) (p : JournalEntry → Bool) : Prop :=
  ∀ entries ∈ host.journal, (entries.countP fun entry =>
    p entry && decide (cutoff / 1000000 * 1000000 ≤ entry.record.timestamp)) ≤
      max 1 (min maximum journalMaxRecords)

instance (host : HostLogs) (cutoff maximum : ℕ) (p : JournalEntry → Bool) :
    Decidable (JournalFits host cutoff maximum p) := by
  unfold JournalFits
  infer_instance

/-- The events of the records are below the ceiling, and with the others no more than the maximum. -/
def EventsFit (maximum others : ℕ) (records : List (String × LogRecord)) : Prop :=
  (Merge.kept eventOf [] records).length < eventCeiling maximum ∧
    (Merge.kept eventOf [] records).length + others ≤ maximum

instance (maximum others : ℕ) (records : List (String × LogRecord)) :
    Decidable (EventsFit maximum others records) :=
  inferInstanceAs (Decidable (_ ∧ _))

variable {texts : LogTexts} {isEvent : LogRecord → Bool} {ceiling cutoff : ℕ} {host : HostLogs}

/-! ### What a collector collects -/

def keyOf (texts : LogTexts) (entry : String × LogRecord) : ℕ × String × String :=
  log_record_key texts entry.2

/-- The digest of a message stands for the message. -/
theorem key_iff_event (hsha : Function.Injective texts.sha256) (a b : String × LogRecord) :
    keyOf texts a = keyOf texts b ↔ eventOf a = eventOf b := by
  simp only [keyOf, log_record_key, eventOf, Prod.mk.injEq, hsha.eq_iff]

theorem kept_keyOf (hsha : Function.Injective texts.sha256) (xs : List (String × LogRecord)) :
    Merge.kept (keyOf texts) [] xs = Merge.kept eventOf [] xs :=
  Merge.kept_key_congr (key_iff_event hsha) xs []

/-- Below the ceiling, the loop appends the events among the records of the window that it has not seen. -/
theorem foldl_absorb : ∀ (stream : List (String × LogRecord)) (s : Collection), s.limited = false →
    s.collected.length + ((Merge.kept (keyOf texts) s.seen (inWindow cutoff stream)).filter
        fun entry => isEvent entry.2).length < ceiling →
      (stream.foldl (absorbRecord texts isEvent ceiling cutoff) s).collected = s.collected ++
        (Merge.kept (keyOf texts) s.seen (inWindow cutoff stream)).filter fun entry => isEvent entry.2
  | [], s, _, _ => (List.append_nil _).symm
  | entry :: stream, s, hlimited, hfits => by
      rw [List.foldl_cons]
      by_cases hold : entry.2.timestamp < cutoff
      · have hwindow : inWindow cutoff (entry :: stream) = inWindow cutoff stream :=
          List.filter_cons_of_neg (by simpa using hold)
        rw [hwindow] at hfits ⊢
        rw [absorbRecord, if_pos (Or.inr hold)]
        exact foldl_absorb stream s hlimited hfits
      have hwindow : inWindow cutoff (entry :: stream) = entry :: inWindow cutoff stream :=
        List.filter_cons_of_pos (by simpa using hold)
      have hopen : ¬ (s.limited = true ∨ entry.2.timestamp < cutoff) := by
        rw [hlimited]
        simpa using hold
      rw [hwindow, Merge.kept] at hfits ⊢
      rw [absorbRecord, if_neg hopen]
      by_cases hseen : keyOf texts entry ∈ s.seen
      · have hkey : s.seen.contains (log_record_key texts entry.2) = true := List.contains_iff_mem.2 hseen
        rw [if_pos hseen] at hfits ⊢
        rw [if_pos hkey]
        exact foldl_absorb stream s hlimited hfits
      have hkey : ¬ s.seen.contains (log_record_key texts entry.2) = true :=
        fun hin => hseen (List.contains_iff_mem.1 hin)
      rw [if_neg hseen] at hfits ⊢
      rw [if_neg hkey]
      by_cases hevent : isEvent entry.2 = true
      · rw [List.filter_cons, if_pos hevent] at hfits ⊢
        rw [if_pos hevent]
        rw [List.length_cons] at hfits
        have hroom : ¬ ceiling ≤ s.collected.length + 1 := by omega
        have hrest : (s.collected ++ [entry]).length + ((Merge.kept (keyOf texts) (keyOf texts entry :: s.seen)
            (inWindow cutoff stream)).filter fun entry => isEvent entry.2).length < ceiling := by
          rw [List.length_append, List.length_singleton]
          omega
        have hnext := foldl_absorb stream ⟨keyOf texts entry :: s.seen, s.collected ++ [entry],
          decide (ceiling ≤ s.collected.length + 1)⟩ (decide_eq_false hroom) hrest
        rw [List.append_assoc, List.singleton_append] at hnext
        exact hnext
      · rw [List.filter_cons, if_neg hevent] at hfits ⊢
        rw [if_neg hevent]
        exact foldl_absorb stream _ hlimited hfits

theorem program_sudo (program : Option String) : program = some "sudo" ↔ program.getD "" = "sudo" := by
  cases program <;> simp

/-- What is an event is told from program and message. -/
theorem isAuthEvent_congr {a b : String × LogRecord} (h : eventOf a = eventOf b) :
    isAuthEvent a.2 = isAuthEvent b.2 := by
  have hprogram : a.2.program.getD "" = b.2.program.getD "" := congrArg (fun event => event.2.1) h
  have hmessage : a.2.message = b.2.message := congrArg (fun event => event.2.2) h
  simp only [isAuthEvent, auth_event_type, program_sudo, hmessage, hprogram]

theorem inWindow_append (xs ys : List (String × LogRecord)) :
    inWindow cutoff (xs ++ ys) = inWindow cutoff xs ++ inWindow cutoff ys := List.filter_append ..

/-- The entries of the window. -/
def windowEntries (cutoff : ℕ) (entries : List JournalEntry) : List JournalEntry :=
  entries.filter fun entry => decide (cutoff ≤ entry.record.timestamp)

/-- Where all is printed, the records are those of the window. -/
theorem journalRecords_eq {entries : List JournalEntry} {p : JournalEntry → Bool} {maximum : ℕ}
    (hfits : (entries.countP fun entry =>
      p entry && decide (cutoff / 1000000 * 1000000 ≤ entry.record.timestamp)) ≤
        max 1 (min maximum journalMaxRecords)) :
    journalRecords entries p cutoff maximum =
      ((windowEntries cutoff entries).filter p).map fun entry => (journalSource, entry.record) := by
  have hsecond : cutoff / 1000000 * 1000000 ≤ cutoff := Nat.div_mul_le_self ..
  rw [journalRecords, printed]
  rw [List.length_map, ← List.countP_eq_length_filter, Nat.sub_eq_zero_of_le hfits, List.drop_zero,
    List.filter_map, List.map_map, List.filter_filter, windowEntries, List.filter_filter]
  refine congrArg (List.map _) (List.filter_congr fun entry _ => ?_)
  by_cases hwindow : cutoff ≤ entry.record.timestamp
  · simp [hwindow, hsecond.trans hwindow]
  · simp [hwindow]

theorem inWindow_journal (entries : List JournalEntry) :
    inWindow cutoff (entries.map fun entry => (journalSource, entry.record)) =
      (windowEntries cutoff entries).map fun entry => (journalSource, entry.record) := by
  rw [inWindow, List.filter_map]
  rfl

theorem inWindow_found (entries : List JournalEntry) (p : JournalEntry → Bool) :
    inWindow cutoff (((windowEntries cutoff entries).filter p).map fun entry => (journalSource, entry.record)) =
      ((windowEntries cutoff entries).filter p).map fun entry => (journalSource, entry.record) := by
  refine List.filter_eq_self.2 fun entry hentry => ?_
  obtain ⟨found, hfound, rfl⟩ := List.mem_map.1 hentry
  exact (List.mem_filter.1 (List.mem_filter.1 hfound).1).2

/-- A record of the journal or of a file, and whether the journal finds it as an authentication event. -/
def decorate (files : List (String × LogRecord)) : List (String × JournalEntry) :=
  files.map fun entry => (entry.1, ⟨entry.2, false, false⟩)

def undecorated (entry : String × JournalEntry) : String × LogRecord := (entry.1, entry.2.record)

theorem map_decorate (files : List (String × LogRecord)) : (decorate files).map undecorated = files := by
  rw [decorate, List.map_map]
  exact List.map_id files

/-- The events of authentication among the records of the window. -/
def authEvents (cutoff : ℕ) (entries : List (String × LogRecord)) : List (String × LogRecord) :=
  (inWindow cutoff entries).filter fun entry => isAuthEvent entry.2

theorem authEvents_append (xs ys : List (String × LogRecord)) :
    authEvents cutoff (xs ++ ys) = authEvents cutoff xs ++ authEvents cutoff ys := by
  rw [authEvents, inWindow_append, List.filter_append]
  rfl

/-- The records that the journal finds as events of authentication. -/
def journalAuthRecords (host : HostLogs) : List (String × LogRecord) :=
  host.journal.elim [] fun entries =>
    (entries.filter fun entry => entry.facility || entry.command).map fun entry => (journalSource, entry.record)

theorem authRecords_eq : authRecords host cutoff =
    authEvents cutoff (journalAuthRecords host) ++ authEvents cutoff (fileRecords host.authFiles) :=
  authEvents_append _ _

/-- What is collected is the merge of the events of the journal, however they are found, and of the files. -/
theorem collectAuth_split (hsha : Function.Injective texts.sha256) {maximum : ℕ}
    (hfacility : JournalFits host cutoff maximum (·.facility))
    (hcommand : JournalFits host cutoff maximum (·.command))
    (hevents : EventsFit maximum host.logins.length (authRecords host cutoff)) :
    ∃ found, found.Perm (authEvents cutoff (journalAuthRecords host)) ∧
      (collectAuth texts host cutoff maximum).collected =
        Merge.kept eventOf [] (found ++ authEvents cutoff (fileRecords host.authFiles)) := by
  have hkey : ∀ a b : String × LogRecord, keyOf texts a = keyOf texts b → isAuthEvent a.2 = isAuthEvent b.2 :=
    fun a b h => isAuthEvent_congr ((key_iff_event hsha a b).1 h)
  -- the stream merges to the same as records of the journal in some order, with those of the files
  obtain ⟨found, hperm, hmerge⟩ : ∃ found, found.Perm (authEvents cutoff (journalAuthRecords host)) ∧
      (Merge.kept (keyOf texts) [] (inWindow cutoff (authStream host cutoff maximum))).filter
        (fun entry => isAuthEvent entry.2) =
          Merge.kept eventOf [] (found ++ authEvents cutoff (fileRecords host.authFiles)) := by
    rw [journalAuthRecords, authStream]
    cases hjournal : host.journal with
    | none =>
      refine ⟨_, List.Perm.refl _, ?_⟩
      rw [Merge.filter_kept hkey, kept_keyOf hsha]
      rfl
    | some entries =>
      let found := (windowEntries cutoff entries).map fun entry => (journalSource, entry)
      let files := decorate (inWindow cutoff (fileRecords host.authFiles))
      have hread : ∀ p : JournalEntry → Bool, ((windowEntries cutoff entries).filter p).map
          (fun entry => (journalSource, entry.record)) = (found.filter fun entry => p entry.2).map undecorated :=
        fun p => by
          rw [List.filter_map, List.map_map]
          rfl
      refine ⟨(((found.filter (·.2.facility)) ++ (found.filter (·.2.command)).filter (fun entry =>
        !entry.2.facility)).map undecorated).filter fun entry => isAuthEvent entry.2, ?_, ?_⟩
      · refine List.Perm.filter _ ?_
        have hboth : (found.filter fun entry => entry.2.facility || entry.2.command).map undecorated =
            inWindow cutoff ((entries.filter fun entry => entry.facility || entry.command).map fun entry =>
              (journalSource, entry.record)) := by
          rw [← hread fun entry => entry.facility || entry.command, inWindow_journal, windowEntries,
            windowEntries, List.filter_comm]
        rw [Option.elim_some, ← hboth]
        exact (Merge.filter_or_perm _ _ found).map undecorated
      · rw [authEvents, ← List.filter_append, ← map_decorate (inWindow cutoff (fileRecords host.authFiles)),
          ← List.map_append, Option.elim_some, journalRecords_eq (hfacility entries hjournal),
          journalRecords_eq (hcommand entries hjournal), inWindow_append, inWindow_append,
          inWindow_found, inWindow_found, hread, hread, ← map_decorate (inWindow cutoff (fileRecords host.authFiles)),
          ← List.map_append, ← List.map_append, Merge.kept_map, Merge.kept_reread, ← Merge.kept_map,
          Merge.filter_kept hkey, kept_keyOf hsha, map_decorate]
  refine ⟨found, hperm, ?_⟩
  have hitems : (found ++ authEvents cutoff (fileRecords host.authFiles)).Perm (authRecords host cutoff) := by
    rw [authRecords_eq]
    exact hperm.append_right _
  have hlength : (Merge.kept eventOf [] (found ++ authEvents cutoff (fileRecords host.authFiles))).length =
      (Merge.kept eventOf [] (authRecords host cutoff)).length :=
    Merge.length_kept_congr fun k => (hitems.map eventOf).mem_iff
  rw [collectAuth, foldl_absorb _ _ rfl, hmerge, List.nil_append]
  dsimp only
  rw [hmerge, List.length_nil, Nat.zero_add, hlength]
  exact hevents.1

/-- What is collected is the merge of the events in some order. -/
theorem collectAuth_eq (hsha : Function.Injective texts.sha256) {maximum : ℕ}
    (hfacility : JournalFits host cutoff maximum (·.facility))
    (hcommand : JournalFits host cutoff maximum (·.command))
    (hevents : EventsFit maximum host.logins.length (authRecords host cutoff)) :
    ∃ items, items.Perm (authRecords host cutoff) ∧
      (collectAuth texts host cutoff maximum).collected = Merge.kept eventOf [] items := by
  obtain ⟨found, hperm, hcollected⟩ := collectAuth_split hsha hfacility hcommand hevents
  rw [authRecords_eq]
  exact ⟨_, hperm.append_right _, hcollected⟩

theorem collectLog_eq (hsha : Function.Injective texts.sha256) {maximum : ℕ}
    (hfits : JournalFits host cutoff maximum fun _ => true)
    (hevents : EventsFit maximum 0 (logRecords host cutoff)) :
    (collectLog texts host cutoff maximum).collected = Merge.kept eventOf [] (logRecords host cutoff) := by
  have hstream : inWindow cutoff (logStream host cutoff maximum) = logRecords host cutoff := by
    rw [logStream, logRecords, inWindow_append, inWindow_append]
    cases hjournal : host.journal with
    | none => rfl
    | some entries =>
      rw [Option.elim_some, Option.elim_some, journalRecords_eq (hfits entries hjournal), inWindow_found,
        List.filter_true, inWindow_journal]
  have hmerge : (Merge.kept (keyOf texts) [] (inWindow cutoff (logStream host cutoff maximum))).filter
      (fun _ => true) = Merge.kept eventOf [] (logRecords host cutoff) := by
    rw [List.filter_true, hstream, kept_keyOf hsha]
  rw [collectLog, foldl_absorb _ _ rfl, hmerge, List.nil_append]
  dsimp only
  rw [hmerge, List.length_nil, Nat.zero_add]
  exact hevents.1

/-! ### The inventory -/

def LogEvent.record? : LogEvent → Option (String × LogRecord)
  | .line source (.record record) => some (source, record)
  | _ => none

/-- The records of a window are those that the merge keeps. -/
theorem distinctRecords_eq : ∀ (events : List LogEvent) (seen : List (ℕ × String × String)),
    distinctRecords texts cutoff seen events =
      Merge.kept (keyOf texts) seen (inWindow cutoff (events.filterMap LogEvent.record?))
  | [], _ => rfl
  | .file :: events, seen => by
      rw [distinctRecords, distinctRecords_eq events seen]
      · rfl
      · rintro _ _ ⟨⟩
  | .line source line :: events, seen => by
      cases line with
      | record record =>
        have hcons : (LogEvent.line source (.record record) :: events).filterMap LogEvent.record? =
            (source, record) :: events.filterMap LogEvent.record? := rfl
        rw [distinctRecords, hcons]
        by_cases hold : record.timestamp < cutoff
        · have hwindow : inWindow cutoff ((source, record) :: events.filterMap LogEvent.record?) =
              inWindow cutoff (events.filterMap LogEvent.record?) := List.filter_cons_of_neg (by simpa using hold)
          rw [if_pos (Or.inl hold), hwindow, distinctRecords_eq events seen]
        · have hwindow : inWindow cutoff ((source, record) :: events.filterMap LogEvent.record?) =
              (source, record) :: inWindow cutoff (events.filterMap LogEvent.record?) :=
            List.filter_cons_of_pos (by simpa using hold)
          rw [hwindow, Merge.kept]
          by_cases hseen : log_record_key texts record ∈ seen
          · have hkey : keyOf texts (source, record) ∈ seen := hseen
            rw [if_pos (Or.inr hseen), if_pos hkey, distinctRecords_eq events seen]
          · have hkey : keyOf texts (source, record) ∉ seen := hseen
            rw [if_neg (not_or.2 ⟨hold, hseen⟩), if_neg hkey, distinctRecords_eq events]
            rfl
      | _ => exact distinctRecords_eq events seen

theorem filterMap_records (source : String) (records : List LogRecord) :
    (records.map fun record => LogEvent.line source (.record record)).filterMap LogEvent.record? =
      records.map (source, ·) := by
  rw [List.filterMap_map]
  exact congrFun List.filterMap_eq_map records

theorem filterMap_files : ∀ files : List (String × List LogRecord),
    ((files.map fun file => LogFile.mk file.1 (file.2.map .record)).flatMap fun file =>
      LogEvent.file :: file.lines.map (.line file.source)).filterMap LogEvent.record? = fileRecords files
  | [] => rfl
  | file :: files => by
      rw [List.map_cons, List.flatMap_cons, List.filterMap_append, filterMap_files files, fileRecords, fileRecords,
        List.flatMap_cons]
      refine congrArg (· ++ _) ?_
      rw [List.filterMap_cons_none rfl, List.map_map]
      exact filterMap_records file.1 file.2

/-- What the inventory reads of the journal, where it prints all there is. -/
theorem filterMap_journal {entries : List JournalEntry}
    (hfits : (entries.countP fun entry =>
      true && decide (cutoff / 1000000 * 1000000 ≤ entry.record.timestamp)) ≤
        max 1 (min journalMaxRecords journalMaxRecords)) :
    ((journal_records (fun since lines => (printed entries (fun _ => true) since lines).map .record) cutoff).map
        (LogEvent.line journalSource)).filterMap LogEvent.record? =
      inWindow cutoff (entries.map fun entry => (journalSource, entry.record)) := by
  have hrecords := journalRecords_eq hfits
  rw [List.filter_true, ← inWindow_journal] at hrecords
  rw [← hrecords, journalRecords]
  have hmax : max 1 (min journalMaxRecords journalMaxRecords) = journalMaxRecords := by decide
  have hnone : ∀ records : List LogRecord, (records.map LogLine.record).filter (fun line => !line.isRecord) = [] :=
    fun records => List.filter_eq_nil_iff.2 fun line hline => by
      obtain ⟨record, -, rfl⟩ := List.mem_map.1 hline
      exact Bool.noConfusion
  rw [hmax, journal_records, hnone, List.nil_append, List.map_append, List.filterMap_append, List.filter_map,
    List.map_map]
  have hnote : ∀ message : String, (LogEvent.line journalSource (.noted message)).record? = none := fun _ => rfl
  split
  · rw [List.map_singleton, List.filterMap_cons_none (hnote _), List.filterMap_nil, List.nil_append]
    exact filterMap_records journalSource _
  · rw [List.map_nil, List.filterMap_nil, List.nil_append]
    exact filterMap_records journalSource _

theorem windowRecords_eq (hsha : Function.Injective texts.sha256)
    (hfits : JournalFits host cutoff journalMaxRecords fun _ => true) :
    windowRecords texts host.sources cutoff = Merge.kept eventOf [] (logRecords host cutoff) := by
  have hrecords : inWindow cutoff ((logEvents host.sources cutoff).filterMap LogEvent.record?) =
      logRecords host cutoff := by
    have hset : (host.sources.setLines.map (LogEvent.line "")).filterMap LogEvent.record? = [] := rfl
    rw [logEvents, List.filterMap_append, List.filterMap_append, hset, List.append_nil, inWindow_append,
      logRecords, inWindow_append]
    refine congrArg₂ (· ++ ·) ?_ (congrArg (inWindow cutoff) (filterMap_files host.files))
    rw [HostLogs.sources]
    cases hjournal : host.journal with
    | none => rfl
    | some entries =>
      rw [Option.map_some, Option.elim_some, Option.elim_some, filterMap_journal (hfits entries hjournal),
        inWindow_journal, ← List.filter_true (windowEntries cutoff entries), inWindow_found]
  rw [windowRecords, distinctRecords_eq, hrecords, kept_keyOf hsha]

/-- Lines that are records or notes never tell that the time is up. -/
theorem unhurried_sources {deadline : ℕ → Bool} (htime : ∀ n, deadline n = false) (host : HostLogs)
    (cutoff : ℕ) : Unhurried deadline host.sources cutoff := by
  refine ⟨htime, fun event hevent => ?_⟩
  rw [logEvents, List.mem_append, List.mem_append] at hevent
  rcases hevent with (hjournal | hset) | hfiles
  · obtain ⟨line, hline, rfl⟩ := List.mem_map.1 hjournal
    cases hentries : host.journal with
    | none =>
      rw [HostLogs.sources, hentries] at hline
      cases hline
    | some entries =>
      rw [HostLogs.sources, hentries, Option.map_some, Option.elim_some, journal_records, List.mem_append,
        List.mem_append] at hline
      have hrecord : ∀ line' ∈ (printed entries (fun _ => true) cutoff journalMaxRecords).map LogLine.record,
          (LogEvent.line journalSource line').isExpired = false := fun line' hline' => by
        obtain ⟨record, -, rfl⟩ := List.mem_map.1 hline'
        rfl
      rcases hline with (hline | hline) | hline
      · exact hrecord line (List.mem_filter.1 hline).1
      · split at hline
        · obtain rfl := List.mem_singleton.1 hline
          rfl
        · cases hline
      · exact hrecord line (List.mem_filter.1 hline).1
  · cases hset
  · obtain ⟨file, hfile, hevent⟩ := List.mem_flatMap.1 hfiles
    obtain ⟨⟨source, records⟩, -, rfl⟩ := List.mem_map.1 hfile
    rcases List.mem_cons.1 hevent with rfl | hevent
    · rfl
    · rw [List.map_map] at hevent
      obtain ⟨record, -, rfl⟩ := List.mem_map.1 hevent
      rfl

theorem collect_rows (entries : List (String × LogRecord)) : Chain.collect (logLook none texts) entries =
    .ok (entries.map fun entry => logRow texts entry.1 entry.2) := by
  induction entries with
  | nil => rfl
  | cons entry entries ih => exact Chain.collect_cons.2 ⟨_, rfl, _, ih, rfl⟩

/-- A page without a predicate that is not filled has the rows of the window. -/
theorem inventory_rows {deadline : ℕ → Bool} {maximum : ℕ} (htime : ∀ n, deadline n = false)
    (hrows : (windowRecords texts host.sources cutoff).length < maximum)
    (hscan : (windowRecords texts host.sources cutoff).length < enumerateScanPageLimit) :
    ∃ inv, v2_log_event_inventory deadline none maximum texts host.sources cutoff 0 = .ok inv ∧
      inv.rows = (windowRecords texts host.sources cutoff).map fun entry => logRow texts entry.1 entry.2 := by
  have hlook : ∀ entry ∈ windowRecords texts host.sources cutoff, ∃ first,
      logLook none texts entry = .ok first := fun entry _ => ⟨_, rfl⟩
  obtain ⟨inv, hinv⟩ := @v2_log_event_inventory_total deadline none maximum texts host.sources cutoff 0 hlook
  obtain ⟨hswept, -, -, hfull⟩ :=
    v2_log_event_inventory_spec hinv (Or.inl (unhurried_sources htime host cutoff))
  rw [List.drop_zero] at hswept
  have hfound := hswept.found
  rw [collect_rows] at hfound
  have hinvRows := Except.ok.inj hfound
  have hcomplete : inv.complete = true := by
    by_contra hnot
    have hle := hswept.le
    have hlength := congrArg List.length hinvRows
    rw [List.length_map, List.length_take] at hlength
    rcases hfull (Bool.eq_false_iff.2 hnot) with h | h <;> omega
  refine ⟨inv, hinv, ?_⟩
  rw [← hinvRows, hswept.whole hcomplete, List.take_length]

/-! ### When nothing is lost -/

/-- The rows of the login databases, where there is room for them. -/
def loginRows (texts : LogTexts) (host : HostLogs) (cutoff maximum : ℕ) : List Payload :=
  (absorbLogins host (eventCeiling maximum - (collectAuth texts host cutoff maximum).collected.length)).map (·.row)

/-- The collector of authentication events gives the rows of what it has merged, and has merged it right. -/
structure AuthMerges (texts : AuthTexts) (host : HostLogs) (cutoff maximum : ℕ) : Prop where
  reported : (query_auth_events texts host cutoff maximum).Perm
    ((collectAuth texts.toLogTexts host cutoff maximum).collected.map (authRow texts) ++
      loginRows texts.toLogTexts host cutoff maximum)
  faithful : Merge.Faithful eventOf Prod.fst (authRecords host cutoff)
    (collectAuth texts.toLogTexts host cutoff maximum).collected

structure LogMerges (texts : LogTexts) (host : HostLogs) (cutoff maximum : ℕ) : Prop where
  reported : (query_log_events texts host cutoff maximum).Perm
    ((collectLog texts host cutoff maximum).collected.map fun entry => logRow texts entry.1 entry.2)
  faithful : Merge.Faithful eventOf Prod.fst (logRecords host cutoff)
    (collectLog texts host cutoff maximum).collected

structure PageMerges (deadline : ℕ → Bool) (texts : LogTexts) (host : HostLogs) (cutoff maximum : ℕ) : Prop where
  reported : ∃ inv, v2_log_event_inventory deadline none maximum texts host.sources cutoff 0 = .ok inv ∧
    inv.rows = (windowRecords texts host.sources cutoff).map fun entry => logRow texts entry.1 entry.2
  faithful : Merge.Faithful eventOf Prod.fst (logRecords host cutoff) (windowRecords texts host.sources cutoff)

/-- Below its ceilings: the journal is printed whole and the events are not too many. -/
structure AuthBelow (host : HostLogs) (cutoff maximum : ℕ) : Prop where
  facility : JournalFits host cutoff maximum (·.facility)
  command : JournalFits host cutoff maximum (·.command)
  events : EventsFit maximum host.logins.length (authRecords host cutoff)

structure LogBelow (host : HostLogs) (cutoff maximum : ℕ) : Prop where
  journal : JournalFits host cutoff maximum fun _ => true
  events : EventsFit maximum 0 (logRecords host cutoff)

structure PageBelow (deadline : ℕ → Bool) (host : HostLogs) (cutoff maximum : ℕ) : Prop where
  time : ∀ n, deadline n = false
  journal : JournalFits host cutoff journalMaxRecords fun _ => true
  events : (Merge.kept eventOf [] (logRecords host cutoff)).length < min maximum enumerateScanPageLimit

theorem latestItems_perm (maximum : ℕ) (collected : List (ℕ × Payload)) (h : collected.length ≤ maximum) :
    (latestItems maximum collected).Perm (collected.map Prod.snd) := by
  rw [latestItems, List.length_map, Paging.length_sortBy, Nat.sub_eq_zero_of_le h, List.drop_zero]
  exact Paging.perm_sortBy.map Prod.snd

theorem length_collectAuth (hsha : Function.Injective texts.sha256) {maximum : ℕ}
    (hbelow : AuthBelow host cutoff maximum) : (collectAuth texts host cutoff maximum).collected.length =
      (Merge.kept eventOf [] (authRecords host cutoff)).length := by
  obtain ⟨items, hperm, hcollected⟩ := collectAuth_eq hsha hbelow.facility hbelow.command hbelow.events
  rw [hcollected]
  exact Merge.length_kept_congr fun k => (hperm.map eventOf).mem_iff

/-- The events that the collector gives are those that it has merged and the logins. -/
theorem query_auth_events_perm {texts : AuthTexts} {maximum : ℕ} (hsha : Function.Injective texts.sha256)
    (hbelow : AuthBelow host cutoff maximum) : (query_auth_events texts host cutoff maximum).Perm
      ((collectAuth texts.toLogTexts host cutoff maximum).collected.map (authRow texts) ++
        loginRows texts.toLogTexts host cutoff maximum) := by
  have hlength := length_collectAuth hsha hbelow
  have hlogins : (absorbLogins host
      (eventCeiling maximum - (collectAuth texts.toLogTexts host cutoff maximum).collected.length)).length ≤
        host.logins.length := by
    rw [absorbLogins]
    have hkept := (Merge.kept_perm (fun login : LoginEvent => (login.sourceId, login.cursor)) (host.logins.take
      (eventCeiling maximum - (collectAuth texts.toLogTexts host cutoff maximum).collected.length)) []).length_eq
    rw [List.length_append, List.length_take] at hkept
    omega
  have hevents := hbelow.events.2
  have hitems := latestItems_perm maximum
    ((collectAuth texts.toLogTexts host cutoff maximum).collected.map (fun entry =>
      (entry.2.timestamp, authRow texts entry)) ++ (absorbLogins host (eventCeiling maximum -
        (collectAuth texts.toLogTexts host cutoff maximum).collected.length)).map fun login =>
          (login.moment, login.row))
    (by rw [List.length_append, List.length_map, List.length_map]; omega)
  rw [List.map_append, List.map_map, List.map_map] at hitems
  exact hitems

theorem authMerges_iff {texts : AuthTexts} {maximum : ℕ} (hsha : Function.Injective texts.sha256)
    (hbelow : AuthBelow host cutoff maximum) :
    AuthMerges texts host cutoff maximum ↔ Merge.Unrepeated eventOf Prod.fst (authRecords host cutoff) := by
  obtain ⟨items, hperm, hcollected⟩ := collectAuth_eq hsha hbelow.facility hbelow.command hbelow.events
  have hmerge : Merge.Faithful eventOf Prod.fst (authRecords host cutoff)
      (collectAuth texts.toLogTexts host cutoff maximum).collected ↔
        Merge.Unrepeated eventOf Prod.fst (authRecords host cutoff) := by
    rw [hcollected]
    exact Merge.faithful_perm_iff hperm
  exact ⟨fun h => hmerge.1 h.faithful, fun h => ⟨query_auth_events_perm hsha hbelow, hmerge.2 h⟩⟩

theorem query_log_events_perm {maximum : ℕ} (hsha : Function.Injective texts.sha256)
    (hbelow : LogBelow host cutoff maximum) : (query_log_events texts host cutoff maximum).Perm
      ((collectLog texts host cutoff maximum).collected.map fun entry => logRow texts entry.1 entry.2) := by
  have hcollected := collectLog_eq hsha hbelow.journal hbelow.events
  have hevents := hbelow.events.2
  have hitems := latestItems_perm maximum
    ((collectLog texts host cutoff maximum).collected.map fun entry =>
      (entry.2.timestamp, logRow texts entry.1 entry.2)) (by rw [List.length_map, hcollected]; exact hevents)
  rw [List.map_map] at hitems
  exact hitems

theorem logMerges_iff {maximum : ℕ} (hsha : Function.Injective texts.sha256)
    (hbelow : LogBelow host cutoff maximum) :
    LogMerges texts host cutoff maximum ↔ Merge.Unrepeated eventOf Prod.fst (logRecords host cutoff) := by
  have hcollected := collectLog_eq hsha hbelow.journal hbelow.events
  have hmerge : Merge.Faithful eventOf Prod.fst (logRecords host cutoff)
      (collectLog texts host cutoff maximum).collected ↔
        Merge.Unrepeated eventOf Prod.fst (logRecords host cutoff) := by
    rw [hcollected]
    exact Merge.faithful_kept_iff _
  exact ⟨fun h => hmerge.1 h.faithful, fun h => ⟨query_log_events_perm hsha hbelow, hmerge.2 h⟩⟩

theorem pageMerges_iff {deadline : ℕ → Bool} {maximum : ℕ} (hsha : Function.Injective texts.sha256)
    (hbelow : PageBelow deadline host cutoff maximum) : PageMerges deadline texts host cutoff maximum ↔
      Merge.Unrepeated eventOf Prod.fst (logRecords host cutoff) := by
  have hwindow := windowRecords_eq hsha hbelow.journal
  have hmerge : Merge.Faithful eventOf Prod.fst (logRecords host cutoff) (windowRecords texts host.sources cutoff) ↔
      Merge.Unrepeated eventOf Prod.fst (logRecords host cutoff) := by
    rw [hwindow]
    exact Merge.faithful_kept_iff _
  have hevents := lt_min_iff.1 hbelow.events
  rw [← hwindow] at hevents
  exact ⟨fun h => hmerge.1 h.faithful, fun h =>
    ⟨inventory_rows hbelow.time hevents.1 hevents.2, hmerge.2 h⟩⟩

/-- Below the ceilings, each collector merges right exactly where no source has two records of one second,
    program and message. -/
theorem collectors_merge_iff (texts : AuthTexts) (hsha : Function.Injective texts.sha256) (host : HostLogs)
    (deadline : ℕ → Bool) (cutoff maximum limit : ℕ) (hauth : AuthBelow host cutoff maximum)
    (hlog : LogBelow host cutoff maximum) (hpage : PageBelow deadline host cutoff limit) :
    (AuthMerges texts host cutoff maximum ↔ Merge.Unrepeated eventOf Prod.fst (authRecords host cutoff)) ∧
    (LogMerges texts.toLogTexts host cutoff maximum ↔
      Merge.Unrepeated eventOf Prod.fst (logRecords host cutoff)) ∧
    (PageMerges deadline texts.toLogTexts host cutoff limit ↔
      Merge.Unrepeated eventOf Prod.fst (logRecords host cutoff)) :=
  ⟨authMerges_iff hsha hauth, logMerges_iff hsha hlog, pageMerges_iff hsha hpage⟩

/-! ### Two hosts -/

def plainAuthTexts : AuthTexts where
  utc_iso := toString
  log_source_id := id
  log_event_cursor source timestamp _ message := source ++ timestamp ++ message
  redact_secret_text message _ := message
  sha256 := id
  auth_username _ _ := none
  source_address _ := none

def failedLogin (timestamp : ℕ) : LogRecord where
  timestamp := timestamp
  program := some "sshd"
  pid := some "4711"
  auditType := none
  message := "Failed password for root from 203.0.113.9 port 40022 ssh2"

/-- A failed login that the journal and the file have. -/
def copiedHost : HostLogs where
  journal := some [⟨failedLogin 5000250, true, true⟩]
  files := [("/var/log/auth.log", [failedLogin 5000000])]
  authFiles := [("/var/log/auth.log", [failedLogin 5000000])]
  logins := []

/-- The same login failed twice in one second. -/
def repeatedHost : HostLogs where
  journal := none
  files := [("/var/log/auth.log", [failedLogin 5000000, failedLogin 5000000])]
  authFiles := [("/var/log/auth.log", [failedLogin 5000000, failedLogin 5000000])]
  logins := []

/-- Copies of one event in two sources. -/
theorem copied_merges : AuthMerges plainAuthTexts copiedHost 4000000 10 ∧
    LogMerges plainAuthTexts.toLogTexts copiedHost 4000000 10 ∧
      PageMerges (fun _ => false) plainAuthTexts.toLogTexts copiedHost 4000000 10 := by
  have hauth : AuthBelow copiedHost 4000000 10 := ⟨by decide, by decide, by decide⟩
  have hlog : LogBelow copiedHost 4000000 10 := ⟨by decide, by decide⟩
  have hpage : PageBelow (fun _ => false) copiedHost 4000000 10 := ⟨fun _ => rfl, by decide, by decide⟩
  obtain ⟨hauthMerges, hlogMerges, hpageMerges⟩ := collectors_merge_iff plainAuthTexts (fun _ _ h => h) copiedHost
    (fun _ => false) 4000000 10 10 hauth hlog hpage
  exact ⟨hauthMerges.2 (by decide), hlogMerges.2 (by decide), hpageMerges.2 (by decide)⟩

/-- Of the two failed logins, every collector keeps one. -/
theorem repeated_login_lost : ¬ AuthMerges plainAuthTexts repeatedHost 4000000 10 ∧
    ¬ LogMerges plainAuthTexts.toLogTexts repeatedHost 4000000 10 ∧
      ¬ PageMerges (fun _ => false) plainAuthTexts.toLogTexts repeatedHost 4000000 10 := by
  have hinjective : Function.Injective plainAuthTexts.sha256 := fun _ _ h => h
  have hauth : AuthBelow repeatedHost 4000000 10 := ⟨by decide, by decide, by decide⟩
  have hlog : LogBelow repeatedHost 4000000 10 := ⟨by decide, by decide⟩
  have hpage : PageBelow (fun _ => false) repeatedHost 4000000 10 := ⟨fun _ => rfl, by decide, by decide⟩
  exact ⟨fun h => absurd ((authMerges_iff hinjective hauth).1 h) (by decide),
    fun h => absurd ((logMerges_iff hinjective hlog).1 h) (by decide),
    fun h => absurd ((pageMerges_iff hinjective hpage).1 h) (by decide)⟩

end HuntWarden.Helper
