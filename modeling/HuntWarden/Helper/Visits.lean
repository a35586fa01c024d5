import HuntWarden.Helper.Inventory
import HuntWarden.Lib.Chain

/-! What a page of an inventory visits: a stretch of the entries, from the offset until the page is full
    or there are no more. One loop lemma for each inventory says how far its loop comes, and one lemma for
    each page puts it in terms of the entries (`Swept`). -/

namespace HuntWarden.Helper

open Outcome

variable {deadline : ℕ → Bool} {predicate : Option Predicate} {maximum : ℕ} {texts : LogTexts}

section

variable {ε : Type} {look : ε → Except HelperError (Option Payload)}

/-- From a count and rows to a later count and rows by looking at the first `k` entries. -/
structure Stretch (look : ε → Except HelperError (Option Payload)) (entries : List ε)
    (before after : ℕ × List Payload) (k : ℕ) : Prop where
  le : k ≤ entries.length
  count : after.1 = before.1 + k
  found : ∃ found, Chain.collect look (entries.take k) = .ok found ∧ after.2 = before.2 ++ found

theorem Stretch.nothing (entries : List ε) (before : ℕ × List Payload) :
    Stretch look entries before before 0 where
  le := Nat.zero_le _
  count := rfl
  found := ⟨[], rfl, (List.append_nil _).symm⟩

theorem Stretch.cons {e : ε} {entries : List ε} {first : Option Payload} {before after : ℕ × List Payload}
    {k : ℕ} (hlook : look e = .ok first)
    (h : Stretch look entries (before.1 + 1, before.2 ++ first.toList) after k) :
    Stretch look (e :: entries) before after (k + 1) := by
  obtain ⟨hle, hcount, found, hfound, hrows⟩ := h
  refine ⟨Nat.succ_le_succ hle, ?_, first.toList ++ found, ?_, ?_⟩
  · rw [hcount]
    exact Nat.add_right_comm ..
  · rw [List.take_succ_cons]
    exact Chain.collect_cons.2 ⟨first, hlook, found, hfound, rfl⟩
  · rw [hrows, List.append_assoc]

end

/-! ### The processes of a page -/

/-- What the page makes of a process. -/
def processLook (predicate : Option Predicate) (includeHash : Bool) (entry : ProcessEntry) :
    Except HelperError (Option Payload) :=
  match stable_process entry includeHash with
  | .error _ => .ok none
  | .ok value => wanted .process predicate (processRow value)

theorem wanted_ok {namespace_ : NamespaceName} {row : Payload} {first : Option Payload} :
    wanted namespace_ predicate row = .ok first ↔
      ∃ keep, accepts namespace_ predicate row = .ok keep ∧
        first = if keep then some row else none := by
  rw [wanted]
  cases accepts namespace_ predicate row <;> simp [Except.map, eq_comm]

/-- The loop stops before the first process, or looks at it. -/
theorem scanProcesses_cons {includeHash : Bool} {entry : ProcessEntry} {entries : List ProcessEntry}
    {s s' : ProcessScan}
    (h : scanProcesses deadline predicate maximum includeHash (entry :: entries) s = .ok s') :
    ((enumerateScanPageLimit ≤ s.scanned ∨ deadline s.scanned) ∧ s'.scanned = s.scanned ∧
      s'.rows = s.rows ∧ s'.nextPid = s.nextPid ∧ s'.complete = false) ∨
    s.scanned < enumerateScanPageLimit ∧ ∃ first s₁, processLook predicate includeHash entry = .ok first ∧
      s₁.scanned = s.scanned + 1 ∧ s₁.rows = s.rows ++ first.toList ∧ s₁.nextPid = entry.pid ∧
      (maximum ≤ s₁.rows.length ∧ s' = { s₁ with complete := false } ∨
        scanProcesses deadline predicate maximum includeHash entries s₁ = .ok s' ∧
          (s.rows.length < maximum → s₁.rows.length < maximum)) := by
  rw [scanProcesses] at h
  by_cases hfull : enumerateScanPageLimit ≤ s.scanned
  · rw [if_pos hfull] at h
    cases h
    exact Or.inl ⟨Or.inl hfull, rfl, rfl, rfl, rfl⟩
  by_cases hdeadline : deadline s.scanned = true
  · rw [if_neg hfull, if_pos hdeadline] at h
    cases h
    exact Or.inl ⟨Or.inr hdeadline, rfl, rfl, rfl, rfl⟩
  rw [if_neg hfull, if_neg hdeadline] at h
  refine Or.inr ⟨Nat.lt_of_not_le hfull, ?_⟩
  cases hstable : stable_process entry includeHash with
  | error error =>
    rw [hstable] at h
    have hlook : processLook predicate includeHash entry = .ok none := by rw [processLook, hstable]
    refine ⟨none, _, hlook, ?_, ?_, ?_, Or.inr ⟨h, ?_⟩⟩
    all_goals split <;> simp
  | ok value =>
    rw [hstable] at h
    dsimp only at h
    obtain ⟨keep, hkeep, h⟩ := bind_ok.1 h
    have hlook : processLook predicate includeHash entry =
        .ok (if keep then some (processRow value) else none) := by
      rw [processLook, hstable]
      exact wanted_ok.2 ⟨keep, hkeep, rfl⟩
    cases keep with
    | false =>
      rw [if_neg Bool.false_ne_true] at h
      exact ⟨none, { s with scanned := s.scanned + 1, nextPid := entry.pid }, hlook, rfl,
        (List.append_nil _).symm, rfl, Or.inr ⟨h, id⟩⟩
    | true =>
      rw [if_pos rfl] at h
      refine ⟨some (processRow value), { s with
        scanned := s.scanned + 1, nextPid := entry.pid, rows := s.rows ++ [processRow value],
        matched := s.matched + 1 }, hlook, rfl, rfl, rfl, ?_⟩
      by_cases hmax : maximum ≤ (s.rows ++ [processRow value]).length
      · rw [if_pos hmax] at h
        cases h
        exact Or.inl ⟨hmax, rfl⟩
      · rw [if_neg hmax] at h
        exact Or.inr ⟨h, fun _ => Nat.lt_of_not_le hmax⟩

/-- The pid of the last process visited. -/
def lastVisited (start : ℕ) (visited : List ProcessEntry) : ℕ :=
  (visited.getLast?.map ProcessEntry.pid).getD start

theorem scanProcesses_spec {includeHash : Bool} {entries : List ProcessEntry} {s s' : ProcessScan}
    (h : scanProcesses deadline predicate maximum includeHash entries s = .ok s') :
    ∃ k, Stretch (processLook predicate includeHash) entries (s.scanned, s.rows)
        (s'.scanned, s'.rows) k ∧
      s'.nextPid = lastVisited s.nextPid (entries.take k) ∧
      (s'.complete = true → k = entries.length) ∧
      (s.scanned ≤ enumerateScanPageLimit → s'.scanned ≤ enumerateScanPageLimit) ∧
      (s.rows.length < maximum → s'.rows.length ≤ maximum) ∧
      ((∀ n, deadline n = false) → k = entries.length ∨ enumerateScanPageLimit ≤ s'.scanned ∨
        maximum ≤ s'.rows.length) := by
  induction entries generalizing s with
  | nil =>
    cases h
    exact ⟨0, .nothing _ _, rfl, fun _ => rfl, id, Nat.le_of_lt, fun _ => Or.inl rfl⟩
  | cons entry entries ih =>
    obtain ⟨hstop, hscanned, hrows, hpid, hcomplete⟩ |
      ⟨hroom, first, s₁, hlook, hscanned, hrows, hpid, hcase⟩ := scanProcesses_cons h
    · rw [hscanned, hrows, hpid, hcomplete]
      refine ⟨0, .nothing _ _, rfl, fun h => (nomatch h), id, Nat.le_of_lt, fun hnever => Or.inr (Or.inl ?_)⟩
      rcases hstop with hfull | hdeadline
      · exact hfull
      · rw [hnever] at hdeadline
        cases hdeadline
    · have hlast : ∀ k, lastVisited s₁.nextPid (entries.take k) =
          lastVisited s.nextPid ((entry :: entries).take (k + 1)) := by
        intro k
        rw [List.take_succ_cons, lastVisited, lastVisited, List.getLast?_cons]
        cases (entries.take k).getLast? <;> simp [hpid]
      rcases hcase with ⟨hmax, rfl⟩ | ⟨hscan, hless⟩
      · refine ⟨0 + 1, .cons hlook ?_, hlast 0, fun h => (nomatch h), fun _ => ?_, fun hlt => ?_,
          fun _ => Or.inr (Or.inr hmax)⟩
        · rw [← hscanned, ← hrows]
          exact .nothing _ _
        · rw [hscanned]
          exact hroom
        · have hfirst : first.toList.length ≤ 1 := by cases first <;> simp
          rw [hrows, List.length_append]
          omega
      · obtain ⟨k, hstretch, hnext, hcomplete, hlimit, hmaximum, hstop⟩ := ih hscan
        refine ⟨k + 1, .cons hlook ?_, hnext.trans (hlast k), fun h => congrArg (· + 1) (hcomplete h),
          fun _ => hlimit (hscanned ▸ hroom), fun hlt => hmaximum (hless hlt), fun hnever => ?_⟩
        · rw [← hscanned, ← hrows]
          exact hstretch
        · exact (hstop hnever).imp_left (congrArg (· + 1))

theorem scanProcesses_total {includeHash : Bool} {entries : List ProcessEntry}
    (hlook : ∀ entry ∈ entries, ∃ first, processLook predicate includeHash entry = .ok first)
    (s : ProcessScan) :
    ∃ s', scanProcesses deadline predicate maximum includeHash entries s = .ok s' := by
  induction entries generalizing s with
  | nil => exact ⟨s, rfl⟩
  | cons entry entries ih =>
    rw [List.forall_mem_cons] at hlook
    obtain ⟨⟨first, hfirst⟩, hlook⟩ := hlook
    rw [scanProcesses]
    by_cases hfull : enumerateScanPageLimit ≤ s.scanned
    · exact ⟨_, if_pos hfull⟩
    by_cases hdeadline : deadline s.scanned = true
    · exact ⟨_, (if_neg hfull).trans (if_pos hdeadline)⟩
    rw [if_neg hfull, if_neg hdeadline]
    rw [processLook] at hfirst
    cases hstable : stable_process entry includeHash with
    | error error => exact ih hlook _
    | ok value =>
      rw [hstable] at hfirst
      obtain ⟨keep, hkeep, -⟩ := wanted_ok.1 hfirst
      simp only [hkeep]
      cases keep with
      | false => exact ih hlook _
      | true =>
        by_cases hmax : maximum ≤ (s.rows ++ [processRow value]).length
        · exact ⟨_, if_pos hmax⟩
        · obtain ⟨s', hs'⟩ := ih hlook _
          exact ⟨s', (if_neg hmax).trans hs'⟩

/-! ### The files of a page -/

/-- What the page makes of a file. -/
def fileLook (predicate : Option Predicate) : FileEntry → Except HelperError (Option Payload)
  | .unreadable | .special => .ok none
  | .replaced => .error (invalidArgument "file primitive only accepts regular files")
  | .regular facts => wanted .file predicate facts

/-- The files that a walk comes across. -/
def filesOf : List WalkEvent → List FileEntry
  | [] => []
  | .file entry :: events => entry :: filesOf events
  | _ :: events => filesOf events

theorem visitFile_ok {entry : FileEntry} {s s' : FileScan} (h : visitFile predicate entry s = .ok s') :
    ∃ first, fileLook predicate entry = .ok first ∧ s'.rows = s.rows ++ first.toList ∧
      s'.scanned = s.scanned ∧ s'.visited = s.visited ∧ s'.complete = s.complete := by
  cases entry with
  | unreadable =>
    cases h
    exact ⟨none, rfl, (List.append_nil _).symm, rfl, rfl, rfl⟩
  | special =>
    cases h
    exact ⟨none, rfl, (List.append_nil _).symm, rfl, rfl, rfl⟩
  | replaced => cases h
  | regular facts =>
    rw [visitFile] at h
    cases hkeep : accepts .file predicate facts with
    | error error =>
      rw [hkeep] at h
      cases h
    | ok keep =>
      rw [hkeep] at h
      cases h
      refine ⟨_, wanted_ok.2 ⟨keep, hkeep, rfl⟩, ?_⟩
      cases keep <;> simp

theorem visitFile_total {entry : FileEntry} {first : Option Payload} (s : FileScan)
    (h : fileLook predicate entry = .ok first) : ∃ s', visitFile predicate entry s = .ok s' := by
  cases entry with
  | unreadable => exact ⟨_, rfl⟩
  | special => exact ⟨_, rfl⟩
  | replaced => cases h
  | regular facts =>
    obtain ⟨keep, hkeep, -⟩ := wanted_ok.1 h
    rw [visitFile, hkeep]
    exact ⟨_, rfl⟩

/-- The file is before the offset, or the page is full, or the loop looks at the file. -/
theorem scanFiles_file {start : ℕ} {entry : FileEntry} {events : List WalkEvent} {s s' : FileScan}
    (h : scanFiles deadline predicate maximum start (.file entry :: events) s = .ok s') :
    (s.visited + 1 ≤ start ∧
      scanFiles deadline predicate maximum start events { s with visited := s.visited + 1 } = .ok s') ∨
    start < s.visited + 1 ∧
    ((enumerateScanPageLimit ≤ s.scanned ∧ s'.scanned = s.scanned ∧ s'.rows = s.rows ∧
        s'.complete = false) ∨
      s.scanned < enumerateScanPageLimit ∧ ∃ first s₁, fileLook predicate entry = .ok first ∧
        s₁.scanned = s.scanned + 1 ∧ s₁.rows = s.rows ++ first.toList ∧ s₁.visited = s.visited + 1 ∧
        s₁.complete = s.complete ∧
        (maximum ≤ s₁.rows.length ∧ s' = { s₁ with complete := false } ∨
          s₁.rows.length < maximum ∧
            scanFiles deadline predicate maximum start events s₁ = .ok s')) := by
  rw [scanFiles] at h
  dsimp only at h
  by_cases hskip : s.visited + 1 ≤ start
  · rw [if_pos hskip] at h
    exact Or.inl ⟨hskip, h⟩
  rw [if_neg hskip] at h
  refine Or.inr ⟨Nat.lt_of_not_le hskip, ?_⟩
  by_cases hfull : min walkVisitLimit enumerateScanPageLimit ≤ s.scanned
  · rw [if_pos hfull] at h
    cases h
    exact Or.inl ⟨hfull, rfl, rfl, rfl⟩
  rw [if_neg hfull] at h
  obtain ⟨s₁, hvisit, h⟩ := bind_ok.1 h
  obtain ⟨first, hlook, hrows, hscanned, hvisited, hcomplete⟩ := visitFile_ok hvisit
  refine Or.inr ⟨Nat.lt_of_not_le hfull, first, s₁, hlook, hscanned, hrows, hvisited, hcomplete, ?_⟩
  by_cases hmax : maximum ≤ s₁.rows.length
  · rw [if_pos hmax] at h
    cases h
    exact Or.inl ⟨hmax, rfl⟩
  · rw [if_neg hmax] at h
    exact Or.inr ⟨Nat.lt_of_not_le hmax, h⟩

theorem scanFiles_spec {start : ℕ} {events : List WalkEvent} {s s' : FileScan}
    (h : scanFiles deadline predicate maximum start events s = .ok s') :
    ∃ k, Stretch (fileLook predicate) ((filesOf events).drop (start - s.visited)) (s.scanned, s.rows)
        (s'.scanned, s'.rows) k ∧
      (s'.complete = true → k = ((filesOf events).drop (start - s.visited)).length) ∧
      (s.scanned ≤ enumerateScanPageLimit → s'.scanned ≤ enumerateScanPageLimit) ∧
      (s.rows.length < maximum → s'.rows.length ≤ maximum) ∧
      ((∀ n, deadline n = false) → s.complete = true → s'.complete = false →
        enumerateScanPageLimit ≤ s'.scanned ∨ maximum ≤ s'.rows.length) := by
  induction events generalizing s with
  | nil =>
    cases h
    rw [filesOf, List.drop_nil]
    exact ⟨0, .nothing _ _, fun _ => rfl, id, Nat.le_of_lt, fun _ h h' => absurd h (by rw [h']; decide)⟩
  | cons event events ih =>
    cases event with
    | directory =>
      rw [scanFiles] at h
      by_cases hdeadline : deadline s.directories = true
      · rw [if_pos hdeadline] at h
        cases h
        refine ⟨0, .nothing _ _, fun h => (nomatch h), id, Nat.le_of_lt, fun hnever => ?_⟩
        rw [hnever] at hdeadline
        cases hdeadline
      · rw [if_neg hdeadline] at h
        obtain ⟨k, hk⟩ := ih h
        exact ⟨k, hk⟩
    | skipped reason =>
      rw [scanFiles] at h
      obtain ⟨k, hk⟩ := ih h
      exact ⟨k, hk⟩
    | file entry =>
      rw [filesOf]
      obtain ⟨hskip, h⟩ | ⟨hstart, ⟨hfull, hscanned, hrows, hcomplete⟩ |
        ⟨hroom, first, s₁, hlook, hscanned, hrows, hvisited, hcomplete, hcase⟩⟩ := scanFiles_file h
      · have hdrop : start - s.visited = start - (s.visited + 1) + 1 := by omega
        rw [hdrop, List.drop_succ_cons]
        exact ih h
      · rw [hscanned, hrows, hcomplete]
        exact ⟨0, .nothing _ _, fun h => (nomatch h), id, Nat.le_of_lt, fun _ _ _ => Or.inl hfull⟩
      · have hnone : start - s.visited = 0 := by omega
        rw [hnone, List.drop_zero]
        rcases hcase with ⟨hmax, rfl⟩ | ⟨hless, h⟩
        · refine ⟨0 + 1, .cons hlook ?_, fun h => (nomatch h), fun _ => ?_, fun hlt => ?_,
            fun _ _ _ => Or.inr hmax⟩
          · rw [← hscanned, ← hrows]
            exact .nothing _ _
          · rw [hscanned]
            exact hroom
          · have hfirst : first.toList.length ≤ 1 := by cases first <;> simp
            rw [hrows, List.length_append]
            omega
        · obtain ⟨k, hstretch, hwhole, hlimit, hmaximum, hstop⟩ := ih h
          have hnone₁ : start - s₁.visited = 0 := by omega
          rw [hnone₁, List.drop_zero] at hstretch hwhole
          refine ⟨k + 1, .cons hlook ?_, fun h => congrArg (· + 1) (hwhole h),
            fun _ => hlimit (hscanned ▸ hroom), fun _ => hmaximum hless, fun hnever hs => ?_⟩
          · rw [← hscanned, ← hrows]
            exact hstretch
          · exact hstop hnever (hcomplete.trans hs)

theorem scanFiles_total {start : ℕ} {events : List WalkEvent}
    (hlook : ∀ entry ∈ filesOf events, ∃ first, fileLook predicate entry = .ok first) (s : FileScan) :
    ∃ s', scanFiles deadline predicate maximum start events s = .ok s' := by
  induction events generalizing s with
  | nil => exact ⟨s, rfl⟩
  | cons event events ih =>
    cases event with
    | directory =>
      rw [scanFiles]
      split
      · exact ⟨_, rfl⟩
      · exact ih hlook _
    | skipped reason => exact ih hlook _
    | file entry =>
      rw [filesOf, List.forall_mem_cons] at hlook
      obtain ⟨⟨first, hfirst⟩, hlook⟩ := hlook
      rw [scanFiles]
      dsimp only
      split
      · exact ih hlook _
      split
      · exact ⟨_, rfl⟩
      obtain ⟨s₁, hs₁⟩ := visitFile_total { s with visited := s.visited + 1, scanned := s.scanned + 1 }
        hfirst
      by_cases hmax : maximum ≤ s₁.rows.length
      · exact ⟨_, bind_ok.2 ⟨s₁, hs₁, if_pos hmax⟩⟩
      · obtain ⟨s', hs'⟩ := ih hlook s₁
        exact ⟨s', bind_ok.2 ⟨s₁, hs₁, (if_neg hmax).trans hs'⟩⟩

/-! ### The log events of a page -/

/-- What the page makes of a record. -/
def logLook (predicate : Option Predicate) (texts : LogTexts) (entry : String × LogRecord) :
    Except HelperError (Option Payload) :=
  wanted .logEvent predicate (logRow texts entry.1 entry.2)

/-- The line that tells of the deadline. -/
def LogEvent.isExpired : LogEvent → Bool
  | .line _ .expired => true
  | _ => false

theorem absorb_ok {source : String} {record : LogRecord} {s s' : LogScan}
    (h : absorb predicate texts source record s = .ok s') :
    ∃ first, logLook predicate texts (source, record) = .ok first ∧ s'.rows = s.rows ++ first.toList ∧
      s'.scanned = s.scanned ∧ s'.seen = s.seen ∧ s'.logicalOffset = s.logicalOffset ∧
      s'.complete = s.complete ∧ s'.files = s.files ∧ s'.ledger = s.ledger := by
  rw [absorb] at h
  cases hkeep : accepts .logEvent predicate (logRow texts source record) with
  | error error =>
    rw [hkeep] at h
    cases h
  | ok keep =>
    rw [hkeep] at h
    cases h
    refine ⟨_, wanted_ok.2 ⟨keep, hkeep, rfl⟩, ?_⟩
    cases keep <;> simp

/-- A new record is before the offset, or the page is full, or the loop looks at it. -/
theorem scanLog_record {start cutoff : ℕ} {source : String} {record : LogRecord}
    {events : List LogEvent} {s s' : LogScan}
    (h : scanLog deadline predicate maximum texts start cutoff
      (.line source (.record record) :: events) s = .ok s')
    (hnew : ¬ (record.timestamp < cutoff ∨ log_record_key texts record ∈ s.seen)) :
    (s.logicalOffset < start ∧ scanLog deadline predicate maximum texts start cutoff events { s with
        seen := log_record_key texts record :: s.seen, logicalOffset := s.logicalOffset + 1 } = .ok s') ∨
    start ≤ s.logicalOffset ∧
    (((enumerateScanPageLimit ≤ s.scanned ∨ maximum ≤ s.rows.length) ∧ s'.scanned = s.scanned ∧
        s'.rows = s.rows ∧ s'.complete = false) ∨
      s.scanned < enumerateScanPageLimit ∧ s.rows.length < maximum ∧
      ∃ first s₁, logLook predicate texts (source, record) = .ok first ∧
        s₁.scanned = s.scanned + 1 ∧ s₁.rows = s.rows ++ first.toList ∧
        s₁.seen = log_record_key texts record :: s.seen ∧ s₁.logicalOffset = s.logicalOffset + 1 ∧
        s₁.complete = s.complete ∧ s₁.files = s.files ∧
        ((enumerateScanPageLimit ≤ s₁.scanned ∨ maximum ≤ s₁.rows.length) ∧
            s' = { s₁ with complete := false } ∨
          scanLog deadline predicate maximum texts start cutoff events s₁ = .ok s')) := by
  rw [scanLog, if_neg hnew] at h
  dsimp only at h
  by_cases hskip : s.logicalOffset < start
  · rw [if_pos hskip] at h
    exact Or.inl ⟨hskip, h⟩
  rw [if_neg hskip] at h
  refine Or.inr ⟨Nat.le_of_not_lt hskip, ?_⟩
  by_cases hfull : enumerateScanPageLimit ≤ s.scanned ∨ maximum ≤ s.rows.length
  · rw [if_pos hfull] at h
    cases h
    exact Or.inl ⟨hfull, rfl, rfl, rfl⟩
  rw [if_neg hfull] at h
  rw [not_or, Nat.not_le, Nat.not_le] at hfull
  obtain ⟨s₁, habsorb, h⟩ := bind_ok.1 h
  obtain ⟨first, hlook, hrows, hscanned, hseen, hoffset, hcomplete, hfiles, -⟩ := absorb_ok habsorb
  refine Or.inr ⟨hfull.1, hfull.2, first, s₁, hlook, hscanned, hrows, hseen, hoffset, hcomplete, hfiles, ?_⟩
  by_cases hmax : enumerateScanPageLimit ≤ s₁.scanned ∨ maximum ≤ s₁.rows.length
  · rw [if_pos hmax] at h
    cases h
    exact Or.inl ⟨hmax, rfl⟩
  · rw [if_neg hmax] at h
    exact Or.inr h

theorem scanLog_spec {start cutoff : ℕ} {events : List LogEvent} {s s' : LogScan}
    (h : scanLog deadline predicate maximum texts start cutoff events s = .ok s') :
    ∃ k, Stretch (logLook predicate texts)
        ((distinctRecords texts cutoff s.seen events).drop (start - s.logicalOffset))
        (s.scanned, s.rows) (s'.scanned, s'.rows) k ∧
      (s.scanned ≤ enumerateScanPageLimit → s'.scanned ≤ enumerateScanPageLimit) ∧
      (s.rows.length ≤ maximum → s'.rows.length ≤ maximum) ∧
      (s'.ledger.expired = false → s.complete = true →
        (s'.complete = true → k =
          ((distinctRecords texts cutoff s.seen events).drop (start - s.logicalOffset)).length) ∧
        (s'.complete = false → enumerateScanPageLimit ≤ s'.scanned ∨ maximum ≤ s'.rows.length)) := by
  induction events generalizing s with
  | nil =>
    cases h
    rw [distinctRecords, List.drop_nil]
    exact ⟨0, .nothing _ _, id, id, fun _ hs => ⟨fun _ => rfl, fun h => absurd hs (by rw [h]; decide)⟩⟩
  | cons event events ih =>
    cases event with
    | file =>
      rw [scanLog] at h
      by_cases hdeadline : deadline s.files = true
      · rw [if_pos hdeadline] at h
        cases h
        exact ⟨0, .nothing _ _, id, id, fun hin => (nomatch hin)⟩
      · rw [if_neg hdeadline] at h
        obtain ⟨k, hk⟩ := ih h
        exact ⟨k, hk⟩
    | line source line =>
      cases line with
      | expired =>
        rw [scanLog] at h
        cases h
        exact ⟨0, .nothing _ _, id, id, fun hin => (nomatch hin)⟩
      | unparsed | skipped reason | noted message =>
        rw [scanLog] at h
        obtain ⟨k, hk⟩ := ih h
        exact ⟨k, hk⟩
      | record record =>
        rw [distinctRecords]
        by_cases hnew : record.timestamp < cutoff ∨ log_record_key texts record ∈ s.seen
        · rw [scanLog, if_pos hnew] at h
          rw [if_pos hnew]
          exact ih h
        rw [if_neg hnew]
        obtain ⟨hskip, h⟩ | ⟨hstart, ⟨hfull, hscanned, hrows, hcomplete⟩ |
          ⟨hroom, hless, first, s₁, hlook, hscanned, hrows, hseen, hoffset, hcomplete, -, hcase⟩⟩ :=
          scanLog_record h hnew
        · have hdrop : start - s.logicalOffset = start - (s.logicalOffset + 1) + 1 := by omega
          rw [hdrop, List.drop_succ_cons]
          obtain ⟨k, hk⟩ := ih h
          exact ⟨k, hk⟩
        · rw [hscanned, hrows, hcomplete]
          exact ⟨0, .nothing _ _, id, id, fun _ _ => ⟨fun h => (nomatch h), fun _ => hfull⟩⟩
        · have hnone : start - s.logicalOffset = 0 := by omega
          rw [hnone, List.drop_zero]
          have hfirst : first.toList.length ≤ 1 := by cases first <;> simp
          have hrowsLe : s₁.rows.length ≤ maximum := by
            rw [hrows, List.length_append]
            omega
          rcases hcase with ⟨hmax, rfl⟩ | h
          · refine ⟨0 + 1, .cons hlook ?_, fun _ => ?_, fun _ => hrowsLe,
              fun _ _ => ⟨fun h => (nomatch h), fun _ => hmax⟩⟩
            · rw [← hscanned, ← hrows]
              exact .nothing _ _
            · rw [hscanned]
              exact hroom
          · obtain ⟨k, hstretch, hlimit, hmaximum, hstop⟩ := ih h
            have hnone₁ : start - s₁.logicalOffset = 0 := by omega
            rw [hnone₁, List.drop_zero, hseen] at hstretch hstop
            refine ⟨k + 1, .cons hlook ?_, fun _ => hlimit (hscanned ▸ hroom), fun _ => hmaximum hrowsLe,
              fun hin hs => ?_⟩
            · rw [← hscanned, ← hrows]
              exact hstretch
            · obtain ⟨hwhole, hfull⟩ := hstop hin (hcomplete.trans hs)
              exact ⟨fun h => congrArg (· + 1) (hwhole h), hfull⟩

theorem add_expired (ledger : SkipLedger) (reason : String) :
    (ledger.add reason).expired = ledger.expired := rfl

theorem note_expired (ledger : SkipLedger) (message : String) :
    (ledger.note message).expired = ledger.expired := by
  rw [SkipLedger.note]
  split <;> rfl

/-- Without a deadline the ledger does not expire. -/
theorem scanLog_unexpired (hnever : ∀ n, deadline n = false) {start cutoff : ℕ} {events : List LogEvent}
    (hlines : ∀ event ∈ events, event.isExpired = false) {s s' : LogScan}
    (h : scanLog deadline predicate maximum texts start cutoff events s = .ok s') :
    s'.ledger.expired = s.ledger.expired := by
  induction events generalizing s with
  | nil =>
    cases h
    rfl
  | cons event events ih =>
    rw [List.forall_mem_cons] at hlines
    obtain ⟨hline, hlines⟩ := hlines
    cases event with
    | file =>
      rw [scanLog, if_neg (by rw [hnever]; exact Bool.false_ne_true)] at h
      exact (ih hlines h).trans rfl
    | line source line =>
      cases line with
      | expired => cases hline
      | unparsed | skipped reason =>
        rw [scanLog] at h
        exact (ih hlines h).trans (add_expired ..)
      | noted message =>
        rw [scanLog] at h
        exact (ih hlines h).trans (note_expired ..)
      | record record =>
        rw [scanLog] at h
        split at h
        · exact ih hlines h
        dsimp only at h
        split at h
        · exact (ih hlines h).trans rfl
        split at h
        · cases h
          rfl
        obtain ⟨s₁, habsorb, h⟩ := bind_ok.1 h
        obtain ⟨_, -, -, -, -, -, -, -, hledger⟩ := absorb_ok habsorb
        split at h
        · cases h
          exact congrArg SkipLedger.expired hledger
        · exact (ih hlines h).trans (congrArg SkipLedger.expired hledger)

theorem scanLog_total {start cutoff : ℕ} {events : List LogEvent} {s : LogScan}
    (hlook : ∀ entry ∈ distinctRecords texts cutoff s.seen events,
      ∃ first, logLook predicate texts entry = .ok first) :
    ∃ s', scanLog deadline predicate maximum texts start cutoff events s = .ok s' := by
  induction events generalizing s with
  | nil => exact ⟨s, rfl⟩
  | cons event events ih =>
    cases event with
    | file =>
      rw [scanLog]
      split
      · exact ⟨_, rfl⟩
      · exact ih hlook
    | line source line =>
      cases line with
      | expired => exact ⟨_, rfl⟩
      | unparsed | skipped reason | noted message =>
        rw [scanLog]
        exact ih hlook
      | record record =>
        rw [distinctRecords] at hlook
        rw [scanLog]
        by_cases hnew : record.timestamp < cutoff ∨ log_record_key texts record ∈ s.seen
        · rw [if_pos hnew] at hlook ⊢
          exact ih hlook
        rw [if_neg hnew, List.forall_mem_cons] at hlook
        obtain ⟨⟨first, hfirst⟩, hlook⟩ := hlook
        rw [if_neg hnew]
        dsimp only
        split
        · exact ih hlook
        split
        · exact ⟨_, rfl⟩
        obtain ⟨keep, hkeep, -⟩ := wanted_ok.1 hfirst
        have habsorb : ∀ s : LogScan, ∃ s₁, absorb predicate texts source record s = .ok s₁ ∧
            s₁.seen = s.seen := by
          intro s
          rw [absorb, hkeep]
          exact ⟨_, rfl, by cases keep <;> rfl⟩
        obtain ⟨s₁, hs₁, hseen⟩ := habsorb { s with
          seen := log_record_key texts record :: s.seen, logicalOffset := s.logicalOffset + 1,
          scanned := s.scanned + 1 }
        by_cases hmax : enumerateScanPageLimit ≤ s₁.scanned ∨ maximum ≤ s₁.rows.length
        · exact ⟨_, bind_ok.2 ⟨s₁, hs₁, if_pos hmax⟩⟩
        · obtain ⟨s', hs'⟩ := ih (s := s₁) (by rw [hseen]; exact hlook)
          exact ⟨s', bind_ok.2 ⟨s₁, hs₁, (if_neg hmax).trans hs'⟩⟩

/-! ### The pages -/

/-- What a page that stands at the front of these entries says of them. -/
structure Swept {ε : Type} (look : ε → Except HelperError (Option Payload)) (maximum : ℕ)
    (entries : List ε) (inv : Inventory) : Prop where
  le : inv.scannedCount ≤ entries.length
  found : Chain.collect look (entries.take inv.scannedCount) = .ok inv.rows
  scanLimit : inv.scannedCount ≤ enumerateScanPageLimit
  rowLimit : inv.rows.length ≤ maximum
  whole : inv.complete = true → inv.scannedCount = entries.length

/-- The page was given up because it was full. -/
def Full (maximum : ℕ) (inv : Inventory) : Prop :=
  enumerateScanPageLimit ≤ inv.scannedCount ∨ maximum ≤ inv.rows.length

/-- A full page has visited something. -/
theorem Swept.moved {ε : Type} {look : ε → Except HelperError (Option Payload)} {entries : List ε}
    {inv : Inventory} (h : Swept look maximum entries inv) (hmax : 1 ≤ maximum)
    (hfull : Full maximum inv) : 0 < inv.scannedCount := by
  have hle := Chain.length_collect h.found
  rw [List.length_take] at hle
  rcases hfull with hscan | hrows
  · exact Nat.lt_of_lt_of_le (by decide) hscan
  · omega

theorem v2_process_inventory_spec {entries : List ProcessEntry} {start : ℕ} {includeHash : Bool}
    {upper : Option ℕ} {inv : Inventory} (hmax : 1 ≤ maximum)
    (h : v2_process_inventory deadline predicate maximum entries start includeHash upper = .ok inv) :
    let bound := upper.getD (lastPid entries start)
    let selected := processesBetween entries start bound
    Swept (processLook predicate includeHash) maximum selected inv ∧
      inv.upperBound = some bound ∧ inv.nextOffset = lastVisited start (selected.take inv.scannedCount) ∧
      ((∀ n, deadline n = false) → inv.complete = false → Full maximum inv) := by
  intro bound selected
  obtain ⟨s, hs, h⟩ := bind_ok.1 h
  rw [pure_ok] at h
  subst h
  obtain ⟨k, ⟨hle, hcount, found, hfound, hrows⟩, hnext, hcomplete, hlimit, hmaximum, hstop⟩ :=
    scanProcesses_spec hs
  obtain rfl : s.scanned = k := by simpa using hcount
  obtain rfl : s.rows = found := by simpa using hrows
  refine ⟨⟨hle, hfound, hlimit (Nat.zero_le _), hmaximum hmax, fun hc => ?_⟩, rfl, hnext,
    fun hnever hc => ?_⟩
  · dsimp only at hc ⊢
    split at hc
    · exact Eq.symm ‹_›
    · exact hcomplete hc
  · dsimp only at hc
    split at hc
    · cases hc
    · exact (hstop hnever).resolve_left fun hk => ‹¬_› hk.symm

theorem v2_process_inventory_total {entries : List ProcessEntry} {start : ℕ} {includeHash : Bool}
    {upper : Option ℕ}
    (hlook : ∀ entry ∈ processesBetween entries start (upper.getD (lastPid entries start)),
      ∃ first, processLook predicate includeHash entry = .ok first) :
    ∃ inv, v2_process_inventory deadline predicate maximum entries start includeHash upper = .ok inv :=
  bind_total (scanProcesses_total hlook _) fun _ _ => ⟨_, rfl⟩

/-- The files under the root of a scope, in the order of the walk. -/
def scopeFiles (root : Option Tree) : List FileEntry := root.elim [] fun tree => filesOf (walk 0 tree)

theorem v2_file_inventory_spec {root : Option Tree} {start : ℕ} {inv : Inventory} (hmax : 1 ≤ maximum)
    (h : v2_file_inventory deadline predicate maximum root start = .ok inv) :
    Swept (fileLook predicate) maximum ((scopeFiles root).drop start) inv ∧
      inv.upperBound = none ∧ inv.nextOffset = start + inv.scannedCount ∧
      ((∀ n, deadline n = false) → inv.complete = false → Full maximum inv) := by
  cases root with
  | none =>
    cases h
    rw [scopeFiles, Option.elim_none, List.drop_nil]
    exact ⟨⟨Nat.zero_le _, rfl, Nat.zero_le _, Nat.zero_le _, fun _ => rfl⟩, rfl, rfl,
      fun _ hc => (nomatch hc)⟩
  | some tree =>
    obtain ⟨s, hs, h⟩ := bind_ok.1 h
    rw [pure_ok] at h
    subst h
    obtain ⟨k, ⟨hle, hcount, found, hfound, hrows⟩, hwhole, hlimit, hmaximum, hstop⟩ :=
      scanFiles_spec hs
    obtain rfl : s.scanned = k := by simpa using hcount
    obtain rfl : s.rows = found := by simpa using hrows
    exact ⟨⟨hle, hfound, hlimit (Nat.zero_le _), hmaximum hmax, hwhole⟩, rfl, rfl,
      fun hnever hc => hstop hnever rfl hc⟩

theorem v2_file_inventory_total {root : Option Tree} {start : ℕ}
    (hlook : ∀ entry ∈ scopeFiles root, ∃ first, fileLook predicate entry = .ok first) :
    ∃ inv, v2_file_inventory deadline predicate maximum root start = .ok inv := by
  cases root with
  | none => exact ⟨_, rfl⟩
  | some tree => exact bind_total (scanFiles_total hlook _) fun s _ => ⟨_, rfl⟩

/-- The events of a log window, each once. -/
def windowRecords (texts : LogTexts) (sources : LogSources) (cutoff : ℕ) : List (String × LogRecord) :=
  distinctRecords texts cutoff [] (logEvents sources cutoff)

/-- The deadline does not come while the logs are read, wherever a page may stop. -/
def Unhurried (deadline : ℕ → Bool) (sources : LogSources) (cutoff : ℕ) : Prop :=
  (∀ n, deadline n = false) ∧ ∀ event ∈ logEvents sources cutoff, event.isExpired = false

theorem v2_log_event_inventory_spec {sources : LogSources} {cutoff start : ℕ} {inv : Inventory}
    (h : v2_log_event_inventory deadline predicate maximum texts sources cutoff start = .ok inv)
    (htime : Unhurried deadline sources cutoff ∨ inv.partial_ = false) :
    Swept (logLook predicate texts) maximum ((windowRecords texts sources cutoff).drop start) inv ∧
      inv.upperBound = none ∧ inv.nextOffset = start + inv.scannedCount ∧
      (inv.complete = false → Full maximum inv) := by
  obtain ⟨s, hs, h⟩ := bind_ok.1 h
  rw [pure_ok] at h
  subst h
  obtain ⟨k, ⟨hle, hcount, found, hfound, hrows⟩, hlimit, hmaximum, hstop⟩ := scanLog_spec hs
  obtain rfl : s.scanned = k := by simpa using hcount
  obtain rfl : s.rows = found := by simpa using hrows
  have hexpired : s.ledger.expired = false := by
    rcases htime with htime | hwhole
    · exact scanLog_unexpired htime.1 htime.2 hs
    · rw [Bool.or_eq_false_iff, SkipLedger.partial_, Bool.or_eq_false_iff] at hwhole
      exact hwhole.2.2
  obtain ⟨hwhole, hfull⟩ := hstop hexpired rfl
  exact ⟨⟨hle, hfound, hlimit (Nat.zero_le _), hmaximum (Nat.zero_le _), hwhole⟩, rfl, rfl, hfull⟩

theorem v2_log_event_inventory_total {sources : LogSources} {cutoff start : ℕ}
    (hlook : ∀ entry ∈ windowRecords texts sources cutoff,
      ∃ first, logLook predicate texts entry = .ok first) :
    ∃ inv, v2_log_event_inventory deadline predicate maximum texts sources cutoff start = .ok inv :=
  bind_total (scanLog_total hlook) fun _ _ => ⟨_, rfl⟩

end HuntWarden.Helper
