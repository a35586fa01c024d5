import HuntWarden.Helper.Exactness

/-! Pages of log events when the deadline may come at any time and the source may change at any time. What
    a page reads of the logs ends with the deadline (`readable`). A page that has come as far as the first
    record its cursor leaves either visits all that is left, or returns a cursor at the first record it has
    not visited; a run of such pages visits every record. -/

namespace HuntWarden.Helper.Enumerate

open Outcome

/-! ### What a page reads -/

/-- The events until the deadline, which is looked at before every file. -/
def readable (deadline : ℕ → Bool) : ℕ → List LogEvent → List LogEvent
  | _, [] => []
  | n, .file :: events => if deadline n then [] else .file :: readable deadline (n + 1) events
  | n, .line source line :: events =>
    if (LogEvent.line source line).isExpired then []
    else .line source line :: readable deadline n events

variable {deadline : ℕ → Bool} {predicate : Option Predicate} {maximum : ℕ} {log : LogTexts}

theorem readable_line {n : ℕ} {source : String} {line : LogLine} {events : List LogEvent}
    (h : (LogEvent.line source line).isExpired = false) :
    readable deadline n (.line source line :: events) = .line source line :: readable deadline n events :=
  if_neg (by rw [h]; exact Bool.false_ne_true)

theorem readable_expired {n : ℕ} {source : String} {events : List LogEvent} :
    readable deadline n (.line source .expired :: events) = [] := if_pos rfl

/-- The records that are read are the first of all. -/
theorem distinctRecords_readable (cutoff n : ℕ) (seen : List (ℕ × String × String))
    (events : List LogEvent) :
    distinctRecords log cutoff seen (readable deadline n events) <+: distinctRecords log cutoff seen events := by
  induction events generalizing n seen with
  | nil => exact List.prefix_rfl
  | cons event events ih =>
    cases event with
    | file =>
      rw [readable]
      split
      · exact List.nil_prefix
      · exact ih (n + 1) seen
    | line source line =>
      cases line with
      | expired => exact List.nil_prefix
      | unparsed | skipped reason | noted message => exact ih n seen
      | record record =>
        rw [readable_line rfl, distinctRecords, distinctRecords]
        split
        · exact ih n seen
        · exact (List.prefix_cons_inj _).2 (ih n _)

/-- How a scan came to its end: its page is full, or it has visited all that it could read. -/
def Stopped (maximum k left : ℕ) (whole : Prop) (s s' : LogScan) : Prop :=
  (enumerateScanPageLimit ≤ s'.scanned ∨ maximum ≤ s'.rows.length) ∧ s'.complete = false ∨
    k = left ∧ (s'.complete = decide (s'.scanned = 0) ∨ whole ∧ s'.complete = s.complete)

theorem Stopped.mono {k left : ℕ} {whole whole' : Prop} {s₁ s s' : LogScan}
    (h : Stopped maximum k left whole s₁ s') (hcomplete : s₁.complete = s.complete)
    (himp : whole → whole') : Stopped maximum k left whole' s s' := by
  rw [Stopped, hcomplete] at h
  exact h.imp_right (And.imp_right (Or.imp_right (And.imp_left himp)))

theorem Stopped.succ {k left : ℕ} {whole : Prop} {s s' : LogScan} (h : Stopped maximum k left whole s s') :
    Stopped maximum (k + 1) (left + 1) whole s s' :=
  h.imp_right (And.imp_left (congrArg (· + 1)))

theorem scanLog_readable {start cutoff : ℕ} {events : List LogEvent} {s s' : LogScan}
    (h : scanLog deadline predicate maximum log start cutoff events s = .ok s') :
    ∃ k, Stretch (logLook predicate log)
        ((distinctRecords log cutoff s.seen (readable deadline s.files events)).drop (start - s.logicalOffset))
        (s.scanned, s.rows) (s'.scanned, s'.rows) k ∧
      Stopped maximum k ((distinctRecords log cutoff s.seen
        (readable deadline s.files events)).drop (start - s.logicalOffset)).length
        (readable deadline s.files events = events) s s' := by
  induction events generalizing s with
  | nil =>
    cases h
    rw [readable, distinctRecords, List.drop_nil]
    exact ⟨0, .nothing _ _, Or.inr ⟨rfl, Or.inr ⟨rfl, rfl⟩⟩⟩
  | cons event events ih =>
    cases event with
    | file =>
      rw [scanLog] at h
      rw [readable]
      by_cases hdeadline : deadline s.files = true
      · rw [if_pos hdeadline] at h ⊢
        cases h
        rw [distinctRecords, List.drop_nil]
        exact ⟨0, .nothing _ _, Or.inr ⟨rfl, Or.inl rfl⟩⟩
      · rw [if_neg hdeadline] at h ⊢
        obtain ⟨k, hstretch, hstop⟩ := ih h
        exact ⟨k, hstretch, hstop.mono rfl (congrArg (LogEvent.file :: ·))⟩
    | line source line =>
      cases line with
      | expired =>
        rw [scanLog] at h
        cases h
        rw [readable_expired, distinctRecords, List.drop_nil]
        exact ⟨0, .nothing _ _, Or.inr ⟨rfl, Or.inl rfl⟩⟩
      | unparsed | skipped reason | noted message =>
        rw [scanLog] at h
        obtain ⟨k, hstretch, hstop⟩ := ih h
        rw [readable_line rfl]
        exact ⟨k, hstretch, hstop.mono rfl (congrArg (LogEvent.line source _ :: ·))⟩
      | record record =>
        rw [readable_line rfl, distinctRecords]
        by_cases hnew : record.timestamp < cutoff ∨ log_record_key log record ∈ s.seen
        · rw [scanLog, if_pos hnew] at h
          rw [if_pos hnew]
          obtain ⟨k, hstretch, hstop⟩ := ih h
          exact ⟨k, hstretch, hstop.mono rfl (congrArg (LogEvent.line source _ :: ·))⟩
        rw [if_neg hnew]
        obtain ⟨hskip, h⟩ | ⟨hstart, ⟨hfull, hscanned, hrows, hcomplete⟩ |
          ⟨hroom, hless, first, s₁, hlook, hscanned, hrows, hseen, hoffset, hcomplete, hfiles, hcase⟩⟩ :=
          scanLog_record h hnew
        · have hdrop : start - s.logicalOffset = start - (s.logicalOffset + 1) + 1 := by omega
          rw [hdrop, List.drop_succ_cons]
          obtain ⟨k, hstretch, hstop⟩ := ih h
          exact ⟨k, hstretch, hstop.mono rfl (congrArg (LogEvent.line source _ :: ·))⟩
        · rw [← hscanned, ← hrows] at hfull
          rw [hscanned, hrows]
          exact ⟨0, .nothing _ _, Or.inl ⟨hfull, hcomplete⟩⟩
        · have hnone : start - s.logicalOffset = 0 := by omega
          rw [hnone, List.drop_zero]
          rcases hcase with ⟨hmax, rfl⟩ | h
          · refine ⟨0 + 1, .cons hlook ?_, Or.inl ⟨hmax, rfl⟩⟩
            rw [← hscanned, ← hrows]
            exact .nothing _ _
          · obtain ⟨k, hstretch, hstop⟩ := ih h
            have hnone₁ : start - s₁.logicalOffset = 0 := by omega
            rw [hnone₁, List.drop_zero, hseen, hfiles] at hstretch hstop
            refine ⟨k + 1, .cons hlook ?_, hstop.succ.mono hcomplete (congrArg (LogEvent.line source _ :: ·))⟩
            rw [← hscanned, ← hrows]
            exact hstretch

/-! ### What a page leaves -/

/-- The records that are read before the deadline. -/
def windowRead (deadline : ℕ → Bool) (log : LogTexts) (sources : LogSources) (cutoff : ℕ) :
    List (String × LogRecord) :=
  distinctRecords log cutoff [] (readable deadline 0 (logEvents sources cutoff))

theorem windowRead_front (sources : LogSources) (cutoff : ℕ) :
    windowRead deadline log sources cutoff <+: windowRecords log sources cutoff :=
  distinctRecords_readable ..

/-- A scan that has something to visit, if there is anything, has visited everything when it is complete
    and something when it is not. -/
theorem Stopped.reached {k : ℕ} {look : String × LogRecord → Except HelperError (Option Payload)}
    {entries front : List (String × LogRecord)} {whole : Prop} {s s' : LogScan}
    (h : Stopped maximum k front.length whole s s') (hscanned : s'.scanned = k) (hle : k ≤ front.length)
    (hfound : Chain.collect look (front.take k) = .ok s'.rows) (hmax : 1 ≤ maximum)
    (hs : s.complete = true) (hwhole : whole → front = entries) (hreached : entries ≠ [] → front ≠ []) :
    (s'.complete = true → k = entries.length) ∧ (s'.complete = false → 0 < k) := by
  have hrows := Chain.length_collect hfound
  rw [List.length_take] at hrows
  rcases h with ⟨hfull, hcomplete⟩ | ⟨hk, hcomplete | ⟨hall, hcomplete⟩⟩
  · rw [hcomplete]
    refine ⟨fun h => (nomatch h), fun _ => ?_⟩
    have hlimit : 0 < enumerateScanPageLimit := by decide
    omega
  · rw [hcomplete, hscanned, decide_eq_true_iff, decide_eq_false_iff_not]
    refine ⟨fun hzero => ?_, Nat.pos_of_ne_zero⟩
    have hnone : front = [] := List.length_eq_zero_iff.1 (by omega)
    have hentries : entries = [] := by_contra fun hne => hreached hne hnone
    rw [hentries, hzero, List.length_nil]
  · rw [hcomplete, hs, hk, hwhole hall]
    exact ⟨fun _ => rfl, fun h => (nomatch h)⟩

/-- A page that reads as far as the first record it can visit is complete only when it visits all, and
    otherwise it visits something. -/
theorem v2_log_event_inventory_reached {sources : LogSources} {cutoff start : ℕ} {inv : Inventory}
    (hmax : 1 ≤ maximum)
    (hreached : (windowRecords log sources cutoff).drop start ≠ [] →
      (windowRead deadline log sources cutoff).drop start ≠ [])
    (h : v2_log_event_inventory deadline predicate maximum log sources cutoff start = .ok inv) :
    Swept (logLook predicate log) maximum ((windowRecords log sources cutoff).drop start) inv ∧
      inv.upperBound = none ∧ inv.nextOffset = start + inv.scannedCount ∧
      (inv.complete = false → 0 < inv.scannedCount) := by
  obtain ⟨s, hs, h⟩ := bind_ok.1 h
  rw [pure_ok] at h
  subst h
  obtain ⟨k, ⟨hle, hcount, found, hfound, hrows⟩, hstop⟩ := scanLog_readable hs
  obtain ⟨-, -, hlimit, hmaximum, -⟩ := scanLog_spec hs
  obtain rfl : s.scanned = k := by simpa using hcount
  obtain rfl : s.rows = found := by simpa using hrows
  have hfront : (windowRead deadline log sources cutoff).drop start <+:
      (windowRecords log sources cutoff).drop start := (windowRead_front sources cutoff).drop start
  have htake : ((windowRecords log sources cutoff).drop start).take s.scanned =
      ((windowRead deadline log sources cutoff).drop start).take s.scanned := by
    obtain ⟨more, hmore⟩ := hfront
    rw [← hmore]
    exact List.take_append_of_le_length hle
  have hwhole : readable deadline 0 (logEvents sources cutoff) = logEvents sources cutoff →
      (windowRead deadline log sources cutoff).drop start = (windowRecords log sources cutoff).drop start := by
    intro hall
    rw [windowRead, hall, windowRecords]
  obtain ⟨hcomplete, hmoves⟩ := Stopped.reached hstop rfl hle hfound hmax rfl hwhole hreached
  refine ⟨⟨hle.trans hfront.length_le, ?_, hlimit (Nat.zero_le _), hmaximum (Nat.zero_le _), hcomplete⟩, rfl,
    rfl, hmoves⟩
  exact (congrArg (Chain.collect _) htake).trans hfound

section

variable (texts : Texts) (epochId : String) (m : Moment) (params : EnumerateParams) (requested : List String)
  (token : Option CursorToken)

/-- Where a cursor points. -/
def positionOf (token : Option CursorToken) : ℕ := token.elim 0 fun token => token.body.offset

/-- What is read before the deadline of what a cursor leaves. -/
def readBefore (s : Snapshot) : List (String × LogRecord) :=
  (sinceHours params).toOption.elim [] fun hours =>
    (windowRead s.deadline texts.log s.logs (cutoffOf s hours)).drop (positionOf token)

/-- The deadline does not come before the first record that the page can visit. -/
def Reached : Prop :=
  unread texts m.collected params requested token ≠ [] → readBefore texts params token m.collected ≠ []

/-- The next request goes on where the cursor points, whatever has become of the source. -/
def Resumes (next : CursorToken) : Prop :=
  ∀ s generation, v2_source_generation texts s params = .ok generation →
    next.body.offset ≤ maxCursorOffset →
    ∃ start, v2_cursor_start texts epochId s params (toleratesDrift params.namespace_) (some next) = .ok start ∧
      start.offset = next.body.offset

/-- What a page says of the records that its cursor leaves. -/
structure HonestPage (page : EnumeratePage) : Prop where
  le : page.scan.scannedCount ≤ (unread texts m.collected params requested token).length
  objects : Chain.collect (Entry.report texts m.collected params requested)
    ((unread texts m.collected params requested token).take page.scan.scannedCount) = .ok page.objects
  whole : page.scan.complete = true →
    page.scan.scannedCount = (unread texts m.collected params requested token).length
  goesOn : page.scan.complete = false → 0 < page.scan.scannedCount ∧ ∃ next, page.cursor = some next ∧
    next.body.offset = positionOf token + page.scan.scannedCount ∧
    unread texts m.collected params requested (some next) =
      (unread texts m.collected params requested token).drop page.scan.scannedCount ∧
    Resumes texts epochId params next
  ends : page.scan.complete = true → page.cursor = none

/-- A page goes well until it is finished. -/
structure Prepared (limit : ℕ) (start : Start) (inv : Inventory) (objects : List Normalizer.WireObservation)
    (current : String) : Prop where
  enumerable : enumerable params.namespace_ = true
  fields : v2_requested_fields params = .ok requested
  pageSize : pageLimit params = .ok limit
  predicate : checkPredicate params = .ok ()
  begins : v2_cursor_start texts epochId m.start params (toleratesDrift params.namespace_) token = .ok start
  collected : inventory texts m.collected params requested limit start = .ok inv
  sort : params.sort.length ≤ 3
  reported : reports (report m.collected.observedAt params.namespace_ requested) inv.rows = .ok objects
  finish : v2_source_generation texts m.finish params = .ok current

end

section

variable {texts : Texts} {epochId : String} {m : Moment} {params : EnumerateParams} {requested : List String}
  {token : Option CursorToken} {page : EnumeratePage} {limit : ℕ} {start : Start} {inv : Inventory}

theorem readBefore_eq {s : Snapshot} {hours : ℤ} (hhours : sinceHours params = .ok hours) :
    readBefore texts params token s =
      (windowRead s.deadline texts.log s.logs (cutoffOf s hours)).drop (positionOf token) := by
  rw [readBefore, hhours]
  rfl

theorem inventory_reached (hns : params.namespace_ = .logEvent) (hmin : 1 ≤ limit)
    (hoffset : start.offset = positionOf token)
    (hreached : Reached texts m params requested token)
    (h : inventory texts m.collected params requested limit start = .ok inv) :
    Swept (Entry.look texts m.collected params requested) limit
        (unread texts m.collected params requested token) inv ∧
      inv.upperBound = none ∧ inv.nextOffset = positionOf token + inv.scannedCount ∧
      (inv.complete = false → 0 < inv.scannedCount) := by
  rw [inventory, hns] at h
  obtain ⟨hours, hhours, h⟩ := bind_ok.1 h
  obtain ⟨_, -, h⟩ := bind_ok.1 h
  have hunread : unread texts m.collected params requested token =
      ((windowRecords texts.log m.collected.logs (cutoffOf m.collected hours)).drop (positionOf token)).map
        fun e => .log e.1 e.2 := remaining_log hns hhours _ _
  rw [Reached, hunread, readBefore_eq hhours, Ne, List.map_eq_nil_iff] at hreached
  rw [hoffset] at h
  obtain ⟨hswept, hupper, hnext, hmoves⟩ := v2_log_event_inventory_reached hmin hreached h
  rw [hunread]
  exact ⟨Swept.map_id hswept (fun e => .log e.1 e.2) fun _ => rfl, hupper, hnext, hmoves⟩

theorem resumes_of_encode {body : Cursor} (hns : params.namespace_ = .logEvent)
    (hbody : body.namespace_ = params.namespace_) (hbinding : body.binding = texts.bindingDigest epochId params) :
    Resumes texts epochId params (v2_encode_cursor texts body) := by
  intro s generation hgeneration hoffset
  rw [v2_cursor_start, hgeneration, hns]
  refine ⟨_, bind_ok.2 ⟨generation, rfl, bind_ok.2 ⟨(), require_ok.2 ?_, bind_ok.2 ⟨(), require_ok.2 ?_,
    bind_ok.2 ⟨(), require_ok.2 ?_, bind_ok.2 ⟨(), require_ok.2 (decide_eq_true hoffset), rfl⟩⟩⟩⟩⟩, rfl⟩
  · exact decide_eq_true ⟨rfl, rfl, hbody.trans hns⟩
  · exact decide_eq_true hbinding
  · rw [toleratesDrift, Bool.or_true]

/-- A page that comes as far as the first record its cursor leaves is honest. -/
theorem honest_of_reached (hns : params.namespace_ = .logEvent)
    (hfields : v2_requested_fields params = .ok requested)
    (hreached : Reached texts m params requested token)
    (h : v2_enumerate texts epochId m params token = .ok page) :
    HonestPage texts epochId m params requested token page := by
  obtain ⟨requested', limit, start, inv, objects, h⟩ := v2_enumerate_ok.1 h
  have hsame := h.fields
  rw [hfields] at hsame
  cases hsame
  obtain ⟨hmin, -⟩ := pageLimit_ok h.pageSize
  obtain ⟨hoffset, -, -, hbinding, -⟩ := v2_cursor_start_ok h.begins
  obtain ⟨hobjects, hscanned, hcomplete, -, hcursor, hnext⟩ := finishPage_ok h.finished
  obtain ⟨hswept, hupper, hposition, hmoves⟩ := inventory_reached hns hmin hoffset hreached h.collected
  refine ⟨hscanned ▸ hswept.le, ?_, fun hc => ?_, fun hc => ?_, fun hc => hcursor.2 (hcomplete ▸ hc)⟩
  · rw [hscanned, hobjects]
    exact collect_report hswept.found h.reported
  · rw [hscanned]
    exact hswept.whole (hcomplete ▸ hc)
  · rw [hcomplete] at hc
    rw [hscanned]
    cases hnone : page.cursor with
    | none =>
      rw [hcursor.1 hnone] at hc
      cases hc
    | some next =>
      obtain ⟨current, -, rfl⟩ := hnext next hnone
      refine ⟨hmoves hc, _, rfl, hposition, ?_, resumes_of_encode hns rfl hbinding⟩
      have hns' : params.namespace_ ≠ .process := by
        rw [hns]
        decide
      rw [unread, unread, remaining_eq_drop hns', remaining_eq_drop hns', List.drop_drop]
      exact congrArg (fun offset => List.drop offset _) hposition

/-! ### Sources that change -/

/-- The source is another one than at the cursor's page, or it changes during a page that others follow. -/
def SourceChanged (start : Start) (inv : Inventory) (current : String) : Prop :=
  start.sourceChanged = true ∨ inv.complete = false ∧ current ≠ start.sourceGeneration

theorem bind_eq {α β : Type} {x : Except HelperError α} {f : α → Except HelperError β} {a : α} (h : x = .ok a) :
    (x >>= f) = f a := by
  rw [h]
  rfl

theorem require_pos {check : Bool} {error : HelperError} (h : check = true) : require check error = .ok () :=
  if_pos h

theorem v2_enumerate_prepared {objects : List Normalizer.WireObservation} {current : String}
    (h : Prepared texts epochId m params requested token limit start inv objects current) :
    v2_enumerate texts epochId m params token = finishPage texts m params start inv objects := by
  have hioc : params.namespace_ ≠ .taskIoc := by
    intro hns
    have henumerable := h.enumerable
    rw [hns] at henumerable
    cases henumerable
  exact (bind_eq (require_pos (decide_eq_true hioc))).trans <| (bind_eq (require_pos h.enumerable)).trans <|
    (bind_eq h.fields).trans <| (bind_eq h.pageSize).trans <| (bind_eq h.predicate).trans <|
    (bind_eq h.begins).trans <| (bind_eq h.collected).trans <|
    (bind_eq (require_pos (decide_eq_true h.sort))).trans <| bind_eq h.reported

/-- A page is given out, unless the source has changed and there is nothing on the page. -/
theorem enumerate_prepared {objects : List Normalizer.WireObservation} {current : String}
    (h : Prepared texts epochId m params requested token limit start inv objects current) :
    (SourceChanged start inv current ∧ objects = [] →
      ∃ message, v2_enumerate texts epochId m params token = .error ⟨.sourceChanged, message⟩) ∧
    (¬ (SourceChanged start inv current ∧ objects = []) →
      ∃ page, v2_enumerate texts epochId m params token = .ok page) := by
  have hchanged : (start.sourceChanged || (!inv.complete && decide (current ≠ start.sourceGeneration))) = true ↔
      SourceChanged start inv current := by
    simp [SourceChanged]
  rw [v2_enumerate_prepared h, finishPage, bind_eq h.finish]
  constructor
  · rintro ⟨hsource, rfl⟩
    rw [hchanged.2 hsource]
    exact ⟨_, rfl⟩
  · intro hgood
    refine bind_total ⟨(), require_pos ?_⟩ fun _ _ => ⟨_, rfl⟩
    rw [Bool.not_eq_true', Bool.and_eq_false_iff, List.isEmpty_eq_false_iff]
    by_cases hsource : SourceChanged start inv current
    · exact Or.inr fun hnone => hgood ⟨hsource, hnone⟩
    · exact Or.inl (Bool.eq_false_iff.2 fun hin => hsource (hchanged.1 hin))

/-! ### Runs -/

/-- Pages of one window, asked for at whatever moments: a run of more pages than there are records comes to
    its end and has visited every record. -/
theorem run_visits (hns : params.namespace_ = .logEvent) (hfields : v2_requested_fields params = .ok requested)
    {records : List Entry} {ms : List Moment} {pages : List EnumeratePage}
    (hsteady : ∀ m ∈ ms, source texts m.collected params requested = records)
    (halong : Chain.Along EnumeratePage.cursor (pageAt texts epochId params)
      (fun m token => Reached texts m params requested token) ms none)
    (h : enumerateChain texts epochId params ms = .ok pages) (hn : records.length < ms.length) :
    Chain.Ended EnumeratePage.cursor pages ∧ (pages.map (·.scan.scannedCount)).sum = records.length ∧
      ∀ entry ∈ records, ∃ m ∈ ms, ∃ page ∈ pages, ∃ found,
        entry.report texts m.collected params requested = .ok found ∧ found.toList ⊆ page.objects := by
  have hns' : params.namespace_ ≠ .process := by
    rw [hns]
    decide
  have hunread : ∀ m ∈ ms, ∀ token, unread texts m.collected params requested token =
      records.drop (positionOf token) := by
    intro m hm token
    rw [unread, remaining_eq_drop hns', hsteady m hm, positionOf]
  have hserves : ∀ m ∈ ms, ∀ token page, Reached texts m params requested token →
      pageAt texts epochId params m token = .ok page → ∃ visited,
        Chain.Serves (Entry.report texts m.collected params requested)
          (fun token => records.drop (positionOf token)) EnumeratePage.objects (·.scan.scannedCount)
          EnumeratePage.cursor token page visited ∧ (page.cursor ≠ none → visited ≠ []) := by
    intro m hm token page hreached hpage
    have honest := honest_of_reached hns hfields hreached hpage
    have hcursor := (v2_enumerate_counts hpage).2
    obtain ⟨hle, hobjects, hwhole, hgoes, -⟩ := honest
    rw [hunread m hm] at hle hobjects hwhole hgoes
    refine ⟨(records.drop (positionOf token)).take page.scan.scannedCount, ⟨hobjects, ?_, ?_, ?_⟩, ?_⟩
    · exact (List.length_take_of_le hle).symm
    · intro hnone
      rw [hwhole (hcursor.2 hnone), List.take_length]
    · intro next hnext
      have hmore : page.scan.complete = false := by
        rw [← Bool.not_eq_true, hcursor, hnext]
        exact Option.some_ne_none _
      obtain ⟨-, next', hnext', hposition, -, -⟩ := hgoes hmore
      rw [hnext] at hnext'
      cases hnext'
      have hafter : positionOf (some next) = positionOf token + page.scan.scannedCount := hposition
      rw [hafter, ← List.drop_drop, List.take_append_drop]
    · intro hsome
      have hmore : page.scan.complete = false := by
        rw [← Bool.not_eq_true, hcursor]
        exact hsome
      have hpositive := (hgoes hmore).1
      intro hnil
      rw [← List.length_eq_zero_iff, List.length_take_of_le hle] at hnil
      omega
  exact Chain.follow_visits hserves halong h hn

/-- **Honest log pages.** A page that the deadline lets come as far as the first record its cursor leaves
    is complete only when it has visited all of them; otherwise it has visited some, and its cursor leaves
    the others to the next request, also when nothing on it matched and also when the source has changed
    since. A page is refused only when the source has changed and there is nothing on it. So every record
    of a window is visited by a run of such pages, however late it comes. -/
theorem log_pages_honest (hns : params.namespace_ = .logEvent)
    (hfields : v2_requested_fields params = .ok requested) :
    (∀ m token page, Reached texts m params requested token →
      v2_enumerate texts epochId m params token = .ok page →
      HonestPage texts epochId m params requested token page) ∧
    (∀ m token limit start inv objects current,
      Prepared texts epochId m params requested token limit start inv objects current →
      (SourceChanged start inv current ∧ objects = [] →
        ∃ message, v2_enumerate texts epochId m params token = .error ⟨.sourceChanged, message⟩) ∧
      (¬ (SourceChanged start inv current ∧ objects = []) →
        ∃ page, v2_enumerate texts epochId m params token = .ok page)) ∧
    ∀ records ms pages, (∀ m ∈ ms, source texts m.collected params requested = records) →
      Chain.Along EnumeratePage.cursor (pageAt texts epochId params)
        (fun m token => Reached texts m params requested token) ms none →
      enumerateChain texts epochId params ms = .ok pages → records.length < ms.length →
      Chain.Ended EnumeratePage.cursor pages ∧ (pages.map (·.scan.scannedCount)).sum = records.length ∧
        ∀ entry ∈ records, ∃ m ∈ ms, ∃ page ∈ pages, ∃ found,
          entry.report texts m.collected params requested = .ok found ∧ found.toList ⊆ page.objects :=
  ⟨fun _ _ _ hreached h => honest_of_reached hns hfields hreached h,
    fun _ _ _ _ _ _ _ h => enumerate_prepared h,
    fun _ _ _ hsteady halong h hn => run_visits hns hfields hsteady halong h hn⟩

end

/-! ### Samples -/

def logRecord (program message : String) : LogRecord where
  timestamp := 0
  program := some program
  pid := none
  auditType := none
  message

/-- Two log files of one record each; the deadline comes after the first. -/
def logSnapshot : Snapshot :=
  { plainSnapshot [] .unreadable with
    deadline := fun n => 1 ≤ n
    logs := ⟨none, [], [⟨"syslog", [.record (logRecord "cron" "started")]⟩,
      ⟨"auth.log", [.record (logRecord "sshd" "Accepted password")]⟩]⟩ }

def logParams (predicate : Option Predicate) : EnumerateParams where
  namespace_ := .logEvent
  fields := none
  limit := some (.num 500)
  predicate
  sort := []
  sinceHours := none
  scope := none

def sshdOnly : Predicate := .leaf .eq "program" (some (.str "sshd"))

/-- The cursor of the first page when the source was another one. -/
def staleCursor : CursorToken :=
  v2_encode_cursor plainTexts {
    namespace_ := .logEvent, offset := 0, binding := "binding", sourceGeneration := "earlier", upperBound := none }

/-- The page that stops before the second record returns a cursor to it. -/
theorem log_pages_honest_deadline :
    ∃ page, v2_enumerate plainTexts "EPOCH" (Moment.still logSnapshot) (logParams (some sshdOnly)) none = .ok page ∧
      HonestPage plainTexts "EPOCH" (Moment.still logSnapshot) (logParams (some sshdOnly)) ["sourceId", "cursor"]
        none page := by
  have hpage : ∃ page, v2_enumerate plainTexts "EPOCH" (Moment.still logSnapshot) (logParams (some sshdOnly)) none =
      .ok page := ⟨_, rfl⟩
  obtain ⟨page, hpage⟩ := hpage
  refine ⟨page, hpage, (log_pages_honest rfl rfl).1 _ _ page (fun _ hnone => ?_) hpage⟩
  have hread : (readBefore plainTexts (logParams (some sshdOnly)) none logSnapshot).length = 1 := rfl
  have hnil : (readBefore plainTexts (logParams (some sshdOnly)) none logSnapshot).length = 0 :=
    congrArg List.length hnone
  rw [hread] at hnil
  cases hnil

/-- A page that has visited the first of two records, neither of which was on it, gives no cursor to the
    second when the source is another one than before. -/
theorem changed_empty_page_refused :
    (unread plainTexts logSnapshot (logParams (some sshdOnly)) ["sourceId", "cursor"] (some staleCursor)).length = 2 ∧
    (inventory plainTexts logSnapshot (logParams (some sshdOnly)) ["sourceId", "cursor"] 500
      ⟨0, "binding", "generation", true, none⟩).toOption.map (·.scannedCount) = some 1 ∧
    v2_enumerate plainTexts "EPOCH" (Moment.still logSnapshot) (logParams (some sshdOnly)) (some staleCursor) =
      .error ⟨.sourceChanged, "enumerate source changed before any object was produced"⟩ :=
  ⟨rfl, rfl, rfl⟩

end HuntWarden.Helper.Enumerate
