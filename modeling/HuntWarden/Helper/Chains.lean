import HuntWarden.Helper.Enumerate
import HuntWarden.Lib.Chain
import Mathlib.Data.List.MinMax

/-! Chains of enumeration pages. What a cursor leaves to be read is a list of entries (`remaining`), and a
    page serves the front of it. -/

namespace HuntWarden.Helper.Enumerate

open Outcome

/-! ### What there is to be read -/

/-- What the collectors visit, one by one. -/
inductive Entry where
  | process (entry : ProcessEntry)
  | file (entry : FileEntry)
  | log (source : String) (record : LogRecord)
  | row (row : Payload)

section

variable (texts : Texts) (s : Snapshot) (params : EnumerateParams) (requested : List String)

/-- The row that a page makes of an entry, when it is wanted. -/
def Entry.look : Entry → Except HelperError (Option Payload)
  | .process entry =>
    (processLook params.predicate (decide ("exeSha256" ∈ requested)) entry).map
      (Option.map (withMaps s requested))
  | .file entry => fileLook params.predicate entry
  | .log source record => logLook params.predicate texts.log (source, record)
  | .row fields => wanted params.namespace_ params.predicate fields

/-- The object that a page makes of an entry. -/
def Entry.report (entry : Entry) : Except HelperError (Option Normalizer.WireObservation) :=
  entry.look texts s params requested >>= fun
    | none => .ok none
    | some fields => (Enumerate.report s.observedAt params.namespace_ requested fields).map some

/-- The entries after a position, in the order of the collector. -/
def remaining (offset : ℕ) (upperBound : Option ℕ) : List Entry :=
  match params.namespace_ with
  | .process =>
    (processesBetween s.processes offset (upperBound.getD (lastPid s.processes offset))).map .process
  | .file => ((v2_scope_root s params).toOption.elim [] fun root => (scopeFiles root).drop offset).map .file
  | .logEvent => ((sinceHours params).toOption.elim [] fun hours =>
      (windowRecords texts.log s.logs (cutoffOf s hours)).drop offset).map fun e => .log e.1 e.2
  | _ => ((collectRows s params requested).toOption.elim [] fun collected =>
      (sortRows texts params collected.rows).drop offset).map .row

/-- What a cursor leaves to be read. -/
def unread (token : Option CursorToken) : List Entry :=
  remaining texts s params requested (token.elim 0 fun token => token.body.offset)
    (token.bind fun token => token.body.upperBound)

/-- The whole source, in the order of the collector. -/
def source : List Entry := unread texts s params requested none

end

/-! ### One page of an inventory -/

theorem Swept.map {ε : Type} {look : ε → Except HelperError (Option Payload)}
    {look' : Entry → Except HelperError (Option Payload)} {maximum : ℕ} {entries : List ε}
    {inv : Inventory} (h : Swept look maximum entries inv) (f : ε → Entry) (g : Payload → Payload)
    (hlook : ∀ e, look' (f e) = (look e).map (Option.map g)) :
    Swept look' maximum (entries.map f) { inv with rows := inv.rows.map g } where
  le := by rw [List.length_map]; exact h.le
  found := by
    have hcollect : ∀ {es : List ε} {found : List Payload}, Chain.collect look es = .ok found →
        Chain.collect look' (es.map f) = .ok (found.map g) := by
      intro es
      induction es with
      | nil =>
        rintro _ ⟨⟩
        rfl
      | cons e es ih =>
        intro found hfound
        obtain ⟨first, hfirst, rest, hrest, rfl⟩ := Chain.collect_cons.1 hfound
        refine Chain.collect_cons.2 ⟨first.map g, ?_, rest.map g, ih hrest, ?_⟩
        · rw [hlook, hfirst]
          rfl
        · cases first <;> simp
    rw [← List.map_take]
    exact hcollect h.found
  scanLimit := h.scanLimit
  rowLimit := by rw [List.length_map]; exact h.rowLimit
  whole hc := by rw [List.length_map]; exact h.whole hc

theorem Swept.map_id {ε : Type} {look : ε → Except HelperError (Option Payload)}
    {look' : Entry → Except HelperError (Option Payload)} {maximum : ℕ} {entries : List ε}
    {inv : Inventory} (h : Swept look maximum entries inv) (f : ε → Entry)
    (hlook : ∀ e, look' (f e) = look e) : Swept look' maximum (entries.map f) inv := by
  have hmap := Swept.map h f id fun e => (hlook e).trans (by cases look e <;> simp [Except.map])
  rw [List.map_id] at hmap
  exact hmap

section Rows

variable {namespace_ : NamespaceName} {predicate : Option Predicate} {offset limit : ℕ}

theorem scanRows_spec {p : Predicate} {rows window : List Payload} {scanned : ℕ}
    {after : ℕ × List Payload} (h : scanRows namespace_ p limit rows (scanned, window) = .ok after) :
    ∃ k, Stretch (wanted namespace_ (some p)) rows (scanned, window) after k ∧
      (window.length ≤ limit → after.2.length ≤ limit) ∧
      (k = rows.length ∨ limit ≤ after.2.length) := by
  induction rows generalizing scanned window with
  | nil =>
    cases h
    exact ⟨0, .nothing _ _, id, Or.inl rfl⟩
  | cons row rows ih =>
    rw [scanRows] at h
    by_cases hfull : limit ≤ window.length
    · rw [if_pos hfull] at h
      cases h
      exact ⟨0, .nothing _ _, id, Or.inr hfull⟩
    · rw [if_neg hfull] at h
      obtain ⟨keep, hkeep, h⟩ := bind_ok.1 h
      obtain ⟨k, hstretch, hlimit, hstop⟩ := ih h
      have hwindow : (if keep then window ++ [row] else window) =
          window ++ (if keep then some row else none).toList := by cases keep <;> simp
      rw [hwindow] at hstretch hlimit
      refine ⟨k + 1, .cons (wanted_ok.2 ⟨keep, hkeep, rfl⟩) hstretch, fun _ => hlimit ?_,
        hstop.imp_left (congrArg (· + 1))⟩
      have hone : (if keep then some row else none).toList.length ≤ 1 := by cases keep <;> simp
      rw [List.length_append]
      omega

theorem scanRows_total {p : Predicate} {rows : List Payload}
    (hlook : ∀ row ∈ rows, ∃ first, wanted namespace_ (some p) row = .ok first)
    (before : ℕ × List Payload) : ∃ after, scanRows namespace_ p limit rows before = .ok after := by
  induction rows generalizing before with
  | nil => exact ⟨before, rfl⟩
  | cons row rows ih =>
    obtain ⟨scanned, window⟩ := before
    rw [List.forall_mem_cons] at hlook
    obtain ⟨⟨first, hfirst⟩, hlook⟩ := hlook
    obtain ⟨keep, hkeep, -⟩ := wanted_ok.1 hfirst
    rw [scanRows]
    split
    · exact ⟨_, rfl⟩
    · exact bind_total ⟨keep, hkeep⟩ fun _ _ => ih hlook _

/-- Without a predicate every row is kept. -/
theorem collect_all (rows : List Payload) :
    Chain.collect (wanted namespace_ none) rows = .ok rows := by
  induction rows with
  | nil => rfl
  | cons row rows ih => exact Chain.collect_cons.2 ⟨some row, rfl, rows, ih, rfl⟩

theorem rowWindow_spec {rows window : List Payload} {scanned : ℕ} (hlimit : limit ≤ 500)
    (h : rowWindow namespace_ predicate offset limit rows = .ok (scanned, window)) :
    scanned ≤ (rows.drop offset).length ∧
      Chain.collect (wanted namespace_ predicate) ((rows.drop offset).take scanned) = .ok window ∧
      scanned ≤ enumerateScanPageLimit ∧ window.length ≤ limit ∧
      (scanned = (rows.drop offset).length ∨ enumerateScanPageLimit ≤ scanned ∨
        limit ≤ window.length) := by
  cases predicate with
  | none =>
    cases h
    have htake : ((rows.drop offset).take limit).length = min limit (rows.drop offset).length :=
      List.length_take
    refine ⟨?_, ?_, ?_, ?_, ?_⟩
    · omega
    · have hsame : (rows.drop offset).take ((rows.drop offset).take limit).length =
          (rows.drop offset).take limit := by
        rw [htake, List.take_eq_take_iff]
        omega
      rw [hsame, collect_all]
    · rw [htake, enumerateScanPageLimit]
      omega
    · omega
    · omega
  | some p =>
    obtain ⟨k, ⟨hle, hcount, found, hfound, hrows⟩, hmax, hstop⟩ := scanRows_spec h
    obtain rfl : scanned = k := by simpa using hcount
    obtain rfl : window = found := by simpa using hrows
    rw [List.length_take] at hle hstop
    rw [List.take_take, Nat.min_eq_left (by omega)] at hfound
    refine ⟨by omega, hfound, by omega, hmax (Nat.zero_le _), ?_⟩
    rcases hstop with hk | hfull
    · omega
    · exact Or.inr (Or.inr hfull)

theorem rowWindow_total {rows : List Payload}
    (hlook : ∀ row ∈ rows, ∃ first, wanted namespace_ predicate row = .ok first) :
    ∃ after, rowWindow namespace_ predicate offset limit rows = .ok after := by
  cases predicate with
  | none => exact ⟨_, rfl⟩
  | some p =>
    exact scanRows_total (fun row hrow => hlook row (List.mem_of_mem_drop (List.mem_of_mem_take hrow))) _

end Rows

/-! ### Pages and positions -/

/-- Processes are told apart by their pids. -/
theorem separates_pids {entries : List ProcessEntry} (hnodup : (entries.map ProcessEntry.pid).Nodup) :
    Paging.Separates (fun a b => cmp a.pid b.pid) entries :=
  Paging.separates_of_key (fun _ _ => Js.cmp_eq_eq.1) hnodup

instance transCmp_pid : Std.TransCmp fun a b : ProcessEntry => cmp a.pid b.pid :=
  Js.transCmp_on Js.transCmp_cmp ProcessEntry.pid

theorem mem_processesBetween {entries : List ProcessEntry} {start upper : ℕ} {entry : ProcessEntry} :
    entry ∈ processesBetween entries start upper ↔
      entry ∈ entries ∧ start < entry.pid ∧ entry.pid ≤ upper := by
  rw [processesBetween, Paging.mem_sortBy, List.mem_filter, decide_eq_true_iff]

theorem lastVisited_le {entries : List ProcessEntry} {start upper k : ℕ} (hk : 0 < k)
    (hle : k ≤ (processesBetween entries start upper).length) :
    lastVisited start ((processesBetween entries start upper).take k) ≤ upper := by
  have hne : (processesBetween entries start upper).take k ≠ [] := by
    intro hnil
    have hlength := congrArg List.length hnil
    rw [List.length_take, List.length_nil] at hlength
    omega
  rw [lastVisited, List.getLast?_eq_some_getLast hne, Option.map_some, Option.getD_some]
  exact (mem_processesBetween.1 (List.mem_of_mem_take (List.getLast_mem hne))).2.2

theorem le_lastPid {entries : List ProcessEntry} {entry : ProcessEntry} (h : entry ∈ entries) (start : ℕ) :
    entry.pid ≤ lastPid entries start := by
  have hne : entries.isEmpty = false := List.isEmpty_eq_false_iff.2 (List.ne_nil_of_mem h)
  rw [lastPid, hne, if_neg Bool.false_ne_true]
  exact List.le_max_of_le' 0 (List.mem_map_of_mem h) le_rfl

theorem lastPid_le {entries : List ProcessEntry} {start bound : ℕ} (hstart : start ≤ bound)
    (h : ∀ entry ∈ entries, entry.pid ≤ bound) : lastPid entries start ≤ bound := by
  rw [lastPid]
  split
  · exact hstart
  · exact List.max_le_of_forall_le _ bound (List.forall_mem_map.2 h)

theorem pairwise_processesBetween {entries : List ProcessEntry} {start upper : ℕ}
    (hnodup : (entries.map ProcessEntry.pid).Nodup) :
    (processesBetween entries start upper).Pairwise fun a b => a.pid < b.pid := by
  have hsub : (entries.filter fun entry => start < entry.pid ∧ entry.pid ≤ upper).Sublist entries :=
    List.filter_sublist
  have hsep := separates_pids ((hsub.map ProcessEntry.pid).nodup hnodup)
  exact (Paging.strict_sortBy hsep ((List.Nodup.of_map _ hnodup).sublist hsub)).imp Js.cmp_eq_lt.1

/-- The processes after the last one visited are those not visited. -/
theorem processesBetween_drop {entries : List ProcessEntry}
    (hnodup : (entries.map ProcessEntry.pid).Nodup) (start upper k : ℕ) :
    processesBetween entries (lastVisited start ((processesBetween entries start upper).take k)) upper =
      (processesBetween entries start upper).drop k := by
  cases hlast : ((processesBetween entries start upper).take k).getLast? with
  | none =>
    have hstart : lastVisited start ((processesBetween entries start upper).take k) = start := by
      rw [lastVisited, hlast]
      rfl
    rw [hstart]
    rcases List.take_eq_nil_iff.1 (List.getLast?_eq_none_iff.1 hlast) with rfl | hnil
    · rw [List.drop_zero]
    · rw [hnil, List.drop_nil]
  | some last =>
    have hpid : lastVisited start ((processesBetween entries start upper).take k) = last.pid := by
      rw [lastVisited, hlast]
      rfl
    have hmem : last ∈ processesBetween entries start upper :=
      List.mem_of_mem_take (List.mem_of_getLast? hlast)
    obtain ⟨-, hlow, -⟩ := mem_processesBetween.1 hmem
    have hsub : (entries.filter fun entry => start < entry.pid ∧ entry.pid ≤ upper).Sublist entries :=
      List.filter_sublist
    have hsep := separates_pids ((hsub.map ProcessEntry.pid).nodup hnodup)
    have hstrict := @pairwise_processesBetween entries start upper hnodup
    rw [hpid, ← Paging.filter_past hstrict hlast, processesBetween, processesBetween,
      Paging.filter_sortBy hsep, List.filter_filter]
    congr 1
    refine List.filter_congr fun entry _ => ?_
    rw [← Bool.decide_and, decide_eq_decide]
    omega

section

variable {texts : Texts} {s : Snapshot} {params : EnumerateParams} {requested : List String}
  {limit : ℕ} {start : Start} {inv : Inventory}

theorem rowInventory_spec {collected : Collected} (hcollected : collectRows s params requested = .ok collected)
    (hmin : 1 ≤ limit) (hmax : limit ≤ 500) {offset : ℕ}
    (h : rowInventory texts s params requested offset limit = .ok inv) :
    Swept (wanted params.namespace_ params.predicate) limit
        ((sortRows texts params collected.rows).drop offset) inv ∧
      inv.upperBound = none ∧ inv.nextOffset = offset + inv.scannedCount ∧
      (inv.complete = false → 0 < inv.scannedCount) := by
  obtain ⟨collected', hcollected', h⟩ := bind_ok.1 h
  rw [hcollected] at hcollected'
  cases hcollected'
  obtain ⟨_, -, h⟩ := bind_ok.1 h
  obtain ⟨⟨scanned, window⟩, hwindow, h⟩ := bind_ok.1 h
  rw [pure_ok] at h
  subst h
  obtain ⟨hle, hfound, hscan, hrows, hstop⟩ := rowWindow_spec hmax hwindow
  refine ⟨⟨hle, hfound, hscan, hrows, fun hc => ?_⟩, rfl, rfl, fun hc => ?_⟩
  · have hend : ¬ offset + scanned < (sortRows texts params collected.rows).length := by
      simpa using hc
    rw [List.length_drop] at hle ⊢
    change scanned = _
    omega
  · have hmore : offset + scanned < (sortRows texts params collected.rows).length := by simpa using hc
    have hlength := Chain.length_collect hfound
    rw [List.length_take] at hlength
    rw [List.length_drop] at hstop
    change 0 < scanned
    have hpositive : 0 < enumerateScanPageLimit := by decide
    omega

/-- A page of any namespace. -/
structure PageRead (texts : Texts) (s : Snapshot) (params : EnumerateParams) (requested : List String)
    (limit offset : ℕ) (upperBound : Option ℕ) (inv : Inventory) : Prop where
  swept : Swept (Entry.look texts s params requested) limit
    (remaining texts s params requested offset upperBound) inv
  rest : remaining texts s params requested inv.nextOffset inv.upperBound =
    (remaining texts s params requested offset upperBound).drop inv.scannedCount
  moved : (∀ n, s.deadline n = false) → inv.complete = false → 0 < inv.scannedCount
  counted : params.namespace_ ≠ .process → inv.upperBound = none ∧
    inv.nextOffset = offset + inv.scannedCount
  bounded : params.namespace_ = .process →
    inv.upperBound = some (upperBound.getD (lastPid s.processes offset)) ∧
      (0 < inv.scannedCount → inv.nextOffset ≤ upperBound.getD (lastPid s.processes offset))

/-- The namespaces whose collectors page. -/
def pagesItself : NamespaceName → Bool
  | .process | .file | .logEvent => true
  | _ => false

theorem inventory_rows (h : pagesItself params.namespace_ = false) :
    inventory texts s params requested limit start =
      rowInventory texts s params requested start.offset limit := by
  rw [inventory]
  cases hns : params.namespace_ <;> first | rfl | (rw [hns] at h; cases h)

theorem remaining_rows (h : pagesItself params.namespace_ = false) {collected : Collected}
    (hcollected : collectRows s params requested = .ok collected) (offset : ℕ) (upper : Option ℕ) :
    remaining texts s params requested offset upper =
      ((sortRows texts params collected.rows).drop offset).map .row := by
  rw [remaining, hcollected]
  cases hns : params.namespace_ <;> first | rfl | (rw [hns] at h; cases h)

theorem remaining_file (h : params.namespace_ = .file) {root : Option Tree}
    (hroot : v2_scope_root s params = .ok root) (offset : ℕ) (upper : Option ℕ) :
    remaining texts s params requested offset upper = ((scopeFiles root).drop offset).map .file := by
  rw [remaining, h, hroot]
  rfl

theorem remaining_log (h : params.namespace_ = .logEvent) {hours : ℤ}
    (hhours : sinceHours params = .ok hours) (offset : ℕ) (upper : Option ℕ) :
    remaining texts s params requested offset upper =
      ((windowRecords texts.log s.logs (cutoffOf s hours)).drop offset).map fun e => .log e.1 e.2 := by
  rw [remaining, h, hhours]
  rfl

theorem remaining_process (h : params.namespace_ = .process) (offset : ℕ) (upper : Option ℕ) :
    remaining texts s params requested offset upper =
      (processesBetween s.processes offset (upper.getD (lastPid s.processes offset))).map .process := by
  rw [remaining, h]

/-- No deadline comes while the log window of the request is read. -/
def LogsUnhurried (s : Snapshot) (params : EnumerateParams) : Prop :=
  params.namespace_ = .logEvent → ∀ hours, sinceHours params = .ok hours →
    Unhurried s.deadline s.logs (cutoffOf s hours)

theorem inventory_spec (hmin : 1 ≤ limit) (hmax : limit ≤ 500)
    (hlog : LogsUnhurried s params ∨ inv.partial_ = false)
    (h : inventory texts s params requested limit start = .ok inv) :
    PageRead texts s params requested limit start.offset start.upperBound inv := by
  by_cases hrows : pagesItself params.namespace_ = false
  · rw [inventory_rows hrows] at h
    obtain ⟨collected, hcollected, -⟩ := bind_ok.1 h
    obtain ⟨hswept, hupper, hnext, hmoved⟩ := rowInventory_spec hcollected hmin hmax h
    have hns : params.namespace_ ≠ .process := by
      intro hns
      rw [hns] at hrows
      cases hrows
    refine ⟨?_, ?_, fun _ => hmoved, fun _ => ⟨hupper, hnext⟩, fun h => absurd h hns⟩
    · rw [remaining_rows hrows hcollected]
      exact Swept.map_id hswept .row fun _ => rfl
    · rw [remaining_rows hrows hcollected, remaining_rows hrows hcollected, hnext, ← List.map_drop,
        List.drop_drop]
  rw [inventory] at h
  cases hns : params.namespace_ with
  | process =>
    rw [hns] at h
    obtain ⟨_, -, h⟩ := bind_ok.1 h
    obtain ⟨_, -, h⟩ := bind_ok.1 h
    obtain ⟨inv, hinv, h⟩ := bind_ok.1 h
    rw [pure_ok] at h
    subst h
    obtain ⟨hswept, hupper, hnext, hfull⟩ := v2_process_inventory_spec hmin hinv
    refine ⟨?_, ?_, fun hnever hc => hswept.moved hmin (hfull hnever hc), fun h => absurd hns h,
      fun _ => ⟨hupper, fun hpositive => ?_⟩⟩
    rotate_right
    · exact hnext ▸ lastVisited_le hpositive hswept.le
    · rw [remaining_process hns]
      exact Swept.map hswept .process (withMaps s requested) fun _ => rfl
    · rw [remaining_process hns, remaining_process hns, hupper, hnext, Option.getD_some,
        processesBetween_drop s.processes_nodup, List.map_drop]
  | file =>
    rw [hns] at h
    obtain ⟨_, -, h⟩ := bind_ok.1 h
    obtain ⟨root, hroot, h⟩ := bind_ok.1 h
    obtain ⟨hswept, hupper, hnext, hfull⟩ := v2_file_inventory_spec hmin h
    refine ⟨?_, ?_, fun hnever hc => hswept.moved hmin (hfull hnever hc), fun _ => ⟨hupper, hnext⟩,
      fun h => ?_⟩
    rotate_right
    · rw [hns] at h
      cases h
    · rw [remaining_file hns hroot]
      exact Swept.map_id hswept .file fun _ => rfl
    · rw [remaining_file hns hroot, remaining_file hns hroot, hnext, ← List.map_drop, List.drop_drop]
  | logEvent =>
    rw [hns] at h
    obtain ⟨hours, hhours, h⟩ := bind_ok.1 h
    obtain ⟨_, -, h⟩ := bind_ok.1 h
    obtain ⟨hswept, hupper, hnext, hfull⟩ := v2_log_event_inventory_spec h
      (hlog.imp_left fun hunhurried => hunhurried hns hours hhours)
    refine ⟨?_, ?_, fun _ hc => hswept.moved hmin (hfull hc), fun _ => ⟨hupper, hnext⟩, fun h => ?_⟩
    rotate_right
    · rw [hns] at h
      cases h
    · rw [remaining_log hns hhours]
      exact Swept.map_id hswept (fun e => .log e.1 e.2) fun _ => rfl
    · rw [remaining_log hns hhours, remaining_log hns hhours, hnext, ← List.map_drop, List.drop_drop]
  | _ => exact absurd (by rw [hns]; rfl) hrows

end

/-! ### One page -/

section

variable {texts : Texts} {epochId : String} {m : Moment} {params : EnumerateParams}
  {token : Option CursorToken} {page : EnumeratePage} {requested : List String}

/-- What a page goes through. -/
structure Enumerated (texts : Texts) (epochId : String) (m : Moment) (params : EnumerateParams)
    (token : Option CursorToken) (requested : List String) (limit : ℕ) (start : Start) (inv : Inventory)
    (objects : List Normalizer.WireObservation) (page : EnumeratePage) : Prop where
  enumerable : enumerable params.namespace_ = true
  fields : v2_requested_fields params = .ok requested
  pageSize : pageLimit params = .ok limit
  predicate : checkPredicate params = .ok ()
  begins : v2_cursor_start texts epochId m.start params (toleratesDrift params.namespace_) token =
    .ok start
  collected : inventory texts m.collected params requested limit start = .ok inv
  sort : params.sort.length ≤ 3
  reported : reports (report m.collected.observedAt params.namespace_ requested) inv.rows = .ok objects
  finished : finishPage texts m params start inv objects = .ok page

theorem v2_enumerate_ok :
    v2_enumerate texts epochId m params token = .ok page ↔
      ∃ requested limit start inv objects,
        Enumerated texts epochId m params token requested limit start inv objects page := by
  constructor
  · intro h
    obtain ⟨_, -, h⟩ := bind_ok.1 h
    obtain ⟨_, henumerable, h⟩ := bind_ok.1 h
    obtain ⟨requested, hrequested, h⟩ := bind_ok.1 h
    obtain ⟨limit, hlimit, h⟩ := bind_ok.1 h
    obtain ⟨_, hpredicate, h⟩ := bind_ok.1 h
    obtain ⟨start, hstart, h⟩ := bind_ok.1 h
    obtain ⟨inv, hinv, h⟩ := bind_ok.1 h
    obtain ⟨_, hsort, h⟩ := bind_ok.1 h
    obtain ⟨objects, hobjects, h⟩ := bind_ok.1 h
    exact ⟨requested, limit, start, inv, objects, require_ok.1 henumerable, hrequested, hlimit,
      hpredicate, hstart, hinv, of_decide_eq_true (require_ok.1 hsort), hobjects, h⟩
  · rintro ⟨requested, limit, start, inv, objects, henumerable, hrequested, hlimit, hpredicate, hstart,
      hinv, hsort, hobjects, h⟩
    have hioc : params.namespace_ ≠ .taskIoc := by
      intro hns
      rw [hns] at henumerable
      cases henumerable
    exact bind_ok.2 ⟨(), require_ok.2 (decide_eq_true hioc), bind_ok.2 ⟨(), require_ok.2 henumerable,
      bind_ok.2 ⟨requested, hrequested, bind_ok.2 ⟨limit, hlimit, bind_ok.2 ⟨(), hpredicate,
      bind_ok.2 ⟨start, hstart, bind_ok.2 ⟨inv, hinv, bind_ok.2 ⟨(), require_ok.2
      (decide_eq_true hsort), bind_ok.2 ⟨objects, hobjects, h⟩⟩⟩⟩⟩⟩⟩⟩⟩

theorem pageLimit_ok {limit : ℕ} (h : pageLimit params = .ok limit) : 1 ≤ limit ∧ limit ≤ 500 := by
  rw [pageLimit] at h
  cases hint : safe_int params.limit 1 500 "limit" with
  | error error =>
    rw [hint] at h
    cases h
  | ok n =>
    rw [hint] at h
    cases h
    rw [safe_int, orThrow_ok, Option.map_eq_some_iff] at hint
    obtain ⟨q, hq, rfl⟩ := hint
    have hrange := (Option.filter_eq_some_iff.1 hq).2
    rw [decide_eq_true_iff] at hrange
    omega

theorem v2_cursor_start_ok {s : Snapshot} {tolerate : Bool} {start : Start}
    (h : v2_cursor_start texts epochId s params tolerate token = .ok start) :
    start.offset = token.elim 0 (fun token => token.body.offset) ∧
      start.upperBound = token.bind (fun token => token.body.upperBound) ∧
      v2_source_generation texts s params = .ok start.sourceGeneration ∧
      start.binding = texts.bindingDigest epochId params ∧ start.offset ≤ maxCursorOffset ∧
      start.sourceChanged = token.any fun token => token.body.sourceGeneration ≠ start.sourceGeneration := by
  obtain ⟨generation, hgeneration, h⟩ := bind_ok.1 h
  cases token with
  | none =>
    cases h
    exact ⟨rfl, rfl, hgeneration, rfl, Nat.zero_le _, rfl⟩
  | some token =>
    obtain ⟨_, -, h⟩ := bind_ok.1 h
    obtain ⟨_, -, h⟩ := bind_ok.1 h
    obtain ⟨_, -, h⟩ := bind_ok.1 h
    obtain ⟨_, hoffset, h⟩ := bind_ok.1 h
    rw [pure_ok] at h
    subst h
    exact ⟨rfl, rfl, hgeneration, rfl, of_decide_eq_true (require_ok.1 hoffset), rfl⟩

theorem finishPage_ok {start : Start} {inv : Inventory} {objects : List Normalizer.WireObservation}
    (h : finishPage texts m params start inv objects = .ok page) :
    page.objects = objects ∧ page.scan.scannedCount = inv.scannedCount ∧
      page.scan.complete = inv.complete ∧ page.scan.returnedCount = objects.length ∧
      (page.cursor = none ↔ inv.complete = true) ∧
      ∀ token ∈ page.cursor, ∃ current, v2_source_generation texts m.finish params = .ok current ∧
        token = v2_encode_cursor texts {
          namespace_ := params.namespace_, offset := inv.nextOffset, binding := start.binding,
          sourceGeneration := current, upperBound := inv.upperBound } := by
  obtain ⟨current, hcurrent, h⟩ := bind_ok.1 h
  obtain ⟨_, -, h⟩ := bind_ok.1 h
  rw [pure_ok] at h
  subst h
  refine ⟨rfl, rfl, rfl, rfl, ?_, ?_⟩
  · cases inv.complete <;> simp
  · intro token htoken
    refine ⟨current, hcurrent, ?_⟩
    cases hc : inv.complete with
    | true => simp [hc] at htoken
    | false => simpa [hc, eq_comm] using htoken

/-- Looking and reporting one entry at a time. -/
theorem collect_report {s : Snapshot} {entries : List Entry} {rows : List Payload}
    {objects : List Normalizer.WireObservation}
    (hrows : Chain.collect (Entry.look texts s params requested) entries = .ok rows)
    (h : reports (report s.observedAt params.namespace_ requested) rows = .ok objects) :
    Chain.collect (Entry.report texts s params requested) entries = .ok objects := by
  induction entries generalizing rows objects with
  | nil =>
    cases hrows
    cases h
    rfl
  | cons entry entries ih =>
    obtain ⟨first, hfirst, rest, hrest, rfl⟩ := Chain.collect_cons.1 hrows
    cases first with
    | none =>
      refine Chain.collect_cons.2 ⟨none, ?_, objects, ih hrest h, rfl⟩
      exact bind_ok.2 ⟨none, hfirst, rfl⟩
    | some row =>
      obtain ⟨object, hobject, h⟩ := bind_ok.1 h
      obtain ⟨others, hothers, h⟩ := bind_ok.1 h
      rw [pure_ok] at h
      subst h
      refine Chain.collect_cons.2 ⟨some object, ?_, others, ih hrest hothers, rfl⟩
      refine bind_ok.2 ⟨some row, hfirst, ?_⟩
      simp only [hobject]
      rfl

/-- No collector reports that something could not be read. -/
def EnumeratePage.Whole (page : EnumeratePage) : Prop := ∀ gap ∈ page.gaps, gap.code ≠ "COLLECTOR_ERROR"

theorem finishPage_whole {start : Start} {inv : Inventory} {objects : List Normalizer.WireObservation}
    (h : finishPage texts m params start inv objects = .ok page) (hwhole : page.Whole) :
    inv.partial_ = false := by
  obtain ⟨current, -, h⟩ := bind_ok.1 h
  obtain ⟨_, -, h⟩ := bind_ok.1 h
  rw [pure_ok] at h
  subst h
  cases hpartial : inv.partial_ with
  | false => rfl
  | true =>
    have hmem : collectorErrorGap inv.warnings ∈ pageGaps inv := by
      rw [pageGaps, hpartial]
      exact List.mem_append_left _ (List.mem_cons_self ..)
    exact absurd rfl (hwhole _ (List.mem_append_left _ hmem))

/-- A page serves the front of what its cursor leaves. -/
theorem v2_enumerate_serves (hfields : v2_requested_fields params = .ok requested)
    (hlog : LogsUnhurried m.collected params ∨ page.Whole)
    (h : v2_enumerate texts epochId m params token = .ok page) :
    ∃ visited, Chain.Serves (Entry.report texts m.collected params requested)
      (unread texts m.collected params requested) EnumeratePage.objects (·.scan.scannedCount)
      EnumeratePage.cursor token page visited := by
  obtain ⟨requested', limit, start, inv, objects, h⟩ := v2_enumerate_ok.1 h
  have hsame := h.fields
  rw [hfields] at hsame
  cases hsame
  obtain ⟨hmin, hmax⟩ := pageLimit_ok h.pageSize
  obtain ⟨hoffset, hupper, -⟩ := v2_cursor_start_ok h.begins
  obtain ⟨hobjects, hscanned, -, -, hcursor, hnext⟩ := finishPage_ok h.finished
  obtain ⟨hswept, hrest, -⟩ := inventory_spec hmin hmax
    (hlog.imp_right (finishPage_whole h.finished)) h.collected
  rw [hoffset, hupper] at hswept hrest
  refine ⟨(unread texts m.collected params requested token).take inv.scannedCount, ?_, ?_, ?_, ?_⟩
  · rw [hobjects]
    exact collect_report hswept.found h.reported
  · exact hscanned.trans (List.length_take_of_le hswept.le).symm
  · intro hnone
    rw [hswept.whole (hcursor.1 hnone)]
    exact List.take_length.symm
  · intro token' htoken'
    obtain ⟨current, -, rfl⟩ := hnext token' htoken'
    have hafter : unread texts m.collected params requested (some (v2_encode_cursor texts {
        namespace_ := params.namespace_, offset := inv.nextOffset, binding := start.binding,
        sourceGeneration := current, upperBound := inv.upperBound })) =
        (unread texts m.collected params requested token).drop inv.scannedCount := hrest
    rw [hafter, List.take_append_drop]

end

end HuntWarden.Helper.Enumerate
