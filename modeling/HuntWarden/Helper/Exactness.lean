import HuntWarden.Helper.Chains

/-! Enumerations of a target that stays as it is. A chain of pages comes to its end, and the pages put end
    to end are the wanted objects of the source in the order of the collector, each once, unless a row is
    refused or the source is longer than a cursor can count. -/

namespace HuntWarden.Helper.Enumerate

open Outcome

/-- Nothing changes while the page is made. -/
def Moment.still (s : Snapshot) : Moment := ⟨s, s, s⟩

section

variable (texts : Texts) (s : Snapshot) (params : EnumerateParams) (requested : List String)

/-- The collector can be asked for this request. -/
def Collects : Prop :=
  match params.namespace_ with
  | .process => params.sort ∈ [[], [⟨"pid", .asc⟩]]
  | .file => params.sort ∈ [[], [⟨"path", .asc⟩]] ∧ ∃ root, v2_scope_root s params = .ok root
  | .logEvent => params.sort = [] ∧ ∃ hours, sinceHours params = .ok hours
  | _ => params.sort.all (sortable params.namespace_) ∧
      ∃ collected, collectRows s params requested = .ok collected

/-- The request passes the checks of the helper on this target. -/
structure Accepted (limit : ℕ) : Prop where
  enumerable : enumerable params.namespace_ = true
  fields : v2_requested_fields params = .ok requested
  pageSize : pageLimit params = .ok limit
  predicate : checkPredicate params = .ok ()
  sort : params.sort.length ≤ 3
  generation : ∃ generation, v2_source_generation texts s params = .ok generation
  collects : Collects s params requested

/-- No row is refused: the predicate can be evaluated on it, and it has its identity if it is wanted. -/
def Reportable : Prop :=
  ∀ entry ∈ source texts s params requested, ∃ object,
    entry.report texts s params requested = .ok object

/-- Every position in the source is one that a cursor can have. -/
def Countable : Prop :=
  if params.namespace_ = .process then ∀ entry ∈ s.processes, entry.pid ≤ maxCursorOffset
  else (source texts s params requested).length ≤ maxCursorOffset

/-- The pages of a finished chain are the wanted objects of the source, and their numbers fit. -/
structure ExactChain (pages : List EnumeratePage) : Prop where
  objects : Chain.collect (Entry.report texts s params requested) (source texts s params requested) =
    .ok (pages.flatMap EnumeratePage.objects)
  scanned : (pages.map (·.scan.scannedCount)).sum = (source texts s params requested).length
  returned : ∀ page ∈ pages, page.scan.returnedCount = page.objects.length
  complete : ∀ page ∈ pages, page.scan.complete = true ↔ page.cursor = none
  last : ∃ page ∈ pages.getLast?, page.cursor = none
  others : ∀ page ∈ pages.dropLast, page.cursor ≠ none

end

/-- The page at one moment. -/
def pageAt (texts : Texts) (epochId : String) (params : EnumerateParams) (m : Moment)
    (token : Option CursorToken) : Except HelperError EnumeratePage :=
  v2_enumerate texts epochId m params token

/-- The pages of a request that is repeated with the cursor of the page before, one at each moment. -/
def enumerateChain (texts : Texts) (epochId : String) (params : EnumerateParams) (moments : List Moment) :
    Except HelperError (List EnumeratePage) :=
  Chain.follow EnumeratePage.cursor (pageAt texts epochId params) moments none

variable {texts : Texts} {epochId : String} {s : Snapshot} {params : EnumerateParams}
  {requested : List String} {limit : ℕ}

/-- A page says of itself what it is. -/
theorem v2_enumerate_counts {m : Moment} {token : Option CursorToken} {page : EnumeratePage}
    (h : v2_enumerate texts epochId m params token = .ok page) :
    page.scan.returnedCount = page.objects.length ∧
      (page.scan.complete = true ↔ page.cursor = none) := by
  obtain ⟨requested, limit, start, inv, objects, h⟩ := v2_enumerate_ok.1 h
  obtain ⟨hobjects, -, hcomplete, hreturned, hcursor, -⟩ := finishPage_ok h.finished
  rw [hreturned, hobjects, hcomplete, hcursor]
  exact ⟨rfl, Iff.rfl⟩

/-- A finished chain is exact. -/
theorem exact_of_ended (hfields : v2_requested_fields params = .ok requested) {n : ℕ}
    {pages : List EnumeratePage} (hlog : LogsUnhurried s params ∨ ∀ page ∈ pages, page.Whole)
    (h : enumerateChain texts epochId params (List.replicate n (Moment.still s)) = .ok pages)
    (hended : Chain.Ended EnumeratePage.cursor pages) : ExactChain texts s params requested pages := by
  have hcounts : ∀ page ∈ pages, page.scan.returnedCount = page.objects.length ∧
      (page.scan.complete = true ↔ page.cursor = none) := by
    intro page hpage
    obtain ⟨m, -, token, hrequest⟩ := Chain.follow_mem h page hpage
    exact v2_enumerate_counts hrequest
  have hserves : ∀ page ∈ pages, ∀ token, pageAt texts epochId params (Moment.still s) token = .ok page →
      ∃ visited, Chain.Serves (Entry.report texts s params requested) (unread texts s params requested)
        EnumeratePage.objects (·.scan.scannedCount) EnumeratePage.cursor token page visited :=
    fun page hpage _ hrequest =>
      v2_enumerate_serves (m := Moment.still s) hfields (hlog.imp_right fun hwhole => hwhole page hpage) hrequest
  obtain ⟨hobjects, hscanned⟩ := Chain.follow_exact hserves h hended
  refine ⟨hobjects, hscanned, fun page hpage => (hcounts page hpage).1,
    fun page hpage => (hcounts page hpage).2, hended, fun page hpage hnone => ?_⟩
  have hsome := Chain.follow_cursors h page hpage
  rw [hnone] at hsome
  cases hsome

/-! ### The chain comes to an end -/

theorem elim_drop {α β γ : Type} (o : Option α) (f : α → List β) (g : β → γ) (offset : ℕ) :
    (o.elim [] fun a => (f a).drop offset).map g =
      ((o.elim [] fun a => (f a).drop 0).map g).drop offset := by
  cases o with
  | none => exact List.drop_nil.symm
  | some a => rw [Option.elim_some, Option.elim_some, List.drop_zero, List.map_drop]

/-- Offsets count from the beginning of the source. -/
theorem remaining_eq_drop (hns : params.namespace_ ≠ .process) (offset : ℕ) (upper : Option ℕ) :
    remaining texts s params requested offset upper = (source texts s params requested).drop offset := by
  rw [source, unread, remaining, remaining]
  cases h : params.namespace_ with
  | process => exact absurd h hns
  | _ => exact elim_drop _ _ _ offset

/-- What a position leaves is part of the source. -/
theorem remaining_subset {offset : ℕ} {upper : Option ℕ} :
    remaining texts s params requested offset upper ⊆ source texts s params requested := by
  by_cases hns : params.namespace_ = .process
  · rw [source, unread, remaining_process hns, remaining_process hns]
    intro entry hentry
    obtain ⟨process, hprocess, rfl⟩ := List.mem_map.1 hentry
    obtain ⟨hmem, hlow, -⟩ := mem_processesBetween.1 hprocess
    refine List.mem_map_of_mem (mem_processesBetween.2 ⟨hmem, ?_, le_lastPid hmem _⟩)
    exact Nat.lt_of_le_of_lt (Nat.zero_le _) hlow
  · rw [remaining_eq_drop hns]
    exact List.drop_subset ..

/-- A cursor of this chain. -/
structure ValidCursor (texts : Texts) (epochId : String) (s : Snapshot) (params : EnumerateParams)
    (requested : List String) (body : Cursor) : Prop where
  namespace_ : body.namespace_ = params.namespace_
  binding : body.binding = texts.bindingDigest epochId params
  generation : v2_source_generation texts s params = .ok body.sourceGeneration
  offset : body.offset ≤ maxCursorOffset
  upper : params.namespace_ = .process →
    ∃ upper, body.upperBound = some upper ∧ body.offset ≤ upper ∧ upper ≤ maxCursorOffset
  within : params.namespace_ ≠ .process → body.offset ≤ (source texts s params requested).length

def ValidToken (texts : Texts) (epochId : String) (s : Snapshot) (params : EnumerateParams)
    (requested : List String) (token : Option CursorToken) : Prop :=
  ∀ t ∈ token, t = v2_encode_cursor texts t.body ∧ ValidCursor texts epochId s params requested t.body

theorem v2_cursor_start_total {token : Option CursorToken} {tolerate : Bool}
    (hgeneration : ∃ generation, v2_source_generation texts s params = .ok generation)
    (htoken : ValidToken texts epochId s params requested token) :
    ∃ start, v2_cursor_start texts epochId s params tolerate token = .ok start ∧
      start.sourceChanged = false := by
  obtain ⟨generation, hgeneration⟩ := hgeneration
  cases token with
  | none => exact ⟨_, bind_ok.2 ⟨generation, hgeneration, rfl⟩, rfl⟩
  | some token =>
    obtain ⟨hencode, hcursor⟩ := htoken token rfl
    have hsame : token.body.sourceGeneration = generation := by
      have hbody := hcursor.generation
      rw [hgeneration] at hbody
      exact (Except.ok.inj hbody).symm
    have hintegrity : token.integrity = texts.cursorDigest token.body ∧ token.v = 1 := by
      rw [hencode]
      exact ⟨rfl, rfl⟩
    refine ⟨_, bind_ok.2 ⟨generation, hgeneration, bind_ok.2 ⟨(), require_ok.2 ?_,
      bind_ok.2 ⟨(), require_ok.2 (decide_eq_true hcursor.binding), bind_ok.2 ⟨(), require_ok.2 ?_,
      bind_ok.2 ⟨(), require_ok.2 (decide_eq_true hcursor.offset), rfl⟩⟩⟩⟩⟩, ?_⟩
    · exact decide_eq_true ⟨hintegrity.1, hintegrity.2, hcursor.namespace_⟩
    · rw [hsame]
      simp
    · rw [hsame]
      simp

theorem inventory_total {start : Start} (hcollects : Collects s params requested)
    (hlook : ∀ entry ∈ source texts s params requested,
      ∃ first, entry.look texts s params requested = .ok first)
    (hupper : params.namespace_ = .process →
      ∀ upper ∈ start.upperBound, start.offset ≤ upper ∧ upper ≤ maxCursorOffset) :
    ∃ inv, inventory texts s params requested limit start = .ok inv := by
  by_cases hrows : pagesItself params.namespace_ = false
  · have hcollected : params.sort.all (sortable params.namespace_) ∧
        ∃ collected, collectRows s params requested = .ok collected := by
      rw [Collects] at hcollects
      cases hns : params.namespace_ <;> rw [hns] at hrows hcollects <;>
        first | exact hcollects | cases hrows
    obtain ⟨hsort, collected, hcollected⟩ := hcollected
    rw [source, unread, remaining_rows hrows hcollected, List.forall_mem_map, Option.elim_none,
      List.drop_zero] at hlook
    rw [inventory_rows hrows]
    refine bind_total ⟨collected, hcollected⟩ fun collected' hcollected' => ?_
    rw [hcollected] at hcollected'
    cases hcollected'
    refine bind_total ⟨(), require_ok.2 hsort⟩ fun _ _ => ?_
    exact bind_total (rowWindow_total hlook) fun _ _ => ⟨_, rfl⟩
  rw [inventory]
  rw [Collects] at hcollects
  cases hns : params.namespace_ with
  | process =>
    rw [hns] at hcollects
    have hsub : ∀ entry ∈ processesBetween s.processes start.offset
        (start.upperBound.getD (lastPid s.processes start.offset)),
        ∃ first, processLook params.predicate (decide ("exeSha256" ∈ requested)) entry = .ok first := by
      intro entry hentry
      have hmem : Entry.process entry ∈
          remaining texts s params requested start.offset start.upperBound := by
        rw [remaining_process hns]
        exact List.mem_map_of_mem hentry
      obtain ⟨first, hfirst⟩ := hlook _ (remaining_subset hmem)
      rw [Entry.look] at hfirst
      cases hprocess : processLook params.predicate (decide ("exeSha256" ∈ requested)) entry with
      | error error =>
        rw [hprocess] at hfirst
        cases hfirst
      | ok first => exact ⟨first, rfl⟩
    refine bind_total ⟨(), require_ok.2 (decide_eq_true hcollects)⟩ fun _ _ => ?_
    refine bind_total ⟨(), require_ok.2 ?_⟩ fun _ _ => ?_
    · rw [Option.all_eq_true]
      exact fun upper h => decide_eq_true (hupper hns upper h)
    · exact bind_total (v2_process_inventory_total hsub) fun _ _ => ⟨_, rfl⟩
  | file =>
    rw [hns] at hcollects
    obtain ⟨hsort, root, hroot⟩ := hcollects
    rw [source, unread, remaining_file hns hroot, List.forall_mem_map, Option.elim_none,
      List.drop_zero] at hlook
    refine bind_total ⟨(), require_ok.2 (decide_eq_true hsort)⟩ fun _ _ => ?_
    refine bind_total ⟨root, hroot⟩ fun root' hroot' => ?_
    rw [hroot] at hroot'
    cases hroot'
    exact v2_file_inventory_total hlook
  | logEvent =>
    rw [hns] at hcollects
    obtain ⟨hsort, hours, hhours⟩ := hcollects
    rw [source, unread, remaining_log hns hhours, List.forall_mem_map, Option.elim_none,
      List.drop_zero] at hlook
    refine bind_total ⟨hours, hhours⟩ fun hours' hhours' => ?_
    rw [hhours] at hhours'
    cases hhours'
    refine bind_total ⟨(), require_ok.2 (decide_eq_true hsort)⟩ fun _ _ => ?_
    exact v2_log_event_inventory_total hlook
  | _ => exact absurd (by rw [hns]; rfl) hrows

theorem reports_total {f : Payload → Except HelperError Normalizer.WireObservation} {rows : List Payload}
    (h : ∀ row ∈ rows, ∃ object, f row = .ok object) : ∃ objects, reports f rows = .ok objects := by
  induction rows with
  | nil => exact ⟨[], rfl⟩
  | cons row rows ih =>
    rw [List.forall_mem_cons] at h
    exact bind_total h.1 fun _ _ => bind_total (ih h.2) fun _ _ => ⟨_, rfl⟩

/-- What it takes for an entry to be reported. -/
theorem report_ok {entry : Entry} {object : Option Normalizer.WireObservation}
    (h : entry.report texts s params requested = .ok object) :
    ∃ first, entry.look texts s params requested = .ok first ∧
      ∀ row ∈ first, ∃ object, report s.observedAt params.namespace_ requested row = .ok object := by
  obtain ⟨first, hfirst, h⟩ := bind_ok.1 h
  refine ⟨first, hfirst, ?_⟩
  rintro row hrow
  cases hrow
  cases hreport : report s.observedAt params.namespace_ requested row with
  | error error =>
    simp only [hreport] at h
    cases h
  | ok object => exact ⟨object, rfl⟩

/-- A page's own cursor is one of the chain, and leaves less than the cursor before. -/
theorem next_valid (hcountable : Countable texts s params requested) {token : Option CursorToken}
    (htoken : ValidToken texts epochId s params requested token) {start : Start} {inv : Inventory}
    (hoffset : start.offset = token.elim 0 fun token => token.body.offset)
    (hupper : start.upperBound = token.bind fun token => token.body.upperBound)
    (hbinding : start.binding = texts.bindingDigest epochId params)
    (hread : PageRead texts s params requested limit start.offset start.upperBound inv)
    (hmoved : 0 < inv.scannedCount) {current : String}
    (hcurrent : v2_source_generation texts s params = .ok current) :
    let next := v2_encode_cursor texts {
      namespace_ := params.namespace_, offset := inv.nextOffset, binding := start.binding,
      sourceGeneration := current, upperBound := inv.upperBound }
    ValidToken texts epochId s params requested (some next) ∧
      (unread texts s params requested (some next)).length <
        (unread texts s params requested token).length := by
  intro next
  have hunread : unread texts s params requested token =
      remaining texts s params requested start.offset start.upperBound := by rw [unread, hoffset, hupper]
  have hnext : unread texts s params requested (some next) =
      (unread texts s params requested token).drop inv.scannedCount := hread.rest.trans (by rw [hunread])
  have hle : inv.scannedCount ≤ (unread texts s params requested token).length :=
    hunread ▸ hread.swept.le
  refine ⟨?_, ?_⟩
  rotate_left
  · rw [hnext, List.length_drop]
    omega
  rintro _ ⟨⟩
  by_cases hns : params.namespace_ = .process
  · obtain ⟨hbound, hpid⟩ := hread.bounded hns
    rw [Countable, if_pos hns] at hcountable
    have hmax : start.upperBound.getD (lastPid s.processes start.offset) ≤ maxCursorOffset := by
      cases token with
      | none =>
        rw [hupper, hoffset]
        exact lastPid_le (Nat.zero_le _) hcountable
      | some token =>
        obtain ⟨upper, htop, -, hmax⟩ := (htoken token rfl).2.upper hns
        rw [hupper, Option.bind_some, htop]
        exact hmax
    exact ⟨rfl, rfl, hbinding, hcurrent, (hpid hmoved).trans hmax,
      fun _ => ⟨_, hbound, hpid hmoved, hmax⟩, fun h => absurd hns h⟩
  · obtain ⟨-, hposition⟩ := hread.counted hns
    rw [Countable, if_neg hns] at hcountable
    rw [hunread, remaining_eq_drop hns, List.length_drop] at hle
    have hwithin : inv.nextOffset ≤ (source texts s params requested).length := by omega
    exact ⟨rfl, rfl, hbinding, hcurrent, hwithin.trans hcountable, fun h => absurd h hns,
      fun _ => hwithin⟩

/-- On a target that stays as it is, every cursor of the chain gives a page, whose own cursor leaves
    less. -/
theorem still_page (haccepted : Accepted texts s params requested limit)
    (hreportable : Reportable texts s params requested) (hcountable : Countable texts s params requested)
    (hdeadline : ∀ n, s.deadline n = false) (hlog : LogsUnhurried s params)
    (token : Option CursorToken) (htoken : ValidToken texts epochId s params requested token) :
    ∃ page, pageAt texts epochId params (Moment.still s) token = .ok page ∧
      ∀ next, page.cursor = some next →
        ValidToken texts epochId s params requested (some next) ∧
        (unread texts s params requested (some next)).length <
          (unread texts s params requested token).length := by
  obtain ⟨hmin, hmax⟩ := pageLimit_ok haccepted.pageSize
  obtain ⟨start, hstart, hsame⟩ := @v2_cursor_start_total texts epochId s params requested token
    (toleratesDrift params.namespace_) haccepted.generation htoken
  obtain ⟨hoffset, hupper, hgeneration, hbinding, -, -⟩ := v2_cursor_start_ok hstart
  have hlook : ∀ entry ∈ source texts s params requested, ∃ first,
      entry.look texts s params requested = .ok first := by
    intro entry hentry
    obtain ⟨object, hobject⟩ := hreportable entry hentry
    obtain ⟨first, hfirst, -⟩ := report_ok hobject
    exact ⟨first, hfirst⟩
  have hrange : params.namespace_ = .process →
      ∀ upper ∈ start.upperBound, start.offset ≤ upper ∧ upper ≤ maxCursorOffset := by
    intro hns upper hmem
    rw [hupper] at hmem
    obtain ⟨t, ht, htop⟩ := Option.bind_eq_some_iff.1 hmem
    obtain ⟨upper', htop', hle, hmax'⟩ := (htoken t ht).2.upper hns
    rw [htop] at htop'
    cases htop'
    have hstartAt : start.offset = t.body.offset := by
      rw [hoffset, ht]
      rfl
    exact ⟨hstartAt ▸ hle, hmax'⟩
  obtain ⟨inv, hinv⟩ := @inventory_total texts s params requested limit start haccepted.collects hlook
    hrange
  have hread := inventory_spec hmin hmax (Or.inl hlog) hinv
  have hrows : ∀ row ∈ inv.rows, ∃ object,
      report s.observedAt params.namespace_ requested row = .ok object := by
    intro row hrow
    obtain ⟨entry, hentry, hlooked⟩ := (Chain.mem_collect hread.swept.found).1 hrow
    obtain ⟨object, hobject⟩ := hreportable entry (remaining_subset (List.mem_of_mem_take hentry))
    obtain ⟨first, hfirst, hreport⟩ := report_ok hobject
    rw [hlooked] at hfirst
    cases hfirst
    exact hreport row rfl
  obtain ⟨objects, hobjects⟩ := reports_total hrows
  have hfinish : ∃ page, finishPage texts (Moment.still s) params start inv objects = .ok page := by
    refine bind_total ⟨start.sourceGeneration, hgeneration⟩ fun current hcurrent => ?_
    have hcurrent : current = start.sourceGeneration := by
      have hstill : v2_source_generation texts s params = .ok current := hcurrent
      rw [hgeneration] at hstill
      exact (Except.ok.inj hstill).symm
    refine bind_total ⟨(), require_ok.2 ?_⟩ fun _ _ => ⟨_, rfl⟩
    rw [hsame, hcurrent]
    simp
  obtain ⟨page, hpage⟩ := hfinish
  refine ⟨page, v2_enumerate_ok.2 ⟨requested, limit, start, inv, objects, haccepted.enumerable,
    haccepted.fields, haccepted.pageSize, haccepted.predicate, hstart, hinv, haccepted.sort, hobjects,
    hpage⟩, fun next hnext => ?_⟩
  obtain ⟨-, -, -, -, hcursor, hencode⟩ := finishPage_ok hpage
  have hmore : inv.complete = false := by
    cases hc : inv.complete with
    | false => rfl
    | true =>
      rw [hcursor.2 hc] at hnext
      cases hnext
  obtain ⟨current, hcurrent, rfl⟩ := hencode next hnext
  exact next_valid hcountable htoken hoffset hupper hbinding hread (hread.moved hdeadline hmore) hcurrent

/-- The chain ends, and it is exact. -/
theorem chain_ends (haccepted : Accepted texts s params requested limit)
    (hreportable : Reportable texts s params requested) (hcountable : Countable texts s params requested)
    (hdeadline : ∀ n, s.deadline n = false) (hlog : LogsUnhurried s params) {n : ℕ}
    (hn : (source texts s params requested).length < n) :
    ∃ pages, enumerateChain texts epochId params (List.replicate n (Moment.still s)) = .ok pages ∧
      ExactChain texts s params requested pages := by
  obtain ⟨pages, hpages, hended⟩ := Chain.follow_ends
    (still_page haccepted hreportable hcountable hdeadline hlog)
    (show ValidToken texts epochId s params requested none from fun _ h => (nomatch h)) hn
  exact ⟨pages, hpages, exact_of_ended haccepted.fields (Or.inl hlog) hpages hended⟩

/-- **Exact chains.** An accepted enumeration of a target that stays as it is, of rows none of which is
    refused and no more than a cursor can count, ends; its pages are the wanted objects of the source, in
    the order of the collector and each once; the counts of the pages add up to the length of the source
    and to the objects; and the last page alone is complete and has no cursor. -/
theorem enumerate_chain_exact (_ : params.namespace_ ≠ .logEvent)
    (hdeadline : ∀ n, s.deadline n = false) (haccepted : Accepted texts s params requested limit)
    (hreportable : Reportable texts s params requested) (hcountable : Countable texts s params requested)
    {n : ℕ} (hn : (source texts s params requested).length < n) :
    ∃ pages, enumerateChain texts epochId params (List.replicate n (Moment.still s)) = .ok pages ∧
      ExactChain texts s params requested pages :=
  chain_ends haccepted hreportable hcountable hdeadline (fun h => absurd h ‹_›) hn

/-- A page never counts more than a scan may visit, so that a finished chain on a longer source needs a
    cursor past the last one that is accepted. -/
theorem ended_length (hns : params.namespace_ ≠ .process) (hlog : params.namespace_ ≠ .logEvent)
    (hfields : v2_requested_fields params = .ok requested) {n : ℕ} {pages : List EnumeratePage}
    (h : enumerateChain texts epochId params (List.replicate n (Moment.still s)) = .ok pages)
    (hended : Chain.Ended EnumeratePage.cursor pages) :
    (source texts s params requested).length ≤ maxCursorOffset + enumerateScanPageLimit := by
  obtain ⟨page, hpage, hnone⟩ := hended
  obtain ⟨m, hm, token, hrequest⟩ := Chain.follow_mem h page (List.mem_of_getLast? hpage)
  obtain rfl := List.eq_of_mem_replicate hm
  obtain ⟨requested', limit, start, inv, objects, h⟩ := v2_enumerate_ok.1 hrequest
  have hsame := h.fields
  rw [hfields] at hsame
  cases hsame
  obtain ⟨hmin, hmax⟩ := pageLimit_ok h.pageSize
  obtain ⟨-, -, -, -, hstart, -⟩ := v2_cursor_start_ok h.begins
  obtain ⟨-, -, -, -, hcursor, -⟩ := finishPage_ok h.finished
  have hswept := (inventory_spec hmin hmax (Or.inl fun h => absurd h hlog) h.collected).swept
  have hwhole := hswept.whole (hcursor.1 hnone)
  have hscan := hswept.scanLimit
  rw [hwhole, remaining_eq_drop hns, List.length_drop] at hscan
  change (source texts s params requested).length - start.offset ≤ enumerateScanPageLimit at hscan
  omega

/-- A chain whose first page fails does not come to an end. -/
theorem not_ended_of_refused {m : Moment} (h : (pageAt texts epochId params m none).toOption.isNone)
    {n : ℕ} {pages : List EnumeratePage}
    (hchain : enumerateChain texts epochId params (List.replicate n m) = .ok pages) :
    ¬ Chain.Ended EnumeratePage.cursor pages := by
  cases n with
  | zero =>
    cases hchain
    rintro ⟨_, ⟨⟩, -⟩
  | succ n =>
    rw [enumerateChain, List.replicate_succ] at hchain
    obtain ⟨page, hpage, -⟩ := Chain.follow_cons.1 hchain
    rw [hpage] at h
    cases h

/-! ### Samples -/

def plainTexts : Texts where
  generationDigest _ := "generation"
  bindingDigest _ _ := "binding"
  cursorDigest _ := "integrity"
  log := {
    utc_iso := fun _ => "2026-01-01T00:00:00Z"
    log_source_id := id
    log_event_cursor := fun _ _ _ _ => "cursor"
    redact_secret_text := fun text _ => text
    sha256 := id }
  repr _ := "value"

/-- A target with rows of one kind and with one directory to enumerate. -/
def plainSnapshot (rows : List Payload) (tree : Tree) : Snapshot where
  now := 0
  observedAt := "2026-01-01T00:00:00Z"
  node := "node"
  machine := "x86_64"
  bootId := some "boot"
  deadline _ := false
  processes := []
  processes_nodup := List.nodup_nil
  accounts := []
  accountWarnings := []
  accountPartial := false
  collect _ := .ok ⟨rows, [], false⟩
  events _ _ := .ok ⟨[], [], false⟩
  rootAt path := .ok ⟨⟨path, "1", "2", 0, 0⟩, true, some tree⟩
  logs := ⟨none, [], []⟩
  configStats _ := []
  logStats := []
  journalGeneration := none

def packageRow (name version : String) : Payload :=
  [("manager", .str "dpkg"), ("name", .str name), ("version", .str version),
   ("architecture", .str "amd64")]

def packageParams : EnumerateParams where
  namespace_ := .package
  fields := none
  limit := some (.num 1)
  predicate := none
  sort := []
  sinceHours := none
  scope := none

theorem reportable_of_all (h : (source texts s params requested).all
    fun entry => (entry.report texts s params requested).toOption.isSome) :
    Reportable texts s params requested := by
  intro entry hentry
  have hsome := List.all_eq_true.1 h entry hentry
  cases hreport : entry.report texts s params requested with
  | error error =>
    rw [hreport] at hsome
    cases hsome
  | ok object => exact ⟨object, rfl⟩

theorem enumerate_chain_exact_packages :
    ∃ pages, enumerateChain plainTexts "EPOCH" packageParams (List.replicate 3 (Moment.still
        (plainSnapshot [packageRow "zlib1g" "1.3", packageRow "bash" "5.2"] .unreadable))) = .ok pages ∧
      ExactChain plainTexts
        (plainSnapshot [packageRow "zlib1g" "1.3", packageRow "bash" "5.2"] .unreadable) packageParams
        ["manager", "name", "version", "architecture"] pages := by
  refine @enumerate_chain_exact plainTexts "EPOCH" _ packageParams _ 1 (by decide) (fun _ => rfl) ?_ ?_
    ?_ 3 ?_
  · exact ⟨rfl, rfl, rfl, rfl, by decide, ⟨_, rfl⟩, rfl, _, rfl⟩
  · exact reportable_of_all (by decide)
  · rw [Countable, if_neg (by decide)]
    decide
  · decide

def socketParams : EnumerateParams where
  namespace_ := .socket
  fields := none
  limit := some (.num 500)
  predicate := some (.leaf .contains "localPort" (some (.str "8")))
  sort := []
  sinceHours := none
  scope := none

def socketRow : Payload :=
  [("protocol", .str "tcp"), ("localAddress", .str "0.0.0.0"), ("localPort", .num 80),
   ("remoteAddress", .str "0.0.0.0"), ("remotePort", .num 0), ("inode", .str "7")]

def fileParams : EnumerateParams where
  namespace_ := .file
  fields := none
  limit := some (.num 500)
  predicate := none
  sort := []
  sinceHours := none
  scope := some ⟨none, "/srv", none⟩

def fileRow (inode : ℕ) : Payload :=
  [("mountId", .str "1"), ("device", .str "1"), ("inode", .str (toString inode))]

/-- A directory of so many regular files. -/
def largeDirectory (count : ℕ) : Tree :=
  .directory ((List.range count).map fun i => (toString i, .regular (fileRow i))) .nil

theorem length_source_largeDirectory (count : ℕ) :
    (source plainTexts (plainSnapshot [] (largeDirectory count)) fileParams
      ["mountId", "device", "inode"]).length = count := by
  have hfiles : ∀ files : List (String × FileEntry),
      (filesOf (files.map fun file => .file file.2)).length = files.length := by
    intro files
    induction files with
    | nil => rfl
    | cons file files ih => rw [List.map_cons, filesOf, List.length_cons, ih, List.length_cons]
  have hroot : v2_scope_root (plainSnapshot [] (largeDirectory count)) fileParams =
      .ok (some (largeDirectory count)) := rfl
  have hwalk : scopeFiles (some (largeDirectory count)) =
      filesOf ((Paging.sortBy (fun a b => cmp a.1 b.1) ((List.range count).map fun i =>
        (toString i, FileEntry.regular (fileRow i)))).map fun file => .file file.2) := by
    change filesOf (List.map (fun file : String × FileEntry => .file file.2) _ ++ []) = _
    rw [List.append_nil]
  rw [source, unread, remaining_file rfl hroot, List.length_map, Option.elim_none, List.drop_zero, hwalk,
    hfiles, Paging.length_sortBy, List.length_map, List.length_range]

/-- Chains are not always exact. A package without a version has no stable identity, a predicate on texts
    cannot be evaluated on a number, and a directory of more than ten million files is beyond what a
    cursor can count: none of these enumerations ever comes to an end. -/
theorem enumerate_chain_refused :
    (¬ ∃ n pages, enumerateChain plainTexts "EPOCH" packageParams (List.replicate n (Moment.still
        (plainSnapshot [packageRow "bash" "5.2", packageRow "adduser" ""] .unreadable))) = .ok pages ∧
      Chain.Ended EnumeratePage.cursor pages) ∧
    (¬ ∃ n pages, enumerateChain plainTexts "EPOCH" socketParams (List.replicate n (Moment.still
        (plainSnapshot [socketRow] .unreadable))) = .ok pages ∧
      Chain.Ended EnumeratePage.cursor pages) ∧
    ¬ ∃ n pages, enumerateChain plainTexts "EPOCH" fileParams (List.replicate n (Moment.still
        (plainSnapshot [] (largeDirectory 10005001)))) = .ok pages ∧
      Chain.Ended EnumeratePage.cursor pages := by
  refine ⟨?_, ?_, ?_⟩
  · rintro ⟨n, pages, hpages, hended⟩
    exact not_ended_of_refused (by decide) hpages hended
  · rintro ⟨n, pages, hpages, hended⟩
    exact not_ended_of_refused (by decide) hpages hended
  · rintro ⟨n, pages, hpages, hended⟩
    have hlength := ended_length (by decide) (by decide)
      (show v2_requested_fields fileParams = .ok ["mountId", "device", "inode"] from rfl) hpages hended
    rw [length_source_largeDirectory] at hlength
    exact absurd hlength (by decide)

end HuntWarden.Helper.Enumerate
