import HuntWarden.Helper.Exactness
import HuntWarden.Lib.JsonDump

/-! Enumerations of a target that changes between the pages. An offset is applied to rows that are
    collected anew, so that an object which stays is served once as long as it does not cross the cursor:
    the rows before it must neither become more nor fewer from one page to the next. -/

namespace HuntWarden.Helper.Enumerate

open Outcome

section

variable (texts : Texts) (s : Snapshot) (params : EnumerateParams) (requested : List String)

/-- The identity under which a page reports an entry; `none` when it does not. -/
def Entry.identity (entry : Entry) : Option Payload :=
  (entry.report texts s params requested).toOption.join.map (·.identity)

/-- How often an object is among these entries. -/
def occurrences (entries : List Entry) (identity : Payload) : ℕ :=
  (entries.map (Entry.identity texts s params requested)).count (some identity)

end

/-- The object is in the source, and in the window of the request, at all of these moments. -/
def Throughout (texts : Texts) (params : EnumerateParams) (requested : List String)
    (identity : Payload) (moments : List Moment) : Prop :=
  ∀ m ∈ moments, occurrences texts m.collected params requested
    (source texts m.collected params requested) identity = 1

/-- The object is after the cursor for the next page if it was when the cursor was made. -/
def Uncrossed (texts : Texts) (params : EnumerateParams) (requested : List String)
    (identity : Payload) (m m' : Moment) (token : CursorToken) : Prop :=
  occurrences texts m'.collected params requested
      (unread texts m'.collected params requested (some token)) identity =
    occurrences texts m.collected params requested
      (unread texts m.collected params requested (some token)) identity

/-- How often the pages return an object. -/
def returned (pages : List EnumeratePage) (identity : Payload) : ℕ :=
  ((pages.flatMap EnumeratePage.objects).map (·.identity)).count identity

/-- No page says that the source has changed. -/
def Silent (pages : List EnumeratePage) : Prop :=
  ∀ page ∈ pages, ∀ gap ∈ page.gaps, gap.code ≠ "SOURCE_CHANGED"

variable {texts : Texts} {epochId : String} {params : EnumerateParams} {requested : List String}

theorem identity_of_report {s : Snapshot} {entry : Entry} {object : Normalizer.WireObservation}
    (h : entry.report texts s params requested = .ok (some object)) :
    some object.identity = entry.identity texts s params requested := by
  rw [Entry.identity, h]
  rfl

theorem report_of_identity {s : Snapshot} {entry : Entry} {identity : Payload}
    (h : entry.identity texts s params requested = some identity) :
    ∃ object, entry.report texts s params requested = .ok (some object) := by
  rw [Entry.identity] at h
  cases hreport : entry.report texts s params requested with
  | error error =>
    rw [hreport] at h
    cases h
  | ok found =>
    rw [hreport] at h
    cases found with
    | none => cases h
    | some object => exact ⟨object, rfl⟩

/-- An object that is there throughout and that no cursor passes over is returned exactly once. -/
theorem returned_once (hfields : v2_requested_fields params = .ok requested) {identity : Payload}
    {m : Moment} {ms : List Moment} {pages : List EnumeratePage}
    (hlog : ∀ m' ∈ m :: ms, LogsUnhurried m'.collected params)
    (hthere : Throughout texts params requested identity (m :: ms))
    (hstays : Chain.Across EnumeratePage.cursor (pageAt texts epochId params)
      (Uncrossed texts params requested identity) (m :: ms) none)
    (h : enumerateChain texts epochId params (m :: ms) = .ok pages)
    (hended : Chain.Ended EnumeratePage.cursor pages) : returned pages identity = 1 := by
  have hserves : ∀ m' ∈ m :: ms, ∀ token page, pageAt texts epochId params m' token = .ok page →
      ∃ visited, Chain.Serves (Entry.report texts m'.collected params requested)
        (unread texts m'.collected params requested) EnumeratePage.objects (·.scan.scannedCount)
        EnumeratePage.cursor token page visited :=
    fun m' hm' _ _ hpage => v2_enumerate_serves hfields (Or.inl (hlog m' hm')) hpage
  have hshown : ∀ m' ∈ m :: ms, ∀ token,
      ∀ entry ∈ unread texts m'.collected params requested token,
        entry.identity texts m'.collected params requested = some identity →
          ∃ object, entry.report texts m'.collected params requested = .ok (some object) :=
    fun _ _ _ _ _ hidentity => report_of_identity hidentity
  have honce : ((pages.flatMap EnumeratePage.objects).map fun object => some object.identity).count
      (some identity) = occurrences texts m.collected params requested
        (source texts m.collected params requested) identity :=
    Chain.follow_once (fun _ _ _ hreport => identity_of_report hreport) hserves hshown hstays h hended
  have hcount := List.count_map_of_injective ((pages.flatMap EnumeratePage.objects).map (·.identity))
    some (Option.some_injective _) identity
  rw [List.map_map] at hcount
  rw [returned, ← hcount]
  exact honce.trans (hthere m (List.mem_cons_self ..))

/-! ### Samples -/

/-- The generation of the source tells all its values. -/
def driftTexts : Texts :=
  { plainTexts with
    generationDigest := fun values =>
      String.ofList (JsonDump.dump (JsonDump.ascii fun _ => []) (.arr values)) }

def packagesAt (rows : List Payload) : Moment := Moment.still (plainSnapshot rows .unreadable)

def packageIdentity (name version : String) : Payload := packageRow name version

theorem ended_of_last {pages : List EnumeratePage}
    (h : pages.getLast?.any fun page => page.cursor.isNone) :
    Chain.Ended EnumeratePage.cursor pages := by
  obtain ⟨page, hpage, hnone⟩ := (Option.any_eq_true ..).1 h
  exact ⟨page, hpage, Option.isNone_iff_eq_none.1 hnone⟩

/-- A package is upgraded between the pages, and the one after it is returned all the same. -/
theorem returned_once_upgraded : ∃ pages,
    enumerateChain driftTexts "EPOCH" packageParams
      [packagesAt [packageRow "apt" "2.7", packageRow "bash" "5.2"],
       packagesAt [packageRow "apt" "2.8", packageRow "bash" "5.2"]] = .ok pages ∧
    returned pages (packageIdentity "bash" "5.2") = 1 := by
  have hrun : (enumerateChain driftTexts "EPOCH" packageParams
      [packagesAt [packageRow "apt" "2.7", packageRow "bash" "5.2"],
       packagesAt [packageRow "apt" "2.8", packageRow "bash" "5.2"]]).toOption.any fun pages =>
        pages.getLast?.any fun page => page.cursor.isNone := by decide
  obtain ⟨pages, hpages, hended⟩ := exists_of_any hrun
  refine ⟨pages, hpages, @returned_once driftTexts "EPOCH" packageParams
    ["manager", "name", "version", "architecture"] rfl _ _ _ _ ?_ ?_ ?_ hpages (ended_of_last hended)⟩
  · exact fun _ _ hns => (nomatch hns)
  · intro m hm
    rcases List.mem_pair.1 hm with rfl | rfl <;> decide
  · intro page hpage token htoken
    have hnext : ((pageAt driftTexts "EPOCH" packageParams
        (packagesAt [packageRow "apt" "2.7", packageRow "bash" "5.2"]) none).toOption.bind
          (·.cursor)).map (fun token => (token.body.offset, token.body.upperBound)) =
        some (1, none) := by decide
    rw [hpage] at hnext
    have hbody : (token.body.offset, token.body.upperBound) = (1, none) := by
      simpa [Except.toOption, htoken] using hnext
    obtain ⟨hoffset, hupper⟩ := Prod.mk.inj hbody
    refine ⟨?_, trivial⟩
    rw [Uncrossed, unread, unread, Option.elim_some, Option.bind_some, hoffset, hupper]
    decide

/-- A package is removed once it has been returned. The rows after it move up, the next page begins one
    row too late, and the one in between is lost; the generation of this source is the same as before, and
    no page says that it has changed. -/
theorem package_lost : ∃ pages,
    enumerateChain driftTexts "EPOCH" packageParams
      [packagesAt [packageRow "apt" "2.7", packageRow "bash" "5.2"],
       packagesAt [packageRow "bash" "5.2"]] = .ok pages ∧
    Chain.Ended EnumeratePage.cursor pages ∧ Silent pages ∧
    Throughout driftTexts packageParams ["manager", "name", "version", "architecture"]
      (packageIdentity "bash" "5.2")
      [packagesAt [packageRow "apt" "2.7", packageRow "bash" "5.2"],
       packagesAt [packageRow "bash" "5.2"]] ∧
    returned pages (packageIdentity "bash" "5.2") = 0 := by
  have hrun : (enumerateChain driftTexts "EPOCH" packageParams
      [packagesAt [packageRow "apt" "2.7", packageRow "bash" "5.2"],
       packagesAt [packageRow "bash" "5.2"]]).toOption.any fun pages =>
        (pages.getLast?.any fun page => page.cursor.isNone) &&
          (pages.all fun page => page.gaps.all fun gap => gap.code ≠ "SOURCE_CHANGED") &&
          returned pages (packageIdentity "bash" "5.2") = 0 := by decide
  obtain ⟨pages, hpages, hchecks⟩ := exists_of_any hrun
  simp only [Bool.and_eq_true, decide_eq_true_iff] at hchecks
  obtain ⟨⟨hended, hsilent⟩, hreturned⟩ := hchecks
  refine ⟨pages, hpages, ended_of_last hended, ?_, ?_, hreturned⟩
  · intro page hpage gap hgap
    exact of_decide_eq_true (List.all_eq_true.1 (List.all_eq_true.1 hsilent page hpage) gap hgap)
  · intro m hm
    rcases List.mem_pair.1 hm with rfl | rfl <;> decide

end HuntWarden.Helper.Enumerate
