import HuntWarden.Helper.Exactness

/-! The predicate is evaluated while the rows are collected, before the fields that cost most are there. A
    finished chain gives the rows that satisfy it in what was collected by then; these are the rows that
    satisfy it in truth exactly when the fields left out make no difference to the answer. -/

namespace HuntWarden.Helper.Enumerate

open Outcome

/-! ### What the predicate sees -/

/-- The row when the predicate is evaluated; `none` when there is no row. -/
def Entry.seen (texts : Texts) (requested : List String) : Entry → Option Payload
  | .process entry =>
    (stable_process entry (decide ("exeSha256" ∈ requested))).toOption.map processRow
  | .file (.regular facts) => some facts
  | .file _ => none
  | .log source record => some (logRow texts.log source record)
  | .row fields => some fields

/-- The row when it is reported. -/
def Entry.shown (s : Snapshot) (requested : List String) : Entry → Payload → Payload
  | .process _, fields => withMaps s requested fields
  | _, fields => fields

/-- The fields that are not collected when the predicate is evaluated. -/
def uncollected (namespace_ : NamespaceName) (requested : List String) : List String :=
  v2UnavailableFields namespace_ ++
    match namespace_ with
    | .process => "mapsSummary" :: ["exeSha256"].filter (· ∉ requested)
    | .file => ["sha256", "baseline", "baselineStatus"]
    | .account => ["groups", "locked"].filter (· ∉ requested)
    | _ => []

section

variable (texts : Texts) (s : Snapshot) (params : EnumerateParams) (requested : List String)

/-- The rows of the source before any of them is filtered out. -/
def observedRows : List (Entry × Payload) :=
  (source texts s params requested).filterMap fun entry =>
    (entry.seen texts requested).map fun row => (entry, row)

/-- All the fields of the object: `hidden` gives the values of those that were not collected. -/
def trueRow (row hidden : Payload) : Payload :=
  row ++ hidden.filter fun field => field.1 ∈ uncollected params.namespace_ requested

def holds (predicate : Predicate) (row : Payload) : Bool :=
  (v2_predicate params.namespace_ row predicate).toOption.getD false

/-- The object that a row is reported as. -/
def objectOf (observed : Entry × Payload) : Except HelperError Normalizer.WireObservation :=
  report s.observedAt params.namespace_ requested (observed.1.shown s requested observed.2)

variable (predicate : Predicate) (hidden : List Payload)

/-- The chain gives the objects of the rows whose true values satisfy the predicate. -/
def PushdownExact (pages : List EnumeratePage) : Prop :=
  reports (report s.observedAt params.namespace_ requested)
    ((((observedRows texts s params requested).zip hidden).filter fun row =>
      holds params predicate (trueRow params requested row.1.2 row.2)).map fun row =>
        row.1.1.shown s requested row.1.2) = .ok (pages.flatMap EnumeratePage.objects)

/-- The fields left out make no difference to the answer of the predicate on any row. -/
def Indifferent : Prop :=
  ∀ row ∈ (observedRows texts s params requested).zip hidden,
    holds params predicate row.1.2 = holds params predicate (trueRow params requested row.1.2 row.2)

/-- No two rows are reported as the same object. -/
def Distinguished : Prop :=
  (observedRows texts s params requested).Pairwise fun a b =>
    ∀ object, objectOf s params requested a = .ok object → objectOf s params requested b ≠ .ok object

end

variable {texts : Texts} {epochId : String} {s : Snapshot} {params : EnumerateParams}
  {requested : List String} {predicate : Predicate} {hidden : List Payload}

/-! ### What a chain gives -/

/-- The entry is one of the collector of this namespace. -/
def Entry.Of (namespace_ : NamespaceName) : Entry → Prop
  | .process _ => namespace_ = .process
  | .file _ => namespace_ = .file
  | .log .. => namespace_ = .logEvent
  | .row _ => True

theorem source_of {entry : Entry} (h : entry ∈ source texts s params requested) :
    entry.Of params.namespace_ := by
  rw [source, unread, remaining] at h
  cases hns : params.namespace_ <;> rw [hns] at h <;> obtain ⟨_, -, rfl⟩ := List.mem_map.1 h <;>
    first | rfl | trivial

theorem wanted_holds {row : Payload} {first : Option Payload}
    (h : wanted params.namespace_ (some predicate) row = .ok first) :
    first = (some row).filter (holds params predicate) := by
  obtain ⟨keep, hkeep, rfl⟩ := wanted_ok.1 h
  have haccepts : v2_predicate params.namespace_ row predicate = .ok keep := hkeep
  rw [Option.filter_some, holds, haccepts]
  rfl

/-- A look keeps what the predicate accepts of the row as it sees it. -/
theorem look_seen (hp : params.predicate = some predicate) {entry : Entry} {first : Option Payload}
    (hentry : entry.Of params.namespace_) (h : entry.look texts s params requested = .ok first) :
    first = ((entry.seen texts requested).filter (holds params predicate)).map
      (entry.shown s requested) := by
  cases entry with
  | process entry =>
    have hns : params.namespace_ = .process := hentry
    rw [Entry.look, processLook] at h
    rw [Entry.seen]
    cases hstable : stable_process entry (decide ("exeSha256" ∈ requested)) with
    | error error =>
      rw [hstable] at h
      cases h
      rfl
    | ok value =>
      rw [hstable, hp, ← hns] at h
      dsimp only at h
      cases hwanted : wanted params.namespace_ (some predicate) (processRow value) with
      | error error =>
        rw [hwanted] at h
        cases h
      | ok kept =>
        rw [hwanted] at h
        cases h
        rw [wanted_holds hwanted]
        rfl
  | file file =>
    have hns : params.namespace_ = .file := hentry
    cases file with
    | unreadable | special =>
      cases h
      rfl
    | replaced => cases h
    | regular facts =>
      rw [Entry.look, fileLook, hp, ← hns] at h
      rw [wanted_holds h]
      exact Option.map_id.symm ▸ rfl
  | log source record =>
    have hns : params.namespace_ = .logEvent := hentry
    rw [Entry.look, logLook, hp, ← hns] at h
    rw [wanted_holds h]
    exact Option.map_id.symm ▸ rfl
  | row fields =>
    rw [Entry.look, hp] at h
    rw [wanted_holds h]
    exact Option.map_id.symm ▸ rfl

/-- The objects of a scan are those of the rows that satisfy the predicate as it sees them. -/
theorem reports_seen (hp : params.predicate = some predicate) {entries : List Entry}
    (hentries : ∀ entry ∈ entries, entry.Of params.namespace_)
    {objects : List Normalizer.WireObservation}
    (h : Chain.collect (Entry.report texts s params requested) entries = .ok objects) :
    reports (report s.observedAt params.namespace_ requested)
      (((entries.filterMap fun entry => (entry.seen texts requested).map fun row => (entry, row)).filter
        fun row => holds params predicate row.2).map fun row => row.1.shown s requested row.2) =
      .ok objects := by
  induction entries generalizing objects with
  | nil =>
    cases h
    rfl
  | cons entry entries ih =>
    rw [List.forall_mem_cons] at hentries
    obtain ⟨hentry, hentries⟩ := hentries
    obtain ⟨first, hfirst, rest, hrest, rfl⟩ := Chain.collect_cons.1 h
    have hreports := ih hentries hrest
    obtain ⟨found, hfound, hfirst⟩ := bind_ok.1 hfirst
    have hseen := look_seen hp hentry hfound
    cases hrow : entry.seen texts requested with
    | none =>
      rw [hrow] at hseen
      subst hseen
      cases hfirst
      rw [List.filterMap_cons, hrow]
      exact hreports
    | some row =>
      rw [hrow, Option.filter_some] at hseen
      rw [List.filterMap_cons, hrow]
      dsimp only [Option.map_some]
      cases hholds : holds params predicate row with
      | false =>
        rw [hholds, if_neg Bool.false_ne_true] at hseen
        subst hseen
        cases hfirst
        rw [List.filter_cons_of_neg (by simp [hholds])]
        exact hreports
      | true =>
        rw [hholds, if_pos rfl] at hseen
        subst hseen
        cases hobject : report s.observedAt params.namespace_ requested (entry.shown s requested row) with
        | error error =>
          simp only [Option.map_some, hobject] at hfirst
          cases hfirst
        | ok object =>
          simp only [Option.map_some, hobject] at hfirst
          cases hfirst
          rw [List.filter_cons_of_pos (by exact hholds), List.map_cons]
          exact bind_ok.2 ⟨object, hobject, bind_ok.2 ⟨rest, hreports, rfl⟩⟩

theorem mem_reports {f : Payload → Except HelperError Normalizer.WireObservation} {rows : List Payload}
    {objects : List Normalizer.WireObservation} (h : reports f rows = .ok objects) :
    (∀ row ∈ rows, ∃ object ∈ objects, f row = .ok object) ∧
      ∀ object ∈ objects, ∃ row ∈ rows, f row = .ok object := by
  induction rows generalizing objects with
  | nil =>
    cases h
    simp
  | cons row rows ih =>
    obtain ⟨object, hobject, h⟩ := bind_ok.1 h
    obtain ⟨rest, hrest, h⟩ := bind_ok.1 h
    rw [pure_ok] at h
    subst h
    obtain ⟨hrows, hobjects⟩ := ih hrest
    simp only [List.forall_mem_cons]
    refine ⟨⟨⟨object, List.mem_cons_self .., hobject⟩, fun row' hrow' => ?_⟩,
      ⟨row, List.mem_cons_self .., hobject⟩, fun object' hobject' => ?_⟩
    · obtain ⟨object', hmem, hreport⟩ := hrows row' hrow'
      exact ⟨object', List.mem_cons_of_mem _ hmem, hreport⟩
    · obtain ⟨row', hmem, hreport⟩ := hobjects object' hobject'
      exact ⟨row', List.mem_cons_of_mem _ hmem, hreport⟩

section Zip

variable {α β : Type}

/-- Filtering by the first component only does not need the second one. -/
theorem filter_zip_fst (p : α → Bool) : ∀ {xs : List α} {ys : List β}, ys.length = xs.length →
    ((xs.zip ys).filter fun x => p x.1).map Prod.fst = xs.filter p
  | [], _, _ => rfl
  | x :: xs, [], h => by simp at h
  | x :: xs, y :: ys, h => by
      have hlength : ys.length = xs.length := by simpa using h
      have ih := filter_zip_fst p hlength
      rw [List.zip_cons_cons]
      cases hx : p x with
      | true => rw [List.filter_cons_of_pos (by exact hx), List.filter_cons_of_pos hx, List.map_cons, ih]
      | false =>
        rw [List.filter_cons_of_neg (by simp [hx]), List.filter_cons_of_neg (by simp [hx]), ih]

end Zip

/-! ### Predicates that do not mention the fields left out -/

mutual
/-- The fields that a predicate mentions. -/
def mentioned : Predicate → List String
  | .and args | .or args => mentionedIn args
  | .not arg => mentioned arg
  | .leaf _ field _ => [field]

def mentionedIn : List Predicate → List String
  | [] => []
  | arg :: args => mentioned arg ++ mentionedIn args
end

mutual
/-- A predicate looks at the fields it mentions only. -/
theorem v2_predicate_congr {namespace_ : NamespaceName} {row row' : Payload} : ∀ {p : Predicate},
    (∀ field ∈ mentioned p, row.lookup field = row'.lookup field) →
      v2_predicate namespace_ row p = v2_predicate namespace_ row' p
  | .and args, h => by rw [v2_predicate, v2_predicate, v2_predicates_congr h]
  | .or args, h => by rw [v2_predicate, v2_predicate, v2_predicates_congr h]
  | .not arg, h => by
      have hmentioned : ∀ field ∈ mentioned arg, row.lookup field = row'.lookup field := h
      rw [v2_predicate, v2_predicate, v2_predicate_congr hmentioned]
  | .leaf op field value, h => by
      rw [v2_predicate, v2_predicate, h field (List.mem_singleton_self _)]

theorem v2_predicates_congr {namespace_ : NamespaceName} {row row' : Payload} : ∀ {args : List Predicate},
    (∀ field ∈ mentionedIn args, row.lookup field = row'.lookup field) →
      v2_predicates namespace_ row args = v2_predicates namespace_ row' args
  | [], _ => rfl
  | arg :: args, h => by
      rw [v2_predicates, v2_predicates,
        v2_predicate_congr fun field hfield => h field (List.mem_append_left _ hfield),
        v2_predicates_congr fun field hfield => h field (List.mem_append_right _ hfield)]
end

theorem lookup_trueRow {row given : Payload} {field : String}
    (h : field ∉ uncollected params.namespace_ requested) :
    (trueRow params requested row given).lookup field = row.lookup field := by
  have hnone : (given.filter fun f => f.1 ∈ uncollected params.namespace_ requested).lookup field =
      none := by
    rw [List.lookup_eq_none_iff]
    intro f hf
    have hmem := of_decide_eq_true (List.mem_filter.1 hf).2
    rw [bne_iff_ne]
    rintro rfl
    exact h hmem
  rw [trueRow, List.lookup_append, hnone, Option.or_none]

/-- A predicate that mentions none of the fields left out is answered in truth. -/
theorem indifferent_of_unmentioned
    (h : ∀ field ∈ mentioned predicate, field ∉ uncollected params.namespace_ requested) :
    Indifferent texts s params requested predicate hidden := by
  intro row _
  rw [holds, holds, v2_predicate_congr fun field hfield => (lookup_trueRow (h field hfield)).symm]

/-! ### The claim of a chain -/

/-- The objects of some of the rows. -/
def objectsOf (s : Snapshot) (params : EnumerateParams) (requested : List String)
    (rows : List ((Entry × Payload) × Payload)) : Except HelperError (List Normalizer.WireObservation) :=
  reports (report s.observedAt params.namespace_ requested)
    (rows.map fun row => row.1.1.shown s requested row.1.2)

/-- Two selections of distinguished rows that give the same objects are the same. -/
theorem selections_agree (hdistinct : Distinguished texts s params requested)
    (hlength : hidden.length = (observedRows texts s params requested).length)
    {keep keep' : (Entry × Payload) × Payload → Bool} {objects : List Normalizer.WireObservation}
    (h : objectsOf s params requested (((observedRows texts s params requested).zip hidden).filter keep) =
      .ok objects)
    (h' : objectsOf s params requested
      (((observedRows texts s params requested).zip hidden).filter keep') = .ok objects) :
    ∀ row ∈ (observedRows texts s params requested).zip hidden, keep row = true → keep' row = true := by
  intro row hrow hkeep
  let apart : (Entry × Payload) × Payload → (Entry × Payload) × Payload → Prop := fun a b =>
    ∀ object, objectOf s params requested a.1 = .ok object →
      objectOf s params requested b.1 ≠ .ok object
  have hsymm : Std.Symm apart := ⟨fun a b hab object hb ha => hab object ha hb⟩
  have hpairs : ((observedRows texts s params requested).zip hidden).Pairwise apart := by
    have hfst : ((observedRows texts s params requested).zip hidden).map Prod.fst =
        observedRows texts s params requested := List.map_fst_zip (Nat.le_of_eq hlength.symm)
    rw [Distinguished, ← hfst, List.pairwise_map] at hdistinct
    exact hdistinct
  obtain ⟨object, hobject, hreport⟩ := (mem_reports h).1 _
    (List.mem_map_of_mem (List.mem_filter.2 ⟨hrow, hkeep⟩))
  obtain ⟨shown, hshown, hreport'⟩ := (mem_reports h').2 object hobject
  obtain ⟨row', hrow', rfl⟩ := List.mem_map.1 hshown
  obtain ⟨hmem, hkeep'⟩ := List.mem_filter.1 hrow'
  by_cases hsame : row = row'
  · rw [hsame]
    exact hkeep'
  · exact absurd hreport' (hpairs.forall hrow hmem hsame object hreport)

/-- All files whose hash is this one. -/
def hashParams : EnumerateParams :=
  { fileParams with predicate := some (.leaf .eq "sha256" (some (.str "4dca0fd5"))) }

def hashedDirectory : Snapshot := plainSnapshot [] (.directory [("shell.jsp", .regular (fileRow 7))] .nil)

/-- The page of a source without a row. -/
def emptyPage : EnumeratePage where
  objects := []
  cursor := none
  gaps := []
  scan := {
    sourceGeneration := "generation", scannedCount := 1, matchedCount := 0, nextOffset := 1,
    upperBound := none, complete := true, returnedCount := 0 }

theorem hashParams_fields : v2_requested_fields hashParams = .ok ["mountId", "device", "inode"] := rfl

theorem hashParams_chain :
    enumerateChain plainTexts "EPOCH" hashParams [Moment.still hashedDirectory] = .ok [emptyPage] := rfl

end HuntWarden.Helper.Enumerate
