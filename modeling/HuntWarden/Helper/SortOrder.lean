import HuntWarden.Facts.Query
import HuntWarden.Helper.Exactness

/-! The order of an enumeration. The helper compares the texts of the requested fields, one stable sort for
    each key; the fields have types, by which a query of the facts compares them. The pages come in the
    order of the types exactly where no two rows are told apart by their texts the other way round. -/

namespace HuntWarden.Helper.Enumerate

open Outcome
open Std (TransCmp OrientedCmp)

variable (texts : Texts)

/-! ### The order of the texts -/

/-- What the successive sorts come to: the first key whose texts differ, then the identity. -/
def textOrder (namespace_ : NamespaceName) : List SortKey → Payload → Payload → Ordering
  | [], a, b => cmp (identityKey texts namespace_ a) (identityKey texts namespace_ b)
  | key :: keys, a, b => (compareFields texts key a b).then (textOrder namespace_ keys a b)

/-- The sorts of `sortRows`, by their keys. -/
def sortByKeys (namespace_ : NamespaceName) (keys : List SortKey) (rows : List Payload) : List Payload :=
  keys.foldr (fun key rows => Paging.sortBy (compareFields texts key) rows)
    (Paging.sortBy (fun a b => cmp (identityKey texts namespace_ a) (identityKey texts namespace_ b)) rows)

theorem transCmp_fieldKey (field : String) : TransCmp fun a b : Payload =>
    (cmp (fieldKey texts field a).1 (fieldKey texts field b).1).then
      (cmp (fieldKey texts field a).2 (fieldKey texts field b).2) :=
  have := Js.transCmp_on (Js.transCmp_cmp (α := Bool)) fun a : Payload => (fieldKey texts field a).1
  have := Js.transCmp_on (Js.transCmp_cmp (α := String)) fun a : Payload => (fieldKey texts field a).2
  inferInstanceAs (TransCmp (compareLex
    (fun a b : Payload => cmp (fieldKey texts field a).1 (fieldKey texts field b).1)
    fun a b => cmp (fieldKey texts field a).2 (fieldKey texts field b).2))

instance transCmp_compareFields (key : SortKey) : TransCmp (compareFields texts key) := by
  obtain ⟨field, direction⟩ := key
  have hasc := transCmp_fieldKey texts field
  cases direction with
  | asc => exact hasc
  | desc => exact @Std.TransCmp.opposite _ _ hasc

theorem transCmp_cmp_list : TransCmp (fun a b : List String => cmp a b) where
  eq_swap {a b} := (cmp_swap b a).symm
  isLE_trans {a b c} hab hbc := by
    rw [Js.isLE_iff_ne_gt, Js.cmp_ne_gt] at *
    exact hab.trans hbc

instance transCmp_identityKey (namespace_ : NamespaceName) : TransCmp fun a b : Payload =>
    cmp (identityKey texts namespace_ a) (identityKey texts namespace_ b) :=
  Js.transCmp_on transCmp_cmp_list (identityKey texts namespace_)

instance transCmp_textOrder (namespace_ : NamespaceName) :
    ∀ keys : List SortKey, TransCmp (textOrder texts namespace_ keys)
  | [] => transCmp_identityKey texts namespace_
  | key :: keys =>
    have := transCmp_textOrder namespace_ keys
    inferInstanceAs (TransCmp (compareLex (compareFields texts key) (textOrder texts namespace_ keys)))

variable {texts} {namespace_ : NamespaceName} {keys : List SortKey} {rows : List Payload}

theorem perm_sortByKeys : (sortByKeys texts namespace_ keys rows).Perm rows := by
  induction keys with
  | nil => exact Paging.perm_sortBy
  | cons key keys ih => exact Paging.perm_sortBy.trans ih

/-- A row stands before another by the order of the texts, or because it was collected before it. -/
theorem pair_of_sortByKeys {a b : Payload} (h : [a, b].Sublist (sortByKeys texts namespace_ keys rows)) :
    textOrder texts namespace_ keys a b = .lt ∨
      textOrder texts namespace_ keys a b = .eq ∧ [a, b].Sublist rows := by
  induction keys with
  | nil =>
    have hle := List.pairwise_iff_forall_sublist.1 Paging.pairwise_sortBy h
    rcases Ordering.isLE_iff_eq_lt_or_eq_eq.1 hle with hlt | heq
    · exact Or.inl hlt
    · exact Or.inr ⟨heq, Paging.pair_of_sortBy h heq⟩
  | cons key keys ih =>
    have hle := List.pairwise_iff_forall_sublist.1 Paging.pairwise_sortBy h
    change (compareFields texts key a b).then _ = .lt ∨ (compareFields texts key a b).then _ = .eq ∧ _
    rcases Ordering.isLE_iff_eq_lt_or_eq_eq.1 hle with hlt | heq
    · rw [hlt]
      exact Or.inl rfl
    · rw [heq]
      exact ih (Paging.pair_of_sortBy h heq)

/-- Rows that are level by the texts keep the order in which they were collected. -/
theorem pair_sortByKeys {a b : Payload} (heq : textOrder texts namespace_ keys a b = .eq)
    (h : [a, b].Sublist rows) : [a, b].Sublist (sortByKeys texts namespace_ keys rows) := by
  induction keys with
  | nil => exact Paging.pair_sortBy h (Ordering.isLE_of_eq_eq heq)
  | cons key keys ih =>
    obtain ⟨hkey, hkeys⟩ := Ordering.then_eq_eq.1 heq
    exact Paging.pair_sortBy (ih hkeys) (Ordering.isLE_of_eq_eq hkey)

theorem pair_filter {keep : Payload → Bool} {a b : Payload} :
    [a, b].Sublist (rows.filter keep) ↔ [a, b].Sublist rows ∧ keep a = true ∧ keep b = true := by
  constructor
  · intro h
    exact ⟨h.trans List.filter_sublist, (List.mem_filter.1 (h.subset (List.mem_cons_self ..))).2,
      (List.mem_filter.1 (h.subset (List.mem_cons_of_mem _ (List.mem_singleton.2 rfl)))).2⟩
  · rintro ⟨h, ha, hb⟩
    have hfilter := h.filter keep
    rw [List.filter_cons_of_pos ha, List.filter_cons_of_pos hb] at hfilter
    exact hfilter

/-- No two rows are told apart by the one order, or left as they were collected, the other way round than
    by the other order. -/
structure Agrees (order wanted : Payload → Payload → Ordering) (rows : List Payload) : Prop where
  told : ∀ a ∈ rows, ∀ b ∈ rows, order a b = .lt → wanted a b ≠ .gt
  level : rows.Pairwise fun a b => order a b = .eq → wanted a b ≠ .gt

/-- **The sorts.** The rows that are kept come in the wanted order exactly where the order of the texts agrees
    with it. -/
theorem sorted_iff_agrees (wanted : Payload → Payload → Ordering) (keep : Payload → Bool) :
    ((sortByKeys texts namespace_ keys rows).filter keep).Pairwise (fun a b => wanted a b ≠ .gt) ↔
      Agrees (textOrder texts namespace_ keys) wanted (rows.filter keep) := by
  have hmem : ∀ {a : Payload}, a ∈ (sortByKeys texts namespace_ keys rows).filter keep ↔ a ∈ rows.filter keep :=
    (perm_sortByKeys.filter keep).mem_iff
  constructor
  · intro h
    have hforced : ((sortByKeys texts namespace_ keys rows).filter keep).Pairwise fun a b =>
        (textOrder texts namespace_ keys a b = .lt → wanted a b ≠ .gt) ∧
          (textOrder texts namespace_ keys b a = .lt → wanted b a ≠ .gt) := by
      rw [List.pairwise_iff_forall_sublist] at h ⊢
      intro a b hab
      refine ⟨fun _ => h hab, fun hba => ?_⟩
      have hswap : textOrder texts namespace_ keys a b = .gt := OrientedCmp.gt_iff_lt.2 hba
      rcases pair_of_sortByKeys (pair_filter.1 hab).1 with hlt | ⟨heq, -⟩
      · rw [hswap] at hlt
        cases hlt
      · rw [hswap] at heq
        cases heq
    have hsymm : Std.Symm fun a b : Payload =>
        (textOrder texts namespace_ keys a b = .lt → wanted a b ≠ .gt) ∧
          (textOrder texts namespace_ keys b a = .lt → wanted b a ≠ .gt) := ⟨fun _ _ => And.symm⟩
    have hself : ∀ a ∈ (sortByKeys texts namespace_ keys rows).filter keep,
        (textOrder texts namespace_ keys a a = .lt → wanted a a ≠ .gt) ∧
          (textOrder texts namespace_ keys a a = .lt → wanted a a ≠ .gt) := by
      intro a _
      have hlevel : textOrder texts namespace_ keys a a = .eq := Std.ReflCmp.compare_self
      rw [hlevel]
      exact ⟨fun h => (nomatch h), fun h => (nomatch h)⟩
    refine ⟨fun a ha b hb => (hforced.forall_of_forall hself (hmem.2 ha) (hmem.2 hb)).1, ?_⟩
    rw [List.pairwise_iff_forall_sublist] at h ⊢
    intro a b hab heq
    obtain ⟨hrows, ha, hb⟩ := pair_filter.1 hab
    exact h (pair_filter.2 ⟨pair_sortByKeys heq hrows, ha, hb⟩)
  · rintro ⟨htold, hlevel⟩
    rw [List.pairwise_iff_forall_sublist] at hlevel ⊢
    intro a b hab
    obtain ⟨hsorted, ha, hb⟩ := pair_filter.1 hab
    rcases pair_of_sortByKeys hsorted with hlt | ⟨heq, hrows⟩
    · exact htold a (hmem.1 (hab.subset (List.mem_cons_self ..))) b
        (hmem.1 (hab.subset (List.mem_cons_of_mem _ (List.mem_singleton.2 rfl)))) hlt
    · exact hlevel (pair_filter.2 ⟨hrows, ha, hb⟩) heq

/-! ### The order of the types -/

section

variable (texts)

/-- The direction, as a query of the facts has it. -/
def Direction.toQuery : Direction → FactQuery.Direction
  | .asc => .asc
  | .desc => .desc

/-- Two values of a field by its type: numbers as numbers, timestamps by the instants they stand for. -/
def compareTyped (instant : String → ℤ) (type : Option Manifest.FieldType) : Json → Json → Ordering
  | .num x, .num y => cmp x y
  | .bool x, .bool y => cmp x y
  | .str x, .str y => if type = some .timestamp then cmp (instant x) (instant y) else cmp x y
  | x, y => cmp (str texts x) (str texts y)

/-- A missing value comes after the others, and the direction turns the order round. -/
def typedKey (instant : String → ℤ) (namespace_ : NamespaceName) (key : SortKey) (a b : Payload) : Ordering :=
  let x := fieldOf a key.field
  let y := fieldOf b key.field
  let type := (Manifest.field? namespace_ key.field).map (·.type)
  key.direction.toQuery.apply <|
    if x = .null ∨ y = .null then cmp (decide (x = .null)) (decide (y = .null))
    else compareTyped texts instant type x y

/-- The typed values of the keys, one after the other, then the identity. -/
def typedOrder (instant : String → ℤ) (namespace_ : NamespaceName) : List SortKey → Payload → Payload → Ordering
  | [], a, b => cmp (identityKey texts namespace_ a) (identityKey texts namespace_ b)
  | key :: keys, a, b =>
    (typedKey texts instant namespace_ key a b).then (typedOrder instant namespace_ keys a b)

/-- `compare` of a query of the facts, on the same fields. -/
def queryOrder (r : FactQuery.Runtime) (keys : List SortKey) (a b : Payload) : Ordering :=
  FactQuery.compareBy r (fun field => a.lookup field) (fun field => b.lookup field) <|
    keys.map fun key => ⟨key.field, key.direction.toQuery⟩

/-! ### The pages -/

/-- The predicate takes the row. -/
def keeps (params : EnumerateParams) (row : Payload) : Bool :=
  (accepts params.namespace_ params.predicate row).toOption = some true

/-- The pages put end to end show rows in the wanted order. -/
def Honoured (s : Snapshot) (params : EnumerateParams) (requested : List String) (pages : List EnumeratePage)
    (wanted : Payload → Payload → Ordering) : Prop :=
  ∃ shown, Chain.collect (Entry.look texts s params requested) (source texts s params requested) = .ok shown ∧
    reports (report s.observedAt params.namespace_ requested) shown = .ok (pages.flatMap EnumeratePage.objects) ∧
    shown.Pairwise fun a b => wanted a b ≠ .gt

def keptFacts (params : EnumerateParams) : FileEntry → Option Payload
  | .regular facts => if keeps params facts then some facts else none
  | _ => none

/-- The facts of the files that the walk comes across, as far as the predicate takes them. -/
def walked (params : EnumerateParams) (root : Option Tree) : List Payload :=
  (scopeFiles root).filterMap (keptFacts params)

/-- A process says its own pid. -/
def PidsShown (s : Snapshot) : Prop :=
  ∀ entry ∈ s.processes, ∀ fields, entry.stable = .ok fields → fields.lookup "pid" = some (.num entry.pid)

end

section

variable {epochId : String} {s : Snapshot} {params : EnumerateParams} {requested : List String}
  {collected : Collected} {pages : List EnumeratePage} {n : ℕ}

/-- What is reported was shown. -/
theorem shown_of_reported {entries : List Entry} {objects : List Normalizer.WireObservation}
    (h : Chain.collect (Entry.report texts s params requested) entries = .ok objects) :
    ∃ shown, Chain.collect (Entry.look texts s params requested) entries = .ok shown ∧
      reports (report s.observedAt params.namespace_ requested) shown = .ok objects := by
  induction entries generalizing objects with
  | nil =>
    cases h
    exact ⟨[], rfl, rfl⟩
  | cons entry entries ih =>
    obtain ⟨first, hfirst, rest, hrest, rfl⟩ := Chain.collect_cons.1 h
    obtain ⟨shown, hshown, hreports⟩ := ih hrest
    obtain ⟨found, hfound, hfirst⟩ := bind_ok.1 hfirst
    refine ⟨found.toList ++ shown, Chain.collect_cons.2 ⟨found, hfound, shown, hshown, rfl⟩, ?_⟩
    cases found with
    | none =>
      cases hfirst
      exact hreports
    | some row =>
      dsimp only at hfirst
      cases hreport : report s.observedAt params.namespace_ requested row with
      | error error =>
        rw [hreport] at hfirst
        cases hfirst
      | ok object =>
        rw [hreport] at hfirst
        cases hfirst
        exact bind_ok.2 ⟨object, hreport, bind_ok.2 ⟨rest, hreports, rfl⟩⟩

theorem honoured_iff_pairwise (hexact : ExactChain texts s params requested pages) {shown : List Payload}
    (hshown : Chain.collect (Entry.look texts s params requested) (source texts s params requested) = .ok shown)
    (wanted : Payload → Payload → Ordering) :
    Honoured texts s params requested pages wanted ↔ shown.Pairwise fun a b => wanted a b ≠ .gt := by
  obtain ⟨shown', hshown', hreports⟩ := shown_of_reported hexact.objects
  constructor
  · rintro ⟨rows, hrows, -, hordered⟩
    rw [hshown] at hrows
    cases hrows
    exact hordered
  · intro hordered
    rw [hshown] at hshown'
    cases hshown'
    exact ⟨shown, hshown, hreports, hordered⟩

theorem keeps_iff {row : Payload} {keep : Bool} (h : accepts params.namespace_ params.predicate row = .ok keep) :
    keeps params row = keep := by
  rw [keeps, h]
  cases keep <;> rfl

/-- Rows are shown as they come. -/
theorem collect_rows {rows shown : List Payload}
    (h : Chain.collect (Entry.look texts s params requested) (rows.map .row) = .ok shown) :
    shown = rows.filter (keeps params) := by
  induction rows generalizing shown with
  | nil =>
    cases h
    rfl
  | cons row rows ih =>
    obtain ⟨first, hfirst, rest, hrest, rfl⟩ := Chain.collect_cons.1 h
    obtain ⟨keep, hkeep, rfl⟩ := wanted_ok.1 hfirst
    rw [List.filter_cons, keeps_iff hkeep, ih hrest]
    cases keep <;> rfl

theorem collect_files (hns : params.namespace_ = .file) {files : List FileEntry} {shown : List Payload}
    (h : Chain.collect (Entry.look texts s params requested) (files.map .file) = .ok shown) :
    shown = files.filterMap (keptFacts params) := by
  induction files generalizing shown with
  | nil =>
    cases h
    rfl
  | cons file files ih =>
    obtain ⟨first, hfirst, rest, hrest, rfl⟩ := Chain.collect_cons.1 h
    rw [List.filterMap_cons, ← ih hrest]
    cases file with
    | unreadable | special =>
      cases hfirst
      rfl
    | replaced => cases hfirst
    | regular facts =>
      obtain ⟨keep, hkeep, rfl⟩ := wanted_ok.1 hfirst
      rw [← hns] at hkeep
      rw [keptFacts, keeps_iff hkeep]
      cases keep <;> rfl

theorem lookup_setField {name name' : String} {value : Json} {row : Payload} (h : name' ≠ name) :
    (setField name value row).lookup name' = row.lookup name' := by
  rw [setField, OrderedMap.lookup_upsert, if_neg h]

theorem stable_process_pid {entry : ProcessEntry} {includeHash : Bool} {value : Payload}
    (hpid : ∀ fields, entry.stable = .ok fields → fields.lookup "pid" = some (.num entry.pid))
    (h : stable_process entry includeHash = .ok value) : value.lookup "pid" = some (.num entry.pid) := by
  have hfinish : ∀ digest : Option String, (do
      let fields ← entry.stable
      pure (digest.elim fields fun digest => setField "exeSha256" (.str digest) fields)) =
        (.ok value : Except HelperError Payload) → value.lookup "pid" = some (.num entry.pid) := by
    intro digest hdigest
    obtain ⟨fields, hfields, hdigest⟩ := bind_ok.1 hdigest
    rw [pure_ok] at hdigest
    subst hdigest
    cases digest with
    | none => exact hpid fields hfields
    | some digest => exact (lookup_setField (by decide)).trans (hpid fields hfields)
  rw [stable_process] at h
  split at h
  all_goals
    obtain ⟨digest, -, h⟩ := bind_ok.1 h
    exact hfinish digest h

/-- The row of a process says its pid. -/
theorem pid_of_processLook (hpids : PidsShown s) {entry : ProcessEntry} (hentry : entry ∈ s.processes)
    {row : Payload} (h : Entry.look texts s params requested (.process entry) = .ok (some row)) :
    row.lookup "pid" = some (.num entry.pid) := by
  rw [Entry.look, processLook] at h
  cases hstable : stable_process entry (decide ("exeSha256" ∈ requested)) with
  | error error =>
    rw [hstable] at h
    cases h
  | ok value =>
    rw [hstable] at h
    dsimp only at h
    have hvalue := stable_process_pid (hpids entry hentry) hstable
    have hrow : (processRow value).lookup "pid" = some (.num entry.pid) :=
      (lookup_setField (by decide)).trans ((lookup_setField (by decide)).trans hvalue)
    cases hwanted : wanted .process params.predicate (processRow value) with
    | error error =>
      rw [hwanted] at h
      cases h
    | ok first =>
      rw [hwanted] at h
      obtain ⟨keep, -, rfl⟩ := wanted_ok.1 hwanted
      cases keep with
      | false => cases h
      | true =>
        cases h
        rw [withMaps]
        split
        · exact (lookup_setField (by decide)).trans hrow
        · exact hrow

theorem collect_processes (hpids : PidsShown s) {entries : List ProcessEntry} (hsub : entries ⊆ s.processes)
    (hsorted : entries.Pairwise fun a b => a.pid < b.pid) {shown : List Payload}
    (h : Chain.collect (Entry.look texts s params requested) (entries.map .process) = .ok shown) :
    shown.Pairwise fun a b => ∃ p q : ℕ, a.lookup "pid" = some (.num p) ∧ b.lookup "pid" = some (.num q) ∧ p < q := by
  induction entries generalizing shown with
  | nil =>
    cases h
    exact List.Pairwise.nil
  | cons entry entries ih =>
    rw [List.pairwise_cons] at hsorted
    have hentry : entry ∈ s.processes := hsub (List.mem_cons_self ..)
    have hrestSub : entries ⊆ s.processes := fun e he => hsub (List.mem_cons_of_mem _ he)
    obtain ⟨first, hfirst, rest, hrest, rfl⟩ := Chain.collect_cons.1 h
    have hlater := ih hrestSub hsorted.2 hrest
    cases first with
    | none => exact hlater
    | some row =>
      refine List.pairwise_cons.2 ⟨fun b hb => ?_, hlater⟩
      obtain ⟨e, he, hlook⟩ := (Chain.mem_collect hrest).1 hb
      obtain ⟨later, hmem, rfl⟩ := List.mem_map.1 he
      exact ⟨entry.pid, later.pid, pid_of_processLook hpids hentry hfirst,
        pid_of_processLook hpids (hrestSub hmem) hlook, hsorted.1 later hmem⟩

/-- A smaller pid is before a larger one in either order. -/
theorem pid_order (instant : String → ℤ) (r : FactQuery.Runtime) {a b : Payload} {p q : ℕ}
    (ha : a.lookup "pid" = some (.num p)) (hb : b.lookup "pid" = some (.num q)) (hlt : p < q) :
    typedOrder texts instant .process [⟨"pid", .asc⟩] a b ≠ .gt ∧ queryOrder r [⟨"pid", .asc⟩] a b ≠ .gt := by
  have hcmp : cmp (p : ℚ) (q : ℚ) = .lt := Js.cmp_eq_lt.2 (Nat.cast_lt.2 hlt)
  constructor
  · have hkey : typedKey texts instant .process ⟨"pid", .asc⟩ a b = .lt := by
      rw [typedKey, fieldOf, fieldOf, ha, hb]
      exact hcmp
    change (typedKey texts instant .process ⟨"pid", .asc⟩ a b).then _ ≠ .gt
    rw [hkey]
    exact fun h => (nomatch h)
  · have hquery : queryOrder r [⟨"pid", .asc⟩] a b = .lt := by
      have hvalues : FactQuery.compareValues r (some (.num p)) (some (.num q)) = .lt := hcmp
      rw [queryOrder, List.map_cons, List.map_nil, FactQuery.compareBy, ha, hb, hvalues]
      rfl
    rw [hquery]
    exact fun h => (nomatch h)

/-- **The order of an enumeration.** The pages of a finished enumeration of rows, put end to end, come in the
    order of the typed values of the sort keys, and in the order of a query of the facts, exactly where
    the texts of the keys tell no two of the rows apart the other way round. Processes come by their pids,
    on request and when no order is asked for, and files by their paths exactly where the walk comes across
    them so. -/
theorem sort_honoured_iff (instant : String → ℤ) (r : FactQuery.Runtime) (hlog : params.namespace_ ≠ .logEvent)
    (hfields : v2_requested_fields params = .ok requested)
    (h : enumerateChain texts epochId params (List.replicate n (Moment.still s)) = .ok pages)
    (hended : Chain.Ended EnumeratePage.cursor pages) :
    let typed := typedOrder texts instant params.namespace_ params.sort
    let query := queryOrder r params.sort
    (∀ collected, pagesItself params.namespace_ = false → collectRows s params requested = .ok collected →
      (Honoured texts s params requested pages typed ∧ Honoured texts s params requested pages query ↔
        Agrees (textOrder texts params.namespace_ params.sort) typed (collected.rows.filter (keeps params)) ∧
        Agrees (textOrder texts params.namespace_ params.sort) query
          (collected.rows.filter (keeps params)))) ∧
    (params.namespace_ = .process → PidsShown s →
      Honoured texts s params requested pages (typedOrder texts instant .process [⟨"pid", .asc⟩]) ∧
        Honoured texts s params requested pages (queryOrder r [⟨"pid", .asc⟩])) ∧
    ∀ root, params.namespace_ = .file → v2_scope_root s params = .ok root →
      (Honoured texts s params requested pages typed ∧ Honoured texts s params requested pages query ↔
        ((walked params root).Pairwise fun a b => typed a b ≠ .gt) ∧
        (walked params root).Pairwise fun a b => query a b ≠ .gt) := by
  intro typed query
  have hexact := exact_of_ended hfields (Or.inl fun hns => absurd hns hlog) h hended
  obtain ⟨shown, hshown, -⟩ := shown_of_reported hexact.objects
  have hiff := honoured_iff_pairwise hexact hshown
  rw [hiff, hiff, hiff, hiff]
  refine ⟨fun collected hrows hcollected => ?_, fun hns hpids => ?_, fun root hns hroot => ?_⟩
  · have hsource : source texts s params requested =
        (sortByKeys texts params.namespace_ params.sort collected.rows).map .row :=
      remaining_rows hrows hcollected _ _
    rw [hsource] at hshown
    rw [collect_rows hshown, sorted_iff_agrees, sorted_iff_agrees]
  · have hsource : source texts s params requested =
        (processesBetween s.processes 0 (lastPid s.processes 0)).map .process := remaining_process hns _ _
    rw [hsource] at hshown
    have hpairs := collect_processes hpids (fun entry hentry => (mem_processesBetween.1 hentry).1)
      (pairwise_processesBetween s.processes_nodup) hshown
    have hordered : ∀ {a b : Payload}, (∃ p q : ℕ, a.lookup "pid" = some (.num p) ∧
        b.lookup "pid" = some (.num q) ∧ p < q) →
          typedOrder texts instant .process [⟨"pid", .asc⟩] a b ≠ .gt ∧ queryOrder r [⟨"pid", .asc⟩] a b ≠ .gt := by
      rintro a b ⟨p, q, ha, hb, hlt⟩
      exact pid_order instant r ha hb hlt
    exact ⟨hpairs.imp fun hab => (hordered hab).1, hpairs.imp fun hab => (hordered hab).2⟩
  · have hsource : source texts s params requested = ((scopeFiles root).drop 0).map .file :=
      remaining_file hns hroot _ _
    rw [hsource, List.drop_zero] at hshown
    rw [collect_files hns hshown, walked]

end

/-! ### Samples -/

def accountEntry (uid : ℕ) (username : String) : AccountEntry where
  base := [("uid", .num uid), ("username", .str username)]
  inspected := .ok (.null, false)

/-- Two accounts, in the order of their uids. -/
def accountSnapshot : Snapshot :=
  { plainSnapshot [] .unreadable with accounts := [accountEntry 9 "mail", accountEntry 10 "uucp"] }

def accountsByUid : EnumerateParams where
  namespace_ := .account
  fields := none
  limit := some (.num 1)
  predicate := none
  sort := [⟨"uid", .asc⟩]
  sinceHours := none
  scope := none

/-- The accounts are asked for by their uids, and the tenth comes before the ninth. -/
theorem tenth_before_ninth :
    ∃ pages, enumerateChain plainTexts "EPOCH" accountsByUid (List.replicate 3 (Moment.still accountSnapshot)) =
        .ok pages ∧
      Chain.Ended EnumeratePage.cursor pages ∧
      (pages.flatMap EnumeratePage.objects).map (·.fields.lookup "uid") = [some (.num 10), some (.num 9)] ∧
      ¬ Honoured plainTexts accountSnapshot accountsByUid ["uid", "username"] pages
        (typedOrder plainTexts (fun _ => 0) .account accountsByUid.sort) := by
  refine ⟨_, rfl, ⟨_, rfl, rfl⟩, rfl, ?_⟩
  rintro ⟨shown, hshown, -, hordered⟩
  have hrows : (.ok [(accountEntry 10 "uucp").base, (accountEntry 9 "mail").base] : Except HelperError _) =
      .ok shown := hshown
  cases hrows
  exact List.rel_of_pairwise_cons hordered (List.mem_singleton.2 rfl) (by decide)

/-- Packages by their names. -/
theorem sort_honoured_iff_packages :
    ∃ pages, enumerateChain plainTexts "EPOCH" { packageParams with sort := [⟨"name", .desc⟩] }
        (List.replicate 3 (Moment.still
          (plainSnapshot [packageRow "bash" "5.2", packageRow "zlib1g" "1.3"] .unreadable))) = .ok pages ∧
      Honoured plainTexts (plainSnapshot [packageRow "bash" "5.2", packageRow "zlib1g" "1.3"] .unreadable)
        { packageParams with sort := [⟨"name", .desc⟩] } ["manager", "name", "version", "architecture"] pages
        (typedOrder plainTexts (fun _ => 0) .package [⟨"name", .desc⟩]) := by
  have hchain : ∃ pages, enumerateChain plainTexts "EPOCH" { packageParams with sort := [⟨"name", .desc⟩] }
      (List.replicate 3 (Moment.still
        (plainSnapshot [packageRow "bash" "5.2", packageRow "zlib1g" "1.3"] .unreadable))) = .ok pages ∧
      Chain.Ended EnumeratePage.cursor pages := ⟨_, rfl, _, rfl, rfl⟩
  obtain ⟨pages, hpages, hended⟩ := hchain
  refine ⟨pages, hpages, (((sort_honoured_iff (fun _ => 0) ⟨Js.plainCoercions, Js.codeUnitCollation⟩ (by decide)
    rfl hpages hended).1 _ rfl rfl).2 ⟨⟨?_, ?_⟩, ?_, ?_⟩).1⟩
  all_goals decide

end HuntWarden.Helper.Enumerate
