import HuntWarden.Facts.Order
import HuntWarden.Storage.FactRuns

/-! A query over the facts is a snapshot read in pages. What a page reads through the statement gives the
    same page as all the facts of the store would; and the pages, each asked for with the cursor of the
    one before, are those of one sorted list, the answer as it stood when the first page was given. -/

namespace HuntWarden.FactStore

open Outcome FactQuery Normalizer Paging

variable (env : FactEnv)

/-- The page computed in memory, from all the facts of the store. -/
def queryInMemory (s : FactStore) (taskId epochId : String) (ast : FactQueryAst) :
    Except Thrown QueryResult := do
  let cursor ← s.findCursor taskId epochId ast
  let snapshotMax := (cursor.map (·.snapshotMaxFactSeq)).getD (s.maxFactSeq taskId epochId)
  runFactQuery env.query env.digestAst taskId epochId ast s.facts.rows snapshotMax cursor
    (s.pageRefs env)

/-- What a query asks for at this moment, in its order. -/
def answer (s : FactStore) (taskId epochId : String) (ast : FactQueryAst) : List FactRecord :=
  sortFacts env.query (orderOf ast) (s.facts.rows.filter
    (isCandidate env.query taskId epochId ast (s.maxFactSeq taskId epochId)))

/-- The rows of the facts as the query selects them. -/
def shown (ast : FactQueryAst) (facts : List FactRecord) : List Row :=
  facts.map fun fact => selectRow ast.select (project fact)

/-- The request of a page: the query, the rows asked for, and where they start. -/
def request (ast : FactQueryAst) (limit : ℤ) (cursorRef : Option String) : FactQueryAst :=
  { ast with limit, cursorRef }

/-- What happens before a page is asked for, and how many rows it may have. -/
structure Turn where
  between : List FactOp
  limit : ℤ

/-- The pages that follow a cursor, and the cursor left at the end, if any. -/
def followFrom (taskId epochId : String) (ast : FactQueryAst) :
    FactStore → Option String → List Turn → Except Thrown (List FactQueryPage × Option String)
  | _, cursorRef, [] => .ok ([], cursorRef)
  | s, cursorRef, turn :: turns => do
    let (s', page) ← (Runs.run (step env) s turn.between).queryFacts env taskId epochId
      (request ast turn.limit cursorRef)
    match page.nextCursorRef with
    | none => return ([page], none)
    | some next => do
      let (pages, rest) ← followFrom taskId epochId ast s' (some next) turns
      return (page :: pages, rest)

/-- A query from its first page on. -/
def follow (s : FactStore) (taskId epochId : String) (ast : FactQueryAst) (turns : List Turn) :
    Except Thrown (List FactQueryPage × Option String) :=
  followFrom env taskId epochId ast s none (⟨[], ast.limit⟩ :: turns)

variable {env} {s : FactStore} {taskId epochId : String} {ast : FactQueryAst}

/-! ### The statement and the memory -/

/-- Past the sequence number that the cursor tells the statement. -/
def pastCursor (cursor : Option QueryCursor) (fact : FactRecord) : Bool :=
  ((cursor.filter fun cursor => cursor.mode ≠ some .remaining).bind (·.lastFactSeq)).all
    (· < fact.factSeq)

@[simp] theorem pastCursor_none (fact : FactRecord) : pastCursor none fact = true := rfl

theorem pastCursor_remaining {cursor : QueryCursor} (hmode : cursor.mode = some .remaining)
    (fact : FactRecord) : pastCursor (some cursor) fact = true := by
  simp [pastCursor, Option.filter, hmode]

theorem pastCursor_positioned {cursor : QueryCursor} (hmode : cursor.mode ≠ some .remaining)
    (fact : FactRecord) :
    pastCursor (some cursor) fact = cursor.lastFactSeq.all (· < fact.factSeq) := by
  simp [pastCursor, Option.filter, hmode]

/-- The `WHERE` clause is the filter in memory, the predicate apart and the position added. -/
theorem admits_pageOptions (snapshotMax : ℕ) (cursor : Option QueryCursor) (fact : FactRecord) :
    (pageOptions ast snapshotMax cursor).admits taskId epochId fact =
      ((fact.taskId = taskId && fact.epochId = epochId && fact.factSeq ≤ snapshotMax &&
        matchesFilters ast fact) && pastCursor cursor fact) := by
  rw [Bool.eq_iff_iff]
  simp only [ListFactsOptions.admits, pageOptions, matchesFilters, pastCursor, Bool.and_eq_true,
    Option.all_some]
  tauto

theorem admits_and_candidate (snapshotMax : ℕ) (cursor : Option QueryCursor) (fact : FactRecord) :
    (isCandidate env.query taskId epochId ast snapshotMax fact &&
      (pageOptions ast snapshotMax cursor).admits taskId epochId fact) =
      (pastCursor cursor fact && isCandidate env.query taskId epochId ast snapshotMax fact) := by
  rw [admits_pageOptions, Bool.eq_iff_iff]
  simp only [isCandidate, satisfies, Bool.and_eq_true]
  tauto

theorem factSeq_nodup (s : FactStore) (p : FactRecord → Bool) :
    ((s.facts.rows.filter p).map (·.factSeq)).Nodup :=
  s.facts.keyed.sublist (List.filter_sublist.map _)

theorem fromCursor_congr (cursor : Option QueryCursor) {facts facts' : List FactRecord}
    (hperm : facts.Perm facts') (hnodup : (facts.map (·.factSeq)).Nodup) :
    fromCursor env.query ast cursor facts = fromCursor env.query ast cursor facts' := by
  unfold fromCursor
  rcases cursor with _ | cursor
  · exact sortFacts_congr env.query hnodup hperm
  · by_cases hmode : cursor.mode = some .remaining
    · simp only [if_pos hmode]
      exact congrArg (List.filterMap · _) (funext fun seq => find_perm hperm hnodup seq)
    · simp only [if_neg hmode]
      exact sortFacts_congr env.query (hnodup.sublist (List.filter_sublist.map _)) (hperm.filter _)

/-- A cursor finds its position among the facts past it. -/
theorem fromCursor_past (cursor : Option QueryCursor) (facts : List FactRecord) :
    fromCursor env.query ast cursor (facts.filter (pastCursor cursor)) =
      fromCursor env.query ast cursor facts := by
  have hall : (∀ fact, pastCursor cursor fact = true) → facts.filter (pastCursor cursor) = facts :=
    fun h => List.filter_eq_self.2 fun fact _ => h fact
  rcases cursor with _ | cursor
  · rw [hall pastCursor_none]
  · by_cases hmode : cursor.mode = some .remaining
    · rw [hall (pastCursor_remaining hmode)]
    · simp only [fromCursor, if_neg hmode, List.filter_filter]
      refine congrArg _ (List.filter_congr fun fact _ => ?_)
      rw [pastCursor_positioned hmode]
      cases cursor.lastFactSeq <;> simp

/-- The candidates among the rows of the statement. -/
theorem fromCursor_listed (s : FactStore) (snapshotMax : ℕ) (cursor : Option QueryCursor) :
    fromCursor env.query ast cursor ((bySeq (s.facts.rows.filter
        ((pageOptions ast snapshotMax cursor).admits taskId epochId))).filter
        (isCandidate env.query taskId epochId ast snapshotMax)) =
      fromCursor env.query ast cursor (s.facts.rows.filter
        (isCandidate env.query taskId epochId ast snapshotMax)) := by
  have hperm : ((bySeq (s.facts.rows.filter
        ((pageOptions ast snapshotMax cursor).admits taskId epochId))).filter
        (isCandidate env.query taskId epochId ast snapshotMax)).Perm
      ((s.facts.rows.filter (isCandidate env.query taskId epochId ast snapshotMax)).filter
        (pastCursor cursor)) := by
    refine ((List.perm_insertionSort _ _).filter _).trans ?_
    rw [List.filter_filter, List.filter_filter]
    exact List.Perm.of_eq (List.filter_congr fun fact _ => admits_and_candidate _ _ _)
  rw [← fromCursor_past cursor (s.facts.rows.filter _)]
  refine (fromCursor_congr cursor hperm.symm ?_).symm
  rw [List.filter_filter]
  exact factSeq_nodup s _

theorem pairwise_bySeq (facts : List FactRecord) :
    (bySeq facts).Pairwise fun left right => left.factSeq ≤ right.factSeq := by
  have htotal : Std.Total fun left right : FactRecord => left.factSeq ≤ right.factSeq :=
    ⟨fun left right => Nat.le_total _ _⟩
  have htrans : IsTrans FactRecord fun left right => left.factSeq ≤ right.factSeq :=
    ⟨fun _ _ _ => Nat.le_trans⟩
  exact List.pairwise_insertionSort _ facts

/-- In the default order, a cursor takes the facts past it as they come. -/
theorem fromCursor_default {cursor : Option QueryCursor} {facts : List FactRecord}
    (horder : orderOf ast = defaultOrder) (hmode : cursor.all (·.mode ≠ some .remaining))
    (hpast : ∀ fact ∈ facts, pastCursor cursor fact = true)
    (hnodup : (facts.map (·.factSeq)).Nodup)
    (hsorted : facts.Pairwise fun left right => left.factSeq ≤ right.factSeq) :
    fromCursor env.query ast cursor facts =
      if cursor.all (·.lastFactSeq.isSome) then facts else [] := by
  rcases cursor with _ | cursor
  · rw [fromCursor, horder]
    exact sortFacts_default env.query hnodup hsorted
  · have hmode : cursor.mode ≠ some .remaining := by simpa using hmode
    have hkept : facts.filter (fun fact => cursor.lastFactSeq.any (· < fact.factSeq)) =
        if cursor.lastFactSeq.isSome then facts else [] := by
      split
      · refine List.filter_eq_self.2 fun fact hfact => ?_
        have hfact := hpast fact hfact
        rw [pastCursor_positioned hmode] at hfact
        cases hlast : cursor.lastFactSeq <;> simp_all
      · simp_all
    simp only [fromCursor, if_neg hmode, Option.all_some, hkept, horder]
    split
    · exact sortFacts_default env.query hnodup hsorted
    · rfl

/-- One row more than the page needs tells as much as all of them. -/
theorem pageResult_take {snapshotMax : ℕ} {candidates : List FactRecord} {refs : PageRefs}
    (hdefault : isDefaultFactOrder ast = true) {n : ℕ} (hn : ast.limit.toNat < n) :
    pageResult env.digestAst taskId epochId ast snapshotMax (candidates.take n) refs =
      pageResult env.digestAst taskId epochId ast snapshotMax candidates refs := by
  have hselected : (candidates.take n).take ast.limit.toNat = candidates.take ast.limit.toNat := by
    rw [List.take_take, min_eq_left hn.le]
  have hmore : (candidates.take ast.limit.toNat).length < (candidates.take n).length ↔
      (candidates.take ast.limit.toNat).length < candidates.length := by
    simp only [List.length_take]
    omega
  simp only [pageResult, nextCursor, hselected, hmore, hdefault, if_true]

/-- When nothing but the statement decides, its rows are candidates and come in order. -/
theorem fromCursor_limited (s : FactStore) {snapshotMax : ℕ} {cursor : Option QueryCursor}
    (hpredicate : ast.predicate = none) (horder : orderOf ast = defaultOrder)
    (hmode : cursor.all (·.mode ≠ some .remaining)) (n : ℕ) :
    fromCursor env.query ast cursor (((bySeq (s.facts.rows.filter
        ((pageOptions ast snapshotMax cursor).admits taskId epochId))).take n).filter
        (isCandidate env.query taskId epochId ast snapshotMax)) =
      (fromCursor env.query ast cursor (s.facts.rows.filter
        (isCandidate env.query taskId epochId ast snapshotMax))).take n := by
  rw [← fromCursor_listed]
  set listed := bySeq (s.facts.rows.filter
    ((pageOptions ast snapshotMax cursor).admits taskId epochId)) with hlisted
  have hadmitted : ∀ fact ∈ listed,
      (pageOptions ast snapshotMax cursor).admits taskId epochId fact = true := fun fact hfact =>
    (List.mem_filter.1 ((List.mem_insertionSort _).1 hfact)).2
  have hcandidate : ∀ fact ∈ listed,
      isCandidate env.query taskId epochId ast snapshotMax fact = true ∧
        pastCursor cursor fact = true := by
    intro fact hfact
    have hadmits := hadmitted fact hfact
    rw [admits_pageOptions, Bool.and_eq_true] at hadmits
    refine ⟨?_, hadmits.2⟩
    simpa [isCandidate, satisfies, hpredicate, Predicate.evaluatePredicate, Bool.and_assoc] using
      hadmits.1
  have hnodup : (listed.map (·.factSeq)).Nodup :=
    ((List.perm_insertionSort _ _).map _).nodup_iff.2 (factSeq_nodup s _)
  have hsorted := pairwise_bySeq (s.facts.rows.filter
    ((pageOptions ast snapshotMax cursor).admits taskId epochId))
  rw [← hlisted] at hsorted
  rw [List.filter_eq_self.2 fun fact hfact => (hcandidate fact (List.mem_of_mem_take hfact)).1,
    List.filter_eq_self.2 fun fact hfact => (hcandidate fact hfact).1,
    fromCursor_default horder hmode (fun fact hfact => (hcandidate fact hfact).2) hnodup hsorted,
    fromCursor_default horder hmode
      (fun fact hfact => (hcandidate fact (List.mem_of_mem_take hfact)).2)
      (hnodup.sublist ((List.take_sublist n listed).map _))
      (hsorted.sublist (List.take_sublist n listed))]
  split
  · rfl
  · exact List.take_nil.symm

theorem runFactQuery_eq {facts : List FactRecord} {snapshotMax : ℕ} {cursor : Option QueryCursor}
    {refs : PageRefs} (haccepted : validateFactQuery ast = .ok ()) (hview : ast.view = .facts) :
    runFactQuery env.query env.digestAst taskId epochId ast facts snapshotMax cursor refs =
      (do
        require (cursor.all fun cursor => cursor.taskId = taskId && cursor.epochId = epochId &&
            cursor.astDigest = env.digestAst (canonicalAst ast))
          (invalidArgument "Query cursor 与当前 task/epoch/query 不匹配")
        return pageResult env.digestAst taskId epochId ast snapshotMax
          (fromCursor env.query ast cursor
            (facts.filter (isCandidate env.query taskId epochId ast snapshotMax))) refs) := by
  rw [runFactQuery, haccepted, hview]
  rfl

theorem listFacts_all {o : ListFactsOptions} (h : o.limit = none) :
    s.listFacts taskId epochId o =
      .ok (bySeq (s.facts.rows.filter (o.admits taskId epochId))) := by
  rw [listFacts, h]
  rfl

theorem listFacts_limited (s : FactStore) (taskId epochId : String) {o : ListFactsOptions} {limit : ℤ}
    (h : o.limit = some limit) (hlimit : 1 ≤ limit) : s.listFacts taskId epochId o =
      .ok ((bySeq (s.facts.rows.filter (o.admits taskId epochId))).take limit.toNat) := by
  rw [listFacts, h, Option.all_some, decide_eq_true hlimit]
  rfl

/-- The page read through the statement is the page computed in memory. -/
theorem prepareQueryFacts_eq (s : FactStore) (haccepted : validateFactQuery ast = .ok ())
    (hview : ast.view = .facts) :
    s.prepareQueryFacts env taskId epochId ast = s.queryInMemory env taskId epochId ast := by
  have hlimit : 1 ≤ ast.limit := by
    obtain ⟨_, hrange, _⟩ := bind_ok.1 haccepted
    exact (of_decide_eq_true (require_ok.1 hrange)).1
  refine congrArg (s.findCursor taskId epochId ast >>= ·) (funext fun cursor => ?_)
  set snapshotMax := (cursor.map (·.snapshotMaxFactSeq)).getD (s.maxFactSeq taskId epochId)
  rw [if_pos hview]
  by_cases hfast : (ast.predicate.isNone && isDefaultFactOrder ast &&
      cursor.all (·.mode ≠ some .remaining)) = true
  · have hlisted := listFacts_limited s taskId epochId
      (o := pageOptions ast snapshotMax cursor) (if_pos hfast)
      (hlimit.trans (Int.le_add_one (Int.le_refl _)))
    have hlarge : ast.limit.toNat < (ast.limit + 1).toNat := by omega
    simp only [Bool.and_eq_true] at hfast
    obtain ⟨⟨hpredicate, hdefault⟩, hmode⟩ := hfast
    rw [hlisted]
    refine Eq.trans (runFactQuery_eq haccepted hview) ?_
    rw [fromCursor_limited s (Option.isNone_iff_eq_none.1 hpredicate) (of_decide_eq_true hdefault)
      hmode, pageResult_take hdefault hlarge]
    exact (runFactQuery_eq haccepted hview).symm
  · rw [listFacts_all (o := pageOptions ast snapshotMax cursor) (if_neg hfast)]
    refine Eq.trans (runFactQuery_eq haccepted hview) ?_
    rw [fromCursor_listed]
    exact (runFactQuery_eq haccepted hview).symm

/-! ### One page -/

/-- A cursor that points at position `k` of the answer. -/
structure PointsAt (env : FactEnv) (taskId epochId : String) (ast : FactQueryAst)
    (snapshotMax : ℕ) (rows : List FactRecord) (k : ℕ) (cursor : QueryCursor) : Prop where
  taskId : cursor.taskId = taskId
  epochId : cursor.epochId = epochId
  astDigest : cursor.astDigest = env.digestAst (canonicalAst ast)
  snapshot : cursor.snapshotMaxFactSeq = snapshotMax
  bySeq : isDefaultFactOrder ast = true → cursor.mode = some .factSeq ∧
    ∃ last, (rows.take k).getLast? = some last ∧ cursor.lastFactSeq = some last.factSeq
  byRest : isDefaultFactOrder ast = false → cursor.mode = some .remaining ∧
    cursor.remainingFactSeqs = (rows.drop k).map (·.factSeq)

variable {snapshotMax k : ℕ} {candidates : List FactRecord}

theorem sortFacts_strict (hnodup : (candidates.map (·.factSeq)).Nodup)
    (hdefault : isDefaultFactOrder ast = true) :
    (sortFacts env.query (orderOf ast) candidates).Pairwise
      fun left right => left.factSeq < right.factSeq := by
  have horder : orderOf ast = defaultOrder := of_decide_eq_true hdefault
  have hstrict := strict_sortBy (c := position env.query (orderOf ast))
    (separates_position env.query _ hnodup) hnodup.of_map
  refine hstrict.imp fun hlt => ?_
  rw [horder, position_default] at hlt
  exact cmp_eq_lt_iff _ _ |>.1 hlt

/-- The cursor is followed to its position. -/
theorem fromCursor_pointsAt {cursor : QueryCursor} (hnodup : (candidates.map (·.factSeq)).Nodup)
    (h : PointsAt env taskId epochId ast snapshotMax
      (sortFacts env.query (orderOf ast) candidates) k cursor) :
    fromCursor env.query ast (some cursor) candidates =
      (sortFacts env.query (orderOf ast) candidates).drop k := by
  cases hdefault : isDefaultFactOrder ast with
  | true =>
    obtain ⟨hmode, last, hlast, hseq⟩ := h.bySeq hdefault
    have hne : cursor.mode ≠ some .remaining := by rw [hmode]; decide
    simp only [fromCursor, if_neg hne, hseq, Option.any_some]
    rw [← filter_sortFacts env.query hnodup]
    exact filter_past (sortFacts_strict hnodup hdefault) hlast
  | false =>
    obtain ⟨hmode, hrest⟩ := h.byRest hdefault
    have hperm : (sortFacts env.query (orderOf ast) candidates).Perm candidates :=
      List.perm_insertionSort _ _
    simp only [fromCursor, if_pos hmode, hrest]
    exact filterMap_find hnodup fun fact hfact => hperm.mem_iff.1 (List.mem_of_mem_drop hfact)

/-- The next cursor points at the first row that the page left out. -/
theorem nextCursor_pointsAt (env : FactEnv) (taskId epochId : String) (ast : FactQueryAst)
    (snapshotMax : ℕ) {rows : List FactRecord} {n : ℕ} (hn : 1 ≤ n) (hmore : k + n < rows.length) :
    ∃ cursor, nextCursor env.digestAst taskId epochId ast snapshotMax (rows.drop k)
        ((rows.drop k).take n) = some cursor ∧
      PointsAt env taskId epochId ast snapshotMax rows (k + n) cursor := by
  have hlength : ((rows.drop k).take n).length = n := by
    rw [List.length_take, List.length_drop]; omega
  have hshort : ((rows.drop k).take n).length < (rows.drop k).length := by
    rw [hlength, List.length_drop]; omega
  obtain ⟨last, hlast⟩ : ∃ last, ((rows.drop k).take n).getLast? = some last := by
    refine Option.ne_none_iff_exists'.1 fun hnone => ?_
    rw [List.getLast?_eq_none_iff] at hnone
    rw [hnone] at hlength
    simp at hlength
    omega
  have hend : (rows.take (k + n)).getLast? = some last := by
    rw [List.take_add, List.getLast?_append, hlast]
    rfl
  simp only [nextCursor, hlast, if_pos hshort]
  refine ⟨_, rfl, ?_⟩
  cases hdefault : isDefaultFactOrder ast with
  | true =>
    exact ⟨rfl, rfl, rfl, rfl, fun _ => ⟨rfl, last, hend, rfl⟩,
      fun h => absurd (hdefault.symm.trans h) Bool.true_eq_false.mp⟩
  | false =>
    refine ⟨rfl, rfl, rfl, rfl, fun h => absurd (hdefault.symm.trans h) Bool.false_ne_true,
      fun _ => ⟨rfl, ?_⟩⟩
    rw [hlength, List.drop_drop]
    rfl

theorem nextCursor_end {rows : List FactRecord} {n : ℕ} (hmore : ¬ k + n < rows.length) :
    nextCursor env.digestAst taskId epochId ast snapshotMax (rows.drop k)
      ((rows.drop k).take n) = none := by
  unfold nextCursor
  split
  · rfl
  · rw [if_neg]
    simp only [List.length_take, List.length_drop]
    omega

/-- Where the next page starts: at the front, or at a stored cursor. -/
def StandsAt (env : FactEnv) (s : FactStore) (taskId epochId : String) (ast : FactQueryAst)
    (snapshotMax : ℕ) (rows : List FactRecord) (k : ℕ) : Option String → Prop
  | none => k = 0 ∧ s.maxFactSeq taskId epochId = snapshotMax
  | some cursorRef => cursorRef ≠ "" ∧ ∃ payload,
      s.cursors.get? cursorRef = some ⟨cursorRef, taskId, epochId, payload⟩ ∧
        PointsAt env taskId epochId ast snapshotMax rows k payload

/-- A cursor is still there in every later store. -/
theorem StandsAt.later {s' : FactStore} {rows : List FactRecord} {cursorRef : String}
    (h : StandsAt env s taskId epochId ast snapshotMax rows k (some cursorRef))
    (hext : Extends s s') :
    StandsAt env s' taskId epochId ast snapshotMax rows k (some cursorRef) := by
  obtain ⟨hne, payload, hstored, hpoints⟩ := h
  refine ⟨hne, payload, ?_, hpoints⟩
  rw [Table.get?_eq_some] at hstored ⊢
  exact ⟨hext.cursors _ hstored.1, hstored.2⟩

/-- Newer facts are no candidates of an older snapshot. -/
theorem candidates_later {s' : FactStore} (hext : Extends s s')
    (hmax : snapshotMax ≤ maxSeq s.facts.rows) :
    s'.facts.rows.filter (isCandidate env.query taskId epochId ast snapshotMax) =
      s.facts.rows.filter (isCandidate env.query taskId epochId ast snapshotMax) := by
  obtain ⟨more, hrows, hmore⟩ := hext.facts
  have hnone : more.filter (isCandidate env.query taskId epochId ast snapshotMax) = [] := by
    refine List.filter_eq_nil_iff.2 fun fact hfact hcandidate => ?_
    have hnew := hmore fact hfact
    simp only [isCandidate, Bool.and_eq_true, decide_eq_true_eq] at hcandidate
    omega
  rw [hrows, List.filter_append, hnone, List.append_nil]

theorem request_accepted (haccepted : validateFactQuery ast = .ok ()) {limit : ℤ}
    (hlimit : 1 ≤ limit ∧ limit ≤ 500) (cursorRef : Option String) :
    validateFactQuery (request ast limit cursorRef) = .ok () := by
  obtain ⟨_, _, hrest⟩ := bind_ok.1 haccepted
  exact bind_ok.2 ⟨(), require_ok.2 (decide_eq_true hlimit), hrest⟩

section Chain

variable {rows : List FactRecord} {cursorRef : Option String} {limit : ℤ}

/-- The rows are the answer of the snapshot, as the store still has it. -/
def AnswerIs (env : FactEnv) (s : FactStore) (taskId epochId : String) (ast : FactQueryAst)
    (snapshotMax : ℕ) (rows : List FactRecord) : Prop :=
  sortFacts env.query (orderOf ast)
    (s.facts.rows.filter (isCandidate env.query taskId epochId ast snapshotMax)) = rows

theorem findCursor_none : s.findCursor taskId epochId (request ast limit none) = .ok none := rfl

theorem findCursor_stored {ref : String} {payload : QueryCursor} (hne : ref ≠ "")
    (h : s.cursors.get? ref = some ⟨ref, taskId, epochId, payload⟩) :
    s.findCursor taskId epochId (request ast limit (some ref)) = .ok (some payload) := by
  have hset : Js.truthyText (request ast limit (some ref)).cursorRef = some ref := by
    simp [request, Js.truthyText, Option.filter, hne]
  have hrow : (some (⟨ref, taskId, epochId, payload⟩ : StoredCursor)).filter
      (fun row => decide (row.taskId = taskId) && decide (row.epochId = epochId)) =
      some ⟨ref, taskId, epochId, payload⟩ := by
    simp [Option.filter]
  rw [findCursor, hset]
  simp only [h, hrow]
  rfl

/-- The page at a position holds the rows of the answer from there on. -/
theorem prepareQueryFacts_at (haccepted : validateFactQuery ast = .ok ()) (hview : ast.view = .facts)
    (hlimit : 1 ≤ limit ∧ limit ≤ 500) (hanswer : AnswerIs env s taskId epochId ast snapshotMax rows)
    (hat : StandsAt env s taskId epochId ast snapshotMax rows k cursorRef) :
    s.prepareQueryFacts env taskId epochId (request ast limit cursorRef) =
      .ok (pageResult env.digestAst taskId epochId (request ast limit cursorRef) snapshotMax
        (rows.drop k) (s.pageRefs env)) := by
  have hpage := request_accepted haccepted hlimit cursorRef
  rw [prepareQueryFacts_eq s hpage hview, queryInMemory]
  cases cursorRef with
  | none =>
    obtain ⟨rfl, hmax⟩ := hat
    rw [findCursor_none]
    refine Eq.trans (runFactQuery_eq hpage hview) ?_
    rw [Option.map_none, Option.getD_none, hmax]
    exact congrArg (fun candidates => Except.ok (pageResult env.digestAst taskId epochId
      (request ast limit none) snapshotMax candidates (s.pageRefs env))) hanswer
  | some ref =>
    obtain ⟨hne, payload, hstored, hpoints⟩ := hat
    rw [findCursor_stored hne hstored]
    refine Eq.trans (runFactQuery_eq hpage hview) ?_
    have hmatches : (some payload).all (fun cursor => decide (cursor.taskId = taskId) &&
        decide (cursor.epochId = epochId) && decide (cursor.astDigest =
          env.digestAst (canonicalAst (request ast limit (some ref))))) = true := by
      rw [Option.all_some, hpoints.taskId, hpoints.epochId, hpoints.astDigest]
      simp [request, canonicalAst]
    rw [hmatches, Option.map_some, Option.getD_some, hpoints.snapshot]
    have hnodup := factSeq_nodup s (isCandidate env.query taskId epochId ast snapshotMax)
    have hfound := fromCursor_pointsAt hnodup (hanswer.symm ▸ hpoints)
    refine congrArg (fun candidates => Except.ok (pageResult env.digestAst taskId epochId
      (request ast limit (some ref)) snapshotMax candidates (s.pageRefs env))) ?_
    exact hfound.trans (congrArg (List.drop k) hanswer)

/-- What a page leaves behind: its rows, and where the next one starts. -/
structure PageGiven (env : FactEnv) (s s' : FactStore) (taskId epochId : String)
    (ast : FactQueryAst) (snapshotMax : ℕ) (rows : List FactRecord) (k n : ℕ)
    (page : FactQueryPage) : Prop where
  fresh : Fresh env s'
  later : Extends s s'
  snapshot : page.snapshotMaxFactSeq = snapshotMax
  shows : page.rows = shown ast ((rows.drop k).take n)
  next : k + n < rows.length → ∃ cursorRef, page.nextCursorRef = some cursorRef ∧
    StandsAt env s' taskId epochId ast snapshotMax rows (k + n) (some cursorRef)
  last : ¬ k + n < rows.length → page.nextCursorRef = none

theorem queryFacts_at (hfresh : Fresh env s) (haccepted : validateFactQuery ast = .ok ())
    (hview : ast.view = .facts) (hlimit : 1 ≤ limit ∧ limit ≤ 500)
    (hanswer : AnswerIs env s taskId epochId ast snapshotMax rows)
    (hat : StandsAt env s taskId epochId ast snapshotMax rows k cursorRef) :
    ∃ s' page, s.queryFacts env taskId epochId (request ast limit cursorRef) = .ok (s', page) ∧
      PageGiven env s s' taskId epochId ast snapshotMax rows k limit.toNat page := by
  have hresult := prepareQueryFacts_at haccepted hview hlimit hanswer hat
  have hrefs := prepareQueryFacts_refs hresult
  obtain ⟨s', hkept⟩ := keepResult_succeeds taskId epochId hfresh hrefs
  refine ⟨s', _, bind_ok.2 ⟨_, hresult, bind_ok.2 ⟨s', hkept, rfl⟩⟩,
    keepResult_fresh hfresh hrefs hkept, keepResult_extends hkept, rfl, rfl, ?_, ?_⟩
  · intro hmore
    have hn : 1 ≤ limit.toNat := by omega
    obtain ⟨payload, hnext, hpoints⟩ := nextCursor_pointsAt env taskId epochId ast
      snapshotMax hn hmore
    have hcursor : (pageResult env.digestAst taskId epochId (request ast limit cursorRef) snapshotMax
        (rows.drop k) (s.pageRefs env)).cursor = some ((s.pageRefs env).cursorRef, payload) :=
      congrArg (Option.map _) hnext
    refine ⟨(s.pageRefs env).cursorRef, congrArg (Option.map _) hnext,
      env.normalizer.ids.nonempty _ _, payload, ?_, hpoints⟩
    obtain ⟨-, -, -, hcursors⟩ := keepResult_ok hkept
    rw [Table.get?_eq_some, hcursors, hcursor]
    exact ⟨List.mem_append_right _ (List.mem_singleton.2 rfl), rfl⟩
  · intro hend
    exact congrArg (Option.map _) (nextCursor_end hend)

/-! ### The chain of pages -/

/-- Following the cursors reads the answer in pages, whatever is committed in between. -/
theorem followFrom_reads (haccepted : validateFactQuery ast = .ok ()) (hview : ast.view = .facts) :
    ∀ (turns : List Turn) (s : FactStore) (k : ℕ) (cursorRef : Option String),
      (∀ turn ∈ turns, 1 ≤ turn.limit ∧ turn.limit ≤ 500) → Fresh env s →
      snapshotMax ≤ maxSeq s.facts.rows → AnswerIs env s taskId epochId ast snapshotMax rows →
      StandsAt env s taskId epochId ast snapshotMax rows k cursorRef →
      (cursorRef = none → ∃ turn rest, turns = turn :: rest ∧ turn.between = []) →
      ∃ pages rest, followFrom env taskId epochId ast s cursorRef turns = .ok (pages, rest) ∧
        (∀ page ∈ pages, page.snapshotMaxFactSeq = snapshotMax) ∧
        pages.map (·.rows) = (readPages rows k (turns.map (·.limit.toNat))).1.map (shown ast) ∧
        (rest = none ↔ (readPages rows k (turns.map (·.limit.toNat))).2 = none)
  | [], _, _, cursorRef, _, _, _, _, _, hstart => by
      refine ⟨[], cursorRef, rfl, by simp, rfl, ?_⟩
      cases cursorRef with
      | none => obtain ⟨_, _, h, _⟩ := hstart rfl; cases h
      | some ref => simp [readPages]
  | turn :: turns, s, k, cursorRef, hlimits, hfresh, hmax, hanswer, hat, hstart => by
      obtain ⟨hlimit, hlimits⟩ := List.forall_mem_cons.1 hlimits
      -- the first page is asked for at once, a later one finds its cursor in the store
      have hat' : StandsAt env (Runs.run (step env) s turn.between) taskId epochId ast snapshotMax
          rows k cursorRef := by
        cases cursorRef with
        | none =>
          obtain ⟨_, _, hcons, hbetween⟩ := hstart rfl
          cases hcons
          rw [hbetween]
          exact hat
        | some ref => exact hat.later (run_extends env s turn.between)
      have hext := run_extends env s turn.between
      have hanswer' : AnswerIs env (Runs.run (step env) s turn.between) taskId epochId ast
          snapshotMax rows := by
        rw [AnswerIs, candidates_later hext hmax]
        exact hanswer
      obtain ⟨s', page, hquery, hpage⟩ := queryFacts_at (run_fresh hfresh turn.between) haccepted
        hview hlimit hanswer' hat'
      have hext' := hext.trans hpage.later
      rw [List.map_cons, readPages]
      by_cases hmore : k + turn.limit.toNat < rows.length
      · obtain ⟨next, hnext, hstands⟩ := hpage.next hmore
        have hmax' : snapshotMax ≤ maxSeq s'.facts.rows := by
          obtain ⟨more, hrows, -⟩ := hext'.facts
          rw [hrows]
          exact hmax.trans (maxSeq_append _ _)
        have hanswer'' : AnswerIs env s' taskId epochId ast snapshotMax rows := by
          rw [AnswerIs, candidates_later hext' hmax]
          exact hanswer
        obtain ⟨pages, rest, hfollow, hsnap, hread, hrest⟩ := followFrom_reads haccepted hview turns
          s' _ (some next) hlimits hpage.fresh hmax' hanswer'' hstands (fun h => by cases h)
        refine ⟨page :: pages, rest, ?_, ?_, ?_, ?_⟩
        · rw [followFrom, hquery]
          simp only [bind, Except.bind, hnext, hfollow]
          rfl
        · exact List.forall_mem_cons.2 ⟨hpage.snapshot, hsnap⟩
        · rw [if_pos hmore, List.map_cons, List.map_cons, hpage.shows, hread]
        · rw [if_pos hmore]
          exact hrest
      · refine ⟨[page], none, ?_, ?_, ?_, ?_⟩
        · rw [followFrom, hquery]
          simp only [bind, Except.bind, hpage.last hmore]
          rfl
        · simpa using hpage.snapshot
        · rw [if_neg hmore, List.map_singleton, List.map_singleton, hpage.shows]
        · simp [if_neg hmore]

end Chain

/-! ### Snapshot pagination -/

theorem mem_answer {fact : FactRecord} : fact ∈ answer env s taskId epochId ast ↔
    fact ∈ s.facts.rows ∧ fact.taskId = taskId ∧ fact.epochId = epochId ∧
      satisfies env.query ast fact = true ∧ fact.factSeq ≤ s.maxFactSeq taskId epochId := by
  have hperm : (answer env s taskId epochId ast).Perm _ := List.perm_insertionSort _ _
  rw [hperm.mem_iff, List.mem_filter]
  simp only [isCandidate, Bool.and_eq_true, decide_eq_true_eq]
  tauto

theorem answer_strict (s : FactStore) (taskId epochId : String) (ast : FactQueryAst) :
    (answer env s taskId epochId ast).Pairwise fun left right =>
      position env.query (orderOf ast) left right = .lt :=
  strict_sortBy (separates_position env.query _ (factSeq_nodup s _)) (factSeq_nodup s _).of_map

theorem flatMap_shown (pages : List (List FactRecord)) :
    (pages.map (shown ast)).flatten = shown ast pages.flatten := by
  rw [shown, List.map_flatten]
  rfl

def sampleQuery : FactQueryAst where
  view := .facts
  select := ["factSeq", "payload"]
  orderBy := some [⟨"namespace", .asc⟩, ⟨"subjectRef", .desc⟩]
  limit := 1

def sampleOps : List FactOp :=
  [.createScanEpoch sampleEpoch,
   .commitFactBatch (sampleBatch [sampleAccount 0 "root" "*", sampleAccount 1000 "guest" "!"])]

end HuntWarden.FactStore
