import HuntWarden.Discovery.Checkpoints
import Mathlib.Algebra.GroupWithZero.Nat

/-! What the checkpoint of an enumeration accounts for. As long as every page that is not marked as limited
    continues where the checkpoint is, ends without gaps that no page makes up for, and has its facts
    committed next, a COMPLETE checkpoint stands for one chain of committed pages, and counts them. -/

namespace HuntWarden.Enumeration

open Outcome Normalizer

/-- Pages from a first one on, each with the cursor that the one before it gave. -/
inductive Followed : List Page → Option String → Prop
  | first {page : Page} (h : page.cursorRef = none) : Followed [page] page.next
  | next {pages : List Page} {cursorRef : String} {page : Page} (h : Followed pages (some cursorRef))
      (hpage : page.cursorRef = some cursorRef) : Followed (pages ++ [page]) page.next

def pageLimit (gap : CoverageGap) : Bool := gap.code = "NODE_LIMIT" && gap.resumable

/-- The pages that a checkpoint stands for. A page with a gap is followed by another. -/
structure Chain (s : CheckpointStore) (checkpoint : Playbooks.DiscoveryCheckpoint) (pages : List Page) :
    Prop where
  followed : Followed pages checkpoint.cursorRef
  scope : ∀ page ∈ pages, page.scope = checkpoint.scope
  committed : ∀ page ∈ pages, page ∈ s.committed
  gaps : ∀ page ∈ pages, ∀ gap ∈ page.gaps, pageLimit gap ∧ page.next.isSome
  scanned : checkpoint.scannedCount = (pages.map fun page => page.scan.scannedCount).sum
  matched : checkpoint.matchedCount = (pages.map fun page => page.scan.matchedCount).sum
  returned : checkpoint.returnedCount = (pages.map fun page => page.scan.returnedCount).sum

/-- The facts of a page, as many as it returned, are in the table of batches. -/
def Recorded (s : CheckpointStore) (page : Page) : Prop :=
  ∃ row ∈ s.batch.batches.rows, row.sourceRunId = page.toolCallId ∧ row.factCount = page.scan.returnedCount

/-- A COMPLETE checkpoint accounts for a chain of committed pages that was followed to its end. -/
structure Accounted (s : CheckpointStore) : Prop where
  complete : ∀ checkpoint ∈ s.checkpoints.rows, checkpoint.status = .complete →
    checkpoint.cursorRef = none ∧ ∃ pages, Chain s checkpoint pages ∧ ∃ page ∈ pages.getLast?, page.scan.complete
  recorded : ∀ page ∈ s.committed, Recorded s page

variable (r : PageRuntime) (s : CheckpointStore)

/-- The facts of a page follow its checkpoint: nothing comes between the two, and the store takes them. -/
def Follows (call : EnumerateCall) (response : EnumerateResponse) (fails : ℕ → Option Thrown)
    (cut : Option ℕ) : Prop :=
  cut ≠ some (s.prologue r call response).length ∧
    (s.batch.commitFactBatch r.env fails (CheckpointStore.batchInput r call response)).isOk

/-- A page that is not marked as limited has only gaps that its cursor makes up for, continues where the
    checkpoint of its request is, and is followed by its facts. -/
def AccountedPage (call : EnumerateCall) (response : EnumerateResponse) (fails : ℕ → Option Thrown)
    (cut : Option ℕ) : Prop :=
  ∀ scan ∈ response.scan, s.limited r call response scan = false →
    (∀ gap ∈ response.gaps, pageLimit gap ∧ response.hasCursor) ∧
    (call.continuing → (s.previous r call).bind (·.cursorRef) = Js.truthyText call.cursorRef) ∧
    Follows r s call response fails cut

def Meets : CheckpointOp → Prop
  | .answer call (some response) fails cut => AccountedPage r s call response fails cut
  | _ => True

/-! ### What the statements leave alone -/

variable {r s} {s' : CheckpointStore}

/-- Neither checkpoints nor committed facts. -/
structure Frame (s s' : CheckpointStore) : Prop where
  checkpoints : s'.checkpoints = s.checkpoints
  committed : s'.committed = s.committed
  batches : s'.batch.batches = s.batch.batches

theorem Frame.refl (s : CheckpointStore) : Frame s s := ⟨rfl, rfl, rfl⟩

theorem Frame.transact {body : Except Thrown CheckpointStore} (h : ∀ s', body = .ok s' → Frame s s') :
    Frame s (transact s body) := transact_induction (Frame.refl s) h

theorem finishToolRun_batches (batch : BatchStore) (toolCallId : String) (status : ToolRunStatus)
    (result : Option Json) (error : Option String) :
    (batch.finishToolRun toolCallId status result error).batches = batch.batches := by
  rw [BatchStore.finishToolRun]
  split <;> rfl

theorem onFacts_batches {batch batch' : BatchStore} {body : FactStore → Except Thrown FactStore}
    (h : batch.onFacts body = .ok batch') : batch'.batches = batch.batches := by
  obtain ⟨factStore, -, h⟩ := bind_ok.1 h
  rw [← pure_ok.1 h]

theorem startToolRun_batches {batch batch' : BatchStore} {digestObject : Json → String}
    {record : ToolRunRecord} (h : batch.startToolRun digestObject record = .ok batch') :
    batch'.batches = batch.batches := by
  rw [BatchStore.startToolRun] at h
  split at h
  · obtain ⟨_, -, h⟩ := bind_ok.1 h
    rw [← pure_ok.1 h]
  · obtain ⟨toolRuns, -, h⟩ := bind_ok.1 h
    rw [← pure_ok.1 h]

theorem failCall_frame (s : CheckpointStore) (call : EnumerateCall) : Frame s (s.failCall call) := by
  rw [CheckpointStore.failCall]
  split
  · split
    · exact ⟨rfl, rfl, finishToolRun_batches _ _ _ _ _⟩
    · exact .refl s
  · exact .refl s

theorem onFacts_frame (body : FactStore → Except Thrown FactStore) :
    Frame s { s with batch := Outcome.transact s.batch (s.batch.onFacts body) } := by
  refine ⟨rfl, rfl, ?_⟩
  exact transact_induction (P := fun batch : BatchStore => batch.batches = s.batch.batches) rfl
    fun _ h => onFacts_batches h

theorem request_frame {call : EnumerateCall} {budget : Bool} (h : s.request r call budget = .ok s') :
    Frame s s' := by
  obtain ⟨_, -, h⟩ := bind_ok.1 h
  obtain ⟨_, -, h⟩ := bind_ok.1 h
  obtain ⟨batch, hbatch, h⟩ := bind_ok.1 h
  have hbatches := startToolRun_batches hbatch
  rw [← pure_ok.1 h]
  split
  · exact ⟨rfl, rfl, hbatches⟩
  · exact ⟨rfl, rfl, (finishToolRun_batches _ _ _ _ _).trans hbatches⟩

theorem putRemoteCursor_ok {cursor : RemoteCursor} (h : s.putRemoteCursor cursor = .ok s') :
    ∃ cursors, s' = { s with cursors } := by
  obtain ⟨cursors, -, h⟩ := bind_ok.1 h
  exact ⟨cursors, (pure_ok.1 h).symm⟩

theorem putDiscoveryCheckpoint_ok {value : Playbooks.DiscoveryCheckpoint}
    (h : s.putDiscoveryCheckpoint r value = .ok s') :
    ∃ checkpointId, s' = { s with checkpoints := s.checkpoints.put { value with checkpointId } } := by
  obtain ⟨_, -, h⟩ := bind_ok.1 h
  exact ⟨_, (pure_ok.1 h).symm⟩

/-! ### The facts of a page -/

theorem length_normalizeAll {env : Runtime} {input : FactBatchInput} {lookup : Lookup}
    {observations : List WireObservation} {d d' : Drawing} {facts : List FactRecord}
    (h : normalizeAll env input lookup observations d = .ok (facts, d')) :
    facts.length = observations.length := by
  induction observations generalizing d facts with
  | nil =>
    cases h
    rfl
  | cons observation rest ih =>
    obtain ⟨⟨fact, d₁⟩, -, h⟩ := bind_ok.1 h
    obtain ⟨⟨others, d₂⟩, hothers, h⟩ := bind_ok.1 h
    cases h
    rw [List.length_cons, List.length_cons, ih hothers]

theorem length_facts {env : Runtime} {input : FactBatchInput} {lookup : Lookup} {drawn drawn' : ℕ}
    {prepared : PreparedFactBatch}
    (h : prepareFactBatch env input lookup drawn = .ok (prepared, drawn')) :
    prepared.facts.length = input.observations.length := by
  obtain ⟨d, hfacts, -⟩ := prepareFactBatch_parts h
  exact length_normalizeAll hfacts

theorem Recorded.of_frame (h : Frame s s') {page : Page} (hpage : Recorded s page) : Recorded s' page := by
  rw [Recorded, h.batches]
  exact hpage

/-- A commit records its page, if the answer has a scan, and what was recorded stays so. -/
theorem commit_ok {call : EnumerateCall} {response : EnumerateResponse} {cursorRef : Option String}
    {fails : ℕ → Option Thrown} (h : CheckpointStore.commit r call response cursorRef fails s = .ok s') :
    s'.checkpoints = s.checkpoints ∧
      s'.committed = s.committed ++
        (response.scan.map (CheckpointStore.page r call response cursorRef)).toList ∧
      (∀ page, Recorded s page → Recorded s' page) ∧
      ∀ scan ∈ response.scan, Recorded s' (CheckpointStore.page r call response cursorRef scan) := by
  obtain ⟨batch, hbatch, h⟩ := bind_ok.1 h
  obtain ⟨prepared, drawn, hcommitted⟩ := BatchStore.commitFactBatch_ok r.env hbatch
  rw [← pure_ok.1 h]
  refine ⟨rfl, rfl, ?_, ?_⟩
  · rintro page ⟨row, hrow, hrun, hcount⟩
    refine ⟨row, ?_, hrun, hcount⟩
    rw [hcommitted.batches]
    exact List.mem_append_left _ hrow
  · intro scan hscan
    refine ⟨BatchStore.batchRow (CheckpointStore.batchInput r call response)
      (r.env.normalizer.ids.createId .batch s.batch.batchesDrawn)
      (FactStore.maxSeq s.batch.factStore.facts.rows + 1) prepared, ?_, rfl, ?_⟩
    · rw [hcommitted.batches]
      exact List.mem_append_right _ (List.mem_singleton.2 rfl)
    · have hlength : prepared.facts.length = response.objects.length := length_facts hcommitted.preparation
      have hreturned := (response.progress scan hscan).1
      exact hlength.trans hreturned.symm

theorem commit_of_isOk {call : EnumerateCall} {response : EnumerateResponse} {cursorRef : Option String}
    {fails : ℕ → Option Thrown}
    (h : (s.batch.commitFactBatch r.env fails (CheckpointStore.batchInput r call response)).isOk) :
    ∃ s', CheckpointStore.commit r call response cursorRef fails s = .ok s' := by
  cases hbatch : s.batch.commitFactBatch r.env fails (CheckpointStore.batchInput r call response) with
  | error e =>
    rw [hbatch] at h
    cases h
  | ok batch => exact ⟨_, bind_ok.2 ⟨batch, hbatch, rfl⟩⟩

/-! ### The invariant -/

/-- A checkpoint that is not limited stands for a chain, and one that is complete has nothing left. -/
structure Kept (s : CheckpointStore) : Prop where
  chain : ∀ checkpoint ∈ s.checkpoints.rows, checkpoint.status ≠ .limited →
    ∃ pages, Chain s checkpoint pages ∧ (checkpoint.status = .complete →
      checkpoint.cursorRef = none ∧ ∃ page ∈ pages.getLast?, page.scan.complete)
  recorded : ∀ page ∈ s.committed, Recorded s page

theorem Kept.accounted (h : Kept s) : Accounted s where
  complete checkpoint hmem hstatus := by
    obtain ⟨pages, hchain, hend⟩ := h.chain checkpoint hmem (by rw [hstatus]; decide)
    exact ⟨(hend hstatus).1, pages, hchain, (hend hstatus).2⟩
  recorded := h.recorded

theorem kept_empty : Kept .empty where
  chain _ hmem := (nomatch hmem)
  recorded _ hmem := (nomatch hmem)

theorem Chain.mono {checkpoint : Playbooks.DiscoveryCheckpoint} {pages : List Page}
    (h : Chain s checkpoint pages) (hsub : s.committed ⊆ s'.committed) : Chain s' checkpoint pages where
  followed := h.followed
  scope := h.scope
  committed page hpage := hsub (h.committed page hpage)
  gaps := h.gaps
  scanned := h.scanned
  matched := h.matched
  returned := h.returned

theorem Kept.of_frame (h : Kept s) (hframe : Frame s s') : Kept s' where
  chain checkpoint hmem hstatus := by
    rw [hframe.checkpoints] at hmem
    obtain ⟨pages, hchain, hend⟩ := h.chain checkpoint hmem hstatus
    refine ⟨pages, hchain.mono ?_, hend⟩
    rw [hframe.committed]
    exact List.Subset.refl _
  recorded page hpage := by
    rw [hframe.committed] at hpage
    exact (h.recorded page hpage).of_frame hframe

/-- A limited checkpoint accounts for nothing. -/
theorem Kept.put_limited (h : Kept s) {value : Playbooks.DiscoveryCheckpoint} (hvalue : value.status = .limited)
    (hput : s.putDiscoveryCheckpoint r value = .ok s') : Kept s' := by
  obtain ⟨checkpointId, rfl⟩ := putDiscoveryCheckpoint_ok hput
  refine ⟨?_, h.recorded⟩
  intro checkpoint hmem hstatus
  rcases Table.mem_put.1 hmem with rfl | ⟨hmem, -⟩
  · exact absurd hvalue hstatus
  · obtain ⟨pages, hchain, hend⟩ := h.chain checkpoint hmem hstatus
    exact ⟨pages, hchain.mono (List.Subset.refl _), hend⟩

/-- A commit keeps the invariant, whatever comes of the page. -/
theorem Kept.commit (h : Kept s) {call : EnumerateCall} {response : EnumerateResponse}
    {cursorRef : Option String} {fails : ℕ → Option Thrown}
    (hcommit : CheckpointStore.commit r call response cursorRef fails s = .ok s') : Kept s' := by
  obtain ⟨hcheckpoints, hcommitted, hkept, hpages⟩ := commit_ok hcommit
  refine ⟨?_, ?_⟩
  · intro checkpoint hmem hstatus
    rw [hcheckpoints] at hmem
    obtain ⟨pages, hchain, hend⟩ := h.chain checkpoint hmem hstatus
    refine ⟨pages, hchain.mono ?_, hend⟩
    rw [hcommitted]
    exact List.subset_append_left _ _
  · intro page hpage
    rw [hcommitted, List.mem_append] at hpage
    rcases hpage with hpage | hpage
    · exact hkept page (h.recorded page hpage)
    · rw [Option.mem_toList, Option.map_eq_some_iff] at hpage
      obtain ⟨scan, hscan, rfl⟩ := hpage
      exact hpages scan hscan

/-! ### A page and its checkpoint -/

theorem isSome_nextCursorRef (s : CheckpointStore) (response : EnumerateResponse) :
    (s.nextCursorRef r response).isSome = response.hasCursor := by
  rw [CheckpointStore.nextCursorRef, Option.isSome_map]
  rfl

theorem limited_eq_false {call : EnumerateCall} {response : EnumerateResponse} {scan : Scan}
    (h : s.limited r call response scan = false) :
    s.inheritedLimit r call = false ∧ CheckpointStore.stranded response scan = false := by
  rw [CheckpointStore.limited, Bool.or_eq_false_iff, Bool.or_eq_false_iff] at h
  exact ⟨h.1.1, h.2⟩

/-- The checkpoint that a continuing page finds is not limited. -/
theorem previous_status {call : EnumerateCall} (hcontinuing : call.continuing = true)
    (h : s.inheritedLimit r call = false) {previous : Playbooks.DiscoveryCheckpoint}
    (hprevious : s.previous r call = some previous) : previous.status ≠ .limited := by
  intro hstatus
  rw [CheckpointStore.inheritedLimit, hcontinuing, hprevious, Bool.true_and, Option.any_some] at h
  exact absurd hstatus (of_decide_eq_false h)

theorem status_complete {call : EnumerateCall} {response : EnumerateResponse} {scan : Scan}
    (cursorRef : Option String) (hlimited : s.limited r call response scan = false)
    (h : (s.nextCheckpoint r call response scan cursorRef).status = .complete) :
    response.hasCursor = false := by
  dsimp only [CheckpointStore.nextCheckpoint] at h
  rw [hlimited, if_neg Bool.false_ne_true] at h
  cases hcursor : response.hasCursor with
  | false => rfl
  | true =>
    rw [hcursor, if_pos rfl] at h
    cases h

/-- The chain of a page that is not limited: that of the checkpoint it continues, and the page. -/
theorem Kept.next (h : Kept s) {call : EnumerateCall} {response : EnumerateResponse} {scan : Scan}
    {cursorRef : Option String} (hcursor : cursorRef.isSome = response.hasCursor)
    (hlimited : s.limited r call response scan = false)
    (hgaps : ∀ gap ∈ response.gaps, pageLimit gap ∧ response.hasCursor)
    (hplace : call.continuing → (s.previous r call).bind (·.cursorRef) = Js.truthyText call.cursorRef)
    (hcommitted : s'.committed =
      s.committed ++ [CheckpointStore.page r call response cursorRef scan]) :
    ∃ pages, Chain s' (s.nextCheckpoint r call response scan cursorRef)
      (pages ++ [CheckpointStore.page r call response cursorRef scan]) := by
  have hmem : CheckpointStore.page r call response cursorRef scan ∈ s'.committed := by
    rw [hcommitted]
    exact List.mem_append_right _ (List.mem_singleton.2 rfl)
  have hpage : ∀ gap ∈ response.gaps, pageLimit gap ∧ cursorRef.isSome := by
    rw [hcursor]
    exact hgaps
  cases hcontinuing : call.continuing with
  | false =>
    have hfirst : Js.truthyText call.cursorRef = none := by
      rw [EnumerateCall.continuing] at hcontinuing
      exact Option.isSome_eq_false_iff.1 hcontinuing |> Option.isNone_iff_eq_none.1
    refine ⟨[], ?_, ?_, ?_, ?_, ?_, ?_, ?_⟩
    · exact .first hfirst
    · exact List.forall_mem_singleton.2 rfl
    · exact List.forall_mem_singleton.2 hmem
    · exact List.forall_mem_singleton.2 hpage
    all_goals
      dsimp only [CheckpointStore.nextCheckpoint, CheckpointStore.counted]
      rw [hcontinuing]
      rfl
  | true =>
    obtain ⟨place, hplaced⟩ := Option.isSome_iff_exists.1 hcontinuing
    obtain ⟨previous, hprevious, hcursorRef⟩ := Option.bind_eq_some_iff.1 ((hplace hcontinuing).trans hplaced)
    obtain ⟨hrow, hscope⟩ := Table.get?_eq_some.1 hprevious
    obtain ⟨pages, hchain, -⟩ := h.chain previous hrow
      (previous_status hcontinuing (limited_eq_false hlimited).1 hprevious)
    have hfollowed := hchain.followed
    rw [hcursorRef] at hfollowed
    refine ⟨pages, ?_, ?_, ?_, ?_, ?_, ?_, ?_⟩
    · exact .next hfollowed hplaced
    · intro page hpage
      rcases List.mem_append.1 hpage with hpage | hpage
      · exact (hchain.scope page hpage).trans hscope
      · rw [List.mem_singleton.1 hpage]
        rfl
    · intro page hpage
      rcases List.mem_append.1 hpage with hpage | hpage
      · rw [hcommitted]
        exact List.mem_append_left _ (hchain.committed page hpage)
      · rw [List.mem_singleton.1 hpage]
        exact hmem
    · intro page hlast
      rcases List.mem_append.1 hlast with hlast | hlast
      · exact hchain.gaps page hlast
      · rw [List.mem_singleton.1 hlast]
        exact hpage
    all_goals
      dsimp only [CheckpointStore.nextCheckpoint, CheckpointStore.counted]
      rw [hcontinuing, if_pos rfl, hprevious, List.map_append, List.sum_append, List.map_singleton,
        List.sum_singleton]
    · exact congrArg (· + _) hchain.scanned
    · exact congrArg (· + _) hchain.matched
    · exact congrArg (· + _) hchain.returned

/-- A page that is not limited has written its checkpoint and its facts. -/
theorem Kept.accounted_page (h : Kept s) {call : EnumerateCall} {response : EnumerateResponse} {scan : Scan}
    (hscan : response.scan = some scan) {cursorRef : Option String}
    (hcursor : cursorRef.isSome = response.hasCursor)
    (hlimited : s.limited r call response scan = false)
    (hgaps : ∀ gap ∈ response.gaps, pageLimit gap ∧ response.hasCursor)
    (hplace : call.continuing → (s.previous r call).bind (·.cursorRef) = Js.truthyText call.cursorRef)
    {s₁ : CheckpointStore} {fails : ℕ → Option Thrown}
    (hput : s.putDiscoveryCheckpoint r (s.nextCheckpoint r call response scan cursorRef) = .ok s₁)
    (hcommit : CheckpointStore.commit r call response cursorRef fails s₁ = .ok s') : Kept s' := by
  obtain ⟨checkpointId, rfl⟩ := putDiscoveryCheckpoint_ok hput
  obtain ⟨hcheckpoints, hcommitted, hkept, hpages⟩ := commit_ok hcommit
  rw [hscan, Option.map_some, Option.toList_some] at hcommitted
  refine ⟨?_, ?_⟩
  · intro checkpoint hmem hstatus
    rw [hcheckpoints] at hmem
    rcases Table.mem_put.1 hmem with rfl | ⟨hmem, -⟩
    · obtain ⟨pages, hchain⟩ := h.next hcursor hlimited hgaps hplace hcommitted
      refine ⟨_, ⟨hchain.followed, hchain.scope, hchain.committed, hchain.gaps, hchain.scanned,
        hchain.matched, hchain.returned⟩, fun hcomplete => ?_⟩
      have hlast : response.hasCursor = false := status_complete cursorRef hlimited hcomplete
      have hstranded := (limited_eq_false hlimited).2
      rw [CheckpointStore.stranded, hlast, Bool.not_false, Bool.true_and, Bool.not_eq_false'] at hstranded
      rw [hlast] at hcursor
      exact ⟨Option.isSome_eq_false_iff.1 hcursor |> Option.isNone_iff_eq_none.1,
        _, List.getLast?_concat, hstranded⟩
    · obtain ⟨pages, hchain, hend⟩ := h.chain checkpoint hmem hstatus
      refine ⟨pages, hchain.mono ?_, hend⟩
      rw [hcommitted]
      exact List.subset_append_left _ _
  · intro page hpage
    rw [hcommitted, List.mem_append, List.mem_singleton] at hpage
    rcases hpage with hpage | rfl
    · exact hkept page (h.recorded page hpage)
    · exact hpages scan hscan

/-- The checkpoint of a page and the facts of the page, with a crash between them or without. -/
theorem Kept.put_commit (h : Kept s) {call : EnumerateCall} {response : EnumerateResponse} {scan : Scan}
    (hscan : response.scan = some scan) {cursorRef : Option String}
    (hcursor : cursorRef.isSome = response.hasCursor) {fails : ℕ → Option Thrown} {cut : Option ℕ}
    (hmeets : s.limited r call response scan = false →
      (∀ gap ∈ response.gaps, pageLimit gap ∧ response.hasCursor) ∧
      (call.continuing → (s.previous r call).bind (·.cursorRef) = Js.truthyText call.cursorRef) ∧
      cut ≠ some 1 ∧
      (s.batch.commitFactBatch r.env fails (CheckpointStore.batchInput r call response)).isOk) :
    Kept (Statements.execute
      [fun s' => s'.putDiscoveryCheckpoint r (s'.nextCheckpoint r call response scan cursorRef),
        CheckpointStore.commit r call response cursorRef fails] cut s) := by
  by_cases hcut : cut = some 0
  · rw [Statements.execute, if_pos hcut]
    exact h
  cases hput : s.putDiscoveryCheckpoint r (s.nextCheckpoint r call response scan cursorRef) with
  | error e =>
    rw [Statements.execute_cons_error hput]
    exact h
  | ok s₁ =>
    rw [Statements.execute_cons_ok hcut hput]
    cases hlimited : s.limited r call response scan with
    | true =>
      have hstatus : (s.nextCheckpoint r call response scan cursorRef).status = .limited := by
        dsimp only [CheckpointStore.nextCheckpoint]
        rw [hlimited, if_pos rfl]
      refine Statements.execute_invariant (fun statement hmem _ _ hkept hok => ?_)
        (h.put_limited hstatus hput)
      rw [List.mem_singleton.1 hmem] at hok
      exact hkept.commit hok
    | false =>
      obtain ⟨hgaps, hplace, hnext, haccepted⟩ := hmeets hlimited
      have hbatch : s₁.batch = s.batch := by
        obtain ⟨checkpointId, rfl⟩ := putDiscoveryCheckpoint_ok hput
        rfl
      rw [← hbatch] at haccepted
      obtain ⟨s₂, hcommit⟩ : ∃ s₂, CheckpointStore.commit r call response cursorRef fails s₁ = .ok s₂ :=
        commit_of_isOk haccepted
      have hlater : cut.map (· - 1) ≠ some 0 := by
        intro hlater
        obtain ⟨n, rfl, hn⟩ := Option.map_eq_some_iff.1 hlater
        have hzero : n ≠ 0 := fun hn => hcut (congrArg some hn)
        have hone : n ≠ 1 := fun hn => hnext (congrArg some hn)
        omega
      rw [Statements.execute_cons_ok hlater hcommit]
      exact h.accounted_page hscan hcursor hlimited hgaps hplace hput hcommit

/-! ### A step -/

/-- All that an answer writes, up to wherever it ends. -/
theorem Kept.execute (h : Kept s) {call : EnumerateCall} {response : EnumerateResponse}
    {fails : ℕ → Option Thrown} {cut : Option ℕ} (hmeets : AccountedPage r s call response fails cut) :
    Kept (Statements.execute (s.answered r call response fails) cut s) := by
  rw [CheckpointStore.answered, CheckpointStore.prologue, List.append_assoc]
  have hcursors : ∀ statement ∈ (Js.truthyText response.cursor).toList.map
      fun helperCursor (s' : CheckpointStore) => s'.putRemoteCursor
        ⟨(s.nextCursorRef r response).getD "", call.namespace_, r.env.normalizer.digestObject call.request,
          helperCursor⟩,
      ∀ s₁ s₂, (∃ cursors, s₁ = { s with cursors }) → statement s₁ = .ok s₂ →
        ∃ cursors, s₂ = { s with cursors } := by
    rintro statement hmem s₁ s₂ ⟨cursors, rfl⟩ hok
    obtain ⟨helperCursor, -, rfl⟩ := List.mem_map.1 hmem
    obtain ⟨cursors', rfl⟩ := putRemoteCursor_ok hok
    exact ⟨cursors', rfl⟩
  rcases Statements.execute_append _ _ cut s with ⟨cut', heq⟩ | ⟨s₁, cut', hcut, hdone, heq⟩
  · rw [heq]
    refine Statements.execute_invariant (fun statement hmem s₁ s₂ hkept hok => ?_) h
    obtain ⟨helperCursor, -, rfl⟩ := List.mem_map.1 hmem
    obtain ⟨cursors, rfl⟩ := putRemoteCursor_ok hok
    exact hkept.of_frame ⟨rfl, rfl, rfl⟩
  · obtain ⟨cursors, rfl⟩ := Statements.complete_invariant hcursors ⟨s.cursors, rfl⟩ hdone
    rw [heq]
    have hkept : Kept { s with cursors } := h.of_frame ⟨rfl, rfl, rfl⟩
    cases hscan : response.scan with
    | none =>
      refine Statements.execute_invariant (fun statement hmem _ _ hkept hok => ?_) hkept
      rw [List.mem_singleton.1 hmem] at hok
      exact hkept.commit hok
    | some scan =>
      refine hkept.put_commit hscan (isSome_nextCursorRef s response) fun hlimited => ?_
      obtain ⟨hgaps, hplace, hnext, haccepted⟩ := hmeets scan hscan hlimited
      refine ⟨hgaps, hplace, ?_, haccepted⟩
      rintro rfl
      apply hnext
      rw [hcut, CheckpointStore.prologue, hscan, List.length_append]
      exact congrArg some (Nat.add_comm _ _)

theorem Kept.answer (h : Kept s) {call : EnumerateCall} {response : Option EnumerateResponse}
    {fails : ℕ → Option Thrown} {cut : Option ℕ}
    (hmeets : ∀ answer ∈ response, AccountedPage r s call answer fails cut) :
    Kept (s.answer r call response fails cut) := by
  have hwaiting : Kept { s with inFlight := s.inFlight.filter fun other => other.toolCallId ≠ call.toolCallId } :=
    h.of_frame ⟨rfl, rfl, rfl⟩
  cases response with
  | none => exact hwaiting.of_frame (failCall_frame _ call)
  | some response =>
    have hkept := hwaiting.execute (hmeets response rfl)
    rw [CheckpointStore.answer.eq_def]
    dsimp only
    split
    · exact hkept.of_frame (failCall_frame _ call)
    · exact hkept

theorem Kept.limit (h : Kept s) {cursorRef : Option String} {reason : String}
    (hok : s.limitDiscoveryCheckpoint r cursorRef reason = .ok s') : Kept s' := by
  rw [CheckpointStore.limitDiscoveryCheckpoint] at hok
  split at hok
  · rw [← Except.ok.inj hok]
    exact h
  · exact h.put_limited rfl hok

theorem step_kept (op : CheckpointOp) (h : Kept s) (hmeets : Meets r s op) : Kept (step r s op) := by
  cases op with
  | createScanEpoch epoch => exact h.of_frame (onFacts_frame _)
  | finishScanEpoch taskId epochId status => exact h.of_frame (onFacts_frame _)
  | request call budget => exact h.of_frame (Frame.transact fun _ => request_frame)
  | answer call response fails cut =>
    rw [step]
    split
    · refine h.answer fun answer hanswer => ?_
      rw [Option.mem_def.1 hanswer] at hmeets
      exact hmeets
    · exact h
  | limit cursorRef reason => exact transact_induction h fun _ => h.limit
  | restart => exact h.of_frame ⟨rfl, rfl, rfl⟩

/-- Whatever the order of pages, failures and restarts: a COMPLETE checkpoint accounts for its chain as long
    as every page that is not marked as limited meets the condition. -/
theorem checkpoints_accounted (ops : List CheckpointOp) (hmeets : Runs.Along (step r) (Meets r) .empty ops) :
    Accounted (runOps r ops) :=
  (Runs.run_invariant (fun _ op => step_kept op) ops _ kept_empty hmeets).accounted

/-! ### Two pages, and one that comes too late -/

instance (call : EnumerateCall) (response : EnumerateResponse) (fails : ℕ → Option Thrown)
    (cut : Option ℕ) : Decidable (AccountedPage r s call response fails cut) := by
  unfold AccountedPage Follows
  infer_instance

instance : DecidablePred (Meets r s)
  | .answer call (some response) fails cut =>
    inferInstanceAs (Decidable (AccountedPage r s call response fails cut))
  | .answer _ none _ _ => .isTrue trivial
  | .createScanEpoch _ => .isTrue trivial
  | .finishScanEpoch _ _ _ => .isTrue trivial
  | .request _ _ => .isTrue trivial
  | .limit _ _ => .isTrue trivial
  | .restart => .isTrue trivial

def samplePages : PageRuntime where
  env := BatchSystem.sampleBatchEnv
  ids := strokeIds
  taskId := "TASK-1"
  epochId := "EPOCH-1"
  targetFingerprint := "SHA256:host"
  modelToolResult _ _ _ := .ok .null

def sampleCall (toolCallId : String) (cursorRef : Option String) : EnumerateCall where
  toolCallId
  namespace_ := .persistence
  request := .obj []
  cursorRef
  source := { kind := .model }

/-- A page with the cron job on it. -/
def samplePage (scannedCount : ℕ) (command : String) (cursor : Option String) : EnumerateResponse where
  objects := (BatchSystem.cronBatch "1" command).observations
  edges := []
  gaps := if cursor.isSome then [⟨"NODE_LIMIT", none, none, true⟩] else []
  cursor
  scan := some ⟨scannedCount, 1, 1, cursor.isNone⟩
  wireDigest := "w"
  progress := by
    intro scan hscan
    cases hscan
    exact ⟨rfl, rfl⟩

def runningEpoch : CheckpointOp := .createScanEpoch ⟨"EPOCH-1", "TASK-1", "SHA256:host", .running⟩

def firstPage (toolCallId : String) (scannedCount : ℕ) : List CheckpointOp :=
  [.request (sampleCall toolCallId none) true,
    .answer (sampleCall toolCallId none) (some (samplePage scannedCount toolCallId (some "c")))
      (fun _ => none) none]

/-- The last page, after the first cursor that was drawn. -/
def lastPage (toolCallId : String) (scannedCount : ℕ) : List CheckpointOp :=
  [.request (sampleCall toolCallId (some (strokeIds.draw "CURSOR-" []))) true,
    .answer (sampleCall toolCallId (some (strokeIds.draw "CURSOR-" [])))
      (some (samplePage scannedCount toolCallId none)) (fun _ => none) none]

def twoPages : List CheckpointOp := runningEpoch :: firstPage "CALL-1" 7 ++ lastPage "CALL-2" 5

theorem checkpoints_accounted_two_pages :
    (runOps samplePages twoPages).checkpoints.rows.map (fun c => (c.status, c.scannedCount)) =
      [(.complete, 12)] ∧ Accounted (runOps samplePages twoPages) :=
  ⟨by decide, checkpoints_accounted twoPages (by decide)⟩

/-- Another run reads the first page again before the last page of the first run comes. -/
def twoRuns : List CheckpointOp :=
  runningEpoch :: firstPage "CALL-1" 7 ++ firstPage "CALL-3" 9 ++ lastPage "CALL-2" 5

theorem followed_end {pages : List Page} {place : Option String} (h : Followed pages place) :
    ∃ page, page.next = place ∧ (page.cursorRef = none ∧ pages = [page] ∨
      ∃ before cursorRef, Followed before (some cursorRef) ∧ page.cursorRef = some cursorRef ∧
        pages = before ++ [page]) := by
  cases h with
  | first hfirst => exact ⟨_, rfl, .inl ⟨hfirst, rfl⟩⟩
  | next hbefore hpage => exact ⟨_, rfl, .inr ⟨_, _, hbefore, hpage, rfl⟩⟩

/-- Of the three committed pages only the first and the last make a chain, and the checkpoint counts others. -/
theorem not_accounted_two_runs : ¬ Accounted (runOps samplePages twoRuns) := by
  intro h
  have hrun : (∃ checkpoint ∈ (runOps samplePages twoRuns).checkpoints.rows,
        checkpoint.status = .complete ∧ checkpoint.scannedCount = 14) ∧
      (∀ page ∈ (runOps samplePages twoRuns).committed, page.next = none →
        page.cursorRef = some (strokeIds.draw "CURSOR-" []) ∧ page.scan.scannedCount = 5) ∧
      ∀ page ∈ (runOps samplePages twoRuns).committed,
        page.next = some (strokeIds.draw "CURSOR-" []) →
        page.cursorRef = none ∧ page.scan.scannedCount = 7 := by decide +kernel
  obtain ⟨⟨checkpoint, hmem, hstatus, hscanned⟩, hlast, hfirst⟩ := hrun
  obtain ⟨hplace, pages, hchain, -⟩ := h.complete checkpoint hmem hstatus
  have hcount := hchain.scanned
  have hcommitted := hchain.committed
  obtain ⟨page, hnext, ⟨hnone, rfl⟩ | ⟨before, cursorRef, hbefore, hcursor, rfl⟩⟩ :=
    followed_end (hplace ▸ hchain.followed)
  · have hpage := hlast page (hcommitted page List.mem_cons_self) hnext
    rw [hnone] at hpage
    cases hpage.1
  · obtain ⟨hcursor', hfive⟩ :=
      hlast page (hcommitted page (List.mem_append_right _ (List.mem_singleton.2 rfl))) hnext
    obtain rfl := Option.some.inj (hcursor.symm.trans hcursor')
    obtain ⟨page', hnext', ⟨-, rfl⟩ | ⟨_, _, -, hsome, rfl⟩⟩ := followed_end hbefore
    · have hseven := (hfirst page' (hcommitted page' List.mem_cons_self) hnext').2
      rw [hscanned, List.map_append, List.sum_append, List.map_singleton, List.map_singleton,
        List.sum_singleton, List.sum_singleton, hfive, hseven] at hcount
      cases hcount
    · have hpage := hfirst page' (hcommitted page' (by simp)) hnext'
      rw [hsome] at hpage
      cases hpage.1

end HuntWarden.Enumeration
