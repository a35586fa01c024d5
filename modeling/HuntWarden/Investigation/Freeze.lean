import HuntWarden.Common.Ids
import HuntWarden.Investigation.CompletionValidator
import HuntWarden.Lib.Program

/-! Freezing an investigation with what is left undone as a limit. The queued actions are blocked and the
    open obligations limited one by one, each in a transaction of its own; only then is it checked whether
    the investigation can be closed. -/

namespace HuntWarden.Freeze

open Outcome InvestigationStore CompletionValidator Projection

inductive ExecutionStatus where
  | starting | running | paused | cancelling | stopped | failed
  deriving DecidableEq, Repr

structure InvestigationSession where
  sessionId : String
  executionStatus : ExecutionStatus
  investigationStatus : InvestigationStatus
  revision : ℕ
  completionSnapshotRef : Option String
  deriving DecidableEq, Repr

structure CompletionSnapshot where
  snapshotRef : String
  investigationStatus : InvestigationStatus
  maxEventSeq : ℕ
  openRequiredObligationIds : List String
  runningActionIds : List String
  limitedObligationIds : List String
  findingAssessmentIds : List String
  deriving DecidableEq, Repr

/-- The tables of one task and epoch that a freeze reads and writes; of the events only the number of the
    last one. -/
structure FreezeStore where
  completion : CompletionStore
  session : Option InvestigationSession
  snapshots : Table CompletionSnapshot.snapshotRef
  maxEventSeq : ℕ

/-- What a call gets from outside: the task and epoch, the ids it draws, and the time. -/
structure FreezeCall where
  taskId : String
  epochId : String
  snapshotRef : String
  assessmentId : ℕ → String
  now : String

variable (r : Runtime) (call : FreezeCall)

abbrev FreezeProgram := Program FreezeStore Thrown

def FreezeStore.investigation (s : FreezeStore) : InvestigationStore := s.completion.investigation

def FreezeStore.withInvestigation (s : FreezeStore) (investigation : InvestigationStore) : FreezeStore :=
  { s with
    completion := { s.completion with investigation }
    maxEventSeq := s.maxEventSeq + 1 }

/-! ### Limits -/

def blockReady (reason : String) (action : InvestigationAction) : FreezeProgram Unit :=
  if action.status = .ready then Program.write fun s => do
    let investigation ← s.investigation.blockReadyInvestigationAction action.actionId reason
    return s.withInvestigation investigation
  else pure ()

def limiting (reason : String) : Closing where
  status _ := .limited
  resultRefs o := o.resultRefs
  gapRefs o := Js.distinct (o.gapRefs ++ [reason])

def limitOpen (reason : String) (obligation : InvestigationObligation) : FreezeProgram Unit :=
  if obligation.status.isOpen then Program.write fun s => do
    let investigation ← s.investigation.updateInvestigationObligation obligation.obligationId
      obligation.status (limiting reason)
    return s.withInvestigation investigation
  else pure ()

/-! ### The conclusions of the controller -/

/-- Everything is done, and nothing of it failed. -/
def deterministic (s : CompletionStore) : Bool :=
  !s.investigation.listInvestigationObligations.isEmpty &&
  s.investigation.listInvestigationObligations.all (fun o => !o.required || o.status = .satisfied) &&
  s.investigation.listInvestigationActions.all
    (fun a => a.status = .succeeded || a.status = .partialResult) &&
  s.checkpoints.all (·.status = .complete)

/-- A covered category about which nothing has been concluded. -/
def unconcluded (s : CompletionStore) (run : CoverageRun) : Bool :=
  run.status = .complete && run.applicability = .applicable &&
  !(effective r s).any fun p => p.category = run.category &&
    (p.scope = .observedCategory || isRisk p.conclusion || p.conclusion = .conflict)

def categoryConclusion (n : ℕ) (run : CoverageRun) : Assessment where
  assessmentId := call.assessmentId n
  taskId := call.taskId
  epochId := call.epochId
  authorType := .system
  category := run.category
  subjectRef := none
  scope := .observedCategory
  verdict := .noObservedFinding
  createdAt := call.now

def materializeDeterministicCategoryConclusions (s : FreezeStore) : FreezeStore :=
  if deterministic s.completion then
    { s with completion := { s.completion with
        assessments := s.completion.assessments ++
          ((s.completion.coverage.filter (unconcluded r s.completion)).mapIdx
            (categoryConclusion call)) } }
  else s

/-! ### Freezing -/

def completionSnapshot (s : FreezeStore) : CompletionSnapshot :=
  let evaluation := evaluate r s.completion call.epochId
  { snapshotRef := call.snapshotRef
    investigationStatus := evaluation.status
    maxEventSeq := s.maxEventSeq
    openRequiredObligationIds := evaluation.openRequiredObligationIds
    runningActionIds := evaluation.runningActionIds
    limitedObligationIds := evaluation.limitedObligationIds
    findingAssessmentIds := evaluation.findingAssessmentIds }

def putCompletionSnapshot (snapshot : CompletionSnapshot) (s : FreezeStore) :
    Except Thrown FreezeStore := do
  let snapshots ← orThrow (s.snapshots.insert? snapshot)
    (uniqueConstraint "completion_snapshots.snapshot_ref")
  return { s with snapshots }

/-- The session of the epoch, if there is one, is stopped. -/
def stopSession (snapshot : CompletionSnapshot) (s : FreezeStore) : FreezeStore :=
  match s.session with
  | none => s
  | some session => { s with
      session := some { session with
        executionStatus := .stopped
        investigationStatus := snapshot.investigationStatus
        completionSnapshotRef := some snapshot.snapshotRef
        revision := session.revision + 1 }
      maxEventSeq := s.maxEventSeq + 1 }

/-- `new Error(…)` with the reasons of the evaluation -/
def cannotClose (s : CompletionStore) : Thrown :=
  let reasons := "；".intercalate (evaluate r s call.epochId).reasons
  .native s!"调查不能结束：{reasons}"

def freeze : FreezeProgram CompletionSnapshot := do
  Program.write fun s => .ok (materializeDeterministicCategoryConclusions r call s)
  Program.reads fun s => require (canClose s.completion) (cannotClose r call s.completion)
  let snapshot ← Program.gets (completionSnapshot r call)
  Program.write (putCompletionSnapshot snapshot)
  Program.write fun s => .ok (stopSession snapshot s)
  return snapshot

/-- The snapshot that the session names. -/
def existingSnapshot (s : FreezeStore) : Option CompletionSnapshot :=
  (s.session.bind fun session => Js.truthyText session.completionSnapshotRef).bind s.snapshots.get?

def freezeWithLimits (reason : String) : FreezeProgram CompletionSnapshot := do
  let existing ← Program.gets existingSnapshot
  match existing with
  | some existing => return existing
  | none =>
    let actions ← Program.gets fun s => s.investigation.listInvestigationActions
    Program.each (blockReady reason) actions
    let obligations ← Program.gets fun s => s.investigation.listInvestigationObligations
    Program.each (limitOpen reason) obligations
    freeze r call

/-! ### The loops -/

variable {r call} {s s' : FreezeStore} {reason : String}

/-- Rewriting one row of a list and then the other selected ones. -/
theorem map_rewrite {ρ : Type} [DecidableEq ρ] {rows rest : List ρ} {a : ρ} {f : ρ → ρ}
    {selected : ρ → Prop} [DecidablePred selected] (ha : selected a) (hf : ¬ selected (f a)) :
    (rows.map fun x => if x = a then f x else x).map
        (fun x => if x ∈ rest ∧ selected x then f x else x) =
      rows.map fun x => if x ∈ a :: rest ∧ selected x then f x else x := by
  rw [List.map_map]
  refine List.map_congr_left fun x _ => ?_
  by_cases hx : x = a
  · subst hx
    simp [ha, hf]
  · simp [hx]

/-- What the loop over the actions has done. -/
structure ActionsBlocked (reason : String) (actions : List InvestigationAction) (s s' : FreezeStore) :
    Prop where
  session : s'.session = s.session
  snapshots : s'.snapshots = s.snapshots
  checkpoints : s'.completion.checkpoints = s.completion.checkpoints
  obligations : s'.investigation.obligations = s.investigation.obligations
  rows : s'.investigation.actions.rows = s.investigation.actions.rows.map fun a =>
    if a ∈ actions ∧ a.status = .ready then (blocked reason).apply a else a

theorem updateAction_rows {store : InvestigationStore} {a : InvestigationAction}
    (ha : a ∈ store.actions.rows) (f : ActionRewrite) :
    (store.updateAction a.actionId f).actions.rows =
      store.actions.rows.map fun x => if x = a then f.apply x else x := by
  rw [updateAction, IndexedTable.modify]
  refine List.map_congr_left fun x hx => ?_
  by_cases hid : x.actionId = a.actionId
  · have heq : x = a := store.actions.eq_of_key hx ha hid
    simp [heq]
  · have hne : x ≠ a := fun h => hid (h ▸ rfl)
    simp [hid, hne]

theorem each_blockReady (reason : String) {actions : List InvestigationAction}
    (hnodup : (actions.map (·.actionId)).Nodup)
    (hmem : ∀ a ∈ actions, a.status = .ready → a ∈ s.investigation.actions.rows) :
    ∃ s', (Program.each (blockReady reason) actions).run s = (.ok (), s') ∧
      ActionsBlocked reason actions s s' := by
  induction actions generalizing s with
  | nil => exact ⟨s, rfl, ⟨rfl, rfl, rfl, rfl, by simp⟩⟩
  | cons a rest ih =>
    rw [List.map_cons, List.nodup_cons] at hnodup
    by_cases hready : a.status = .ready
    · have ha := hmem a List.mem_cons_self hready
      have hblock : s.investigation.blockReadyInvestigationAction a.actionId reason =
          .ok (s.investigation.updateAction a.actionId (blocked reason)) := by
        rw [blockReadyInvestigationAction, Table.get?_of_mem ha]
        simp [orThrow, require, hready, bind, Except.bind, pure, Except.pure]
      have hrows := updateAction_rows ha (blocked reason)
      have hkept : ∀ b ∈ rest, b.status = .ready → b ∈ (s.withInvestigation
          (s.investigation.updateAction a.actionId (blocked reason))).investigation.actions.rows := by
        intro b hb hbready
        refine updateAction_other (hmem b (List.mem_cons_of_mem _ hb) hbready) fun hid => ?_
        exact hnodup.1 (hid ▸ List.mem_map_of_mem hb)
      obtain ⟨s', hrest, hdone⟩ := ih hnodup.2 hkept
      refine ⟨s', ?_, ⟨hdone.session, hdone.snapshots, hdone.checkpoints, hdone.obligations, ?_⟩⟩
      · rw [Program.each, blockReady, if_pos hready, Program.bind_returned (Program.write_returned ?_)]
        · exact hrest
        · rw [hblock]
          rfl
      · have hblocked : ((blocked reason).apply a).status ≠ .ready := by
          intro h
          cases h
        rw [hdone.rows]
        exact (congrArg _ hrows).trans (map_rewrite hready hblocked)
    · obtain ⟨s', hrest, hdone⟩ := ih hnodup.2 fun b hb => hmem b (List.mem_cons_of_mem _ hb)
      refine ⟨s', ?_, ⟨hdone.session, hdone.snapshots, hdone.checkpoints, hdone.obligations, ?_⟩⟩
      · rw [Program.each, blockReady, if_neg hready]
        exact hrest
      · rw [hdone.rows]
        refine List.map_congr_left fun x _ => ?_
        by_cases hx : x = a
        · subst hx
          simp [hready]
        · simp [hx]

/-- What the loop over the obligations has done. -/
structure ObligationsLimited (reason : String) (obligations : List InvestigationObligation)
    (s s' : FreezeStore) : Prop where
  session : s'.session = s.session
  snapshots : s'.snapshots = s.snapshots
  checkpoints : s'.completion.checkpoints = s.completion.checkpoints
  actions : s'.investigation.actions = s.investigation.actions
  rows : s'.investigation.obligations.rows = s.investigation.obligations.rows.map fun o =>
    if o ∈ obligations ∧ o.status.isOpen then (limiting reason).rewrite.apply o else o

theorem each_limitOpen (reason : String) {obligations : List InvestigationObligation}
    (hnodup : (obligations.map (·.obligationId)).Nodup)
    (hmem : ∀ o ∈ obligations, o.status.isOpen → o ∈ s.investigation.obligations.rows) :
    ∃ s', (Program.each (limitOpen reason) obligations).run s = (.ok (), s') ∧
      ObligationsLimited reason obligations s s' := by
  induction obligations generalizing s with
  | nil => exact ⟨s, rfl, ⟨rfl, rfl, rfl, rfl, by simp⟩⟩
  | cons o rest ih =>
    rw [List.map_cons, List.nodup_cons] at hnodup
    by_cases hopen : o.status.isOpen
    · obtain ⟨limited, hupdate, hrows⟩ := updateInvestigationObligation_ok
        (hmem o List.mem_cons_self hopen) (limiting reason)
      have hkept : ∀ o' ∈ rest, o'.status.isOpen → o' ∈ (s.withInvestigation
          { s.investigation with obligations := limited }).investigation.obligations.rows := by
        intro o' ho' hopen'
        have hne : o' ≠ o := by
          rintro rfl
          exact hnodup.1 (List.mem_map_of_mem ho')
        have hmapped : o' ∈ limited.rows := by
          rw [hrows]
          exact List.mem_map.2 ⟨o', hmem o' (List.mem_cons_of_mem _ ho') hopen', if_neg hne⟩
        exact hmapped
      obtain ⟨s', hrest, hdone⟩ := ih hnodup.2 hkept
      refine ⟨s', ?_, ⟨hdone.session, hdone.snapshots, hdone.checkpoints, hdone.actions, ?_⟩⟩
      · rw [Program.each, limitOpen, if_pos hopen, Program.bind_returned (Program.write_returned ?_)]
        · exact hrest
        · rw [hupdate]
          rfl
      · have hlimited : ¬ ((limiting reason).rewrite.apply o).status.isOpen = true := by
          intro h
          cases h
        rw [hdone.rows]
        exact (congrArg _ hrows).trans (map_rewrite hopen hlimited)
    · obtain ⟨s', hrest, hdone⟩ := ih hnodup.2 fun o' ho' => hmem o' (List.mem_cons_of_mem _ ho')
      refine ⟨s', ?_, ⟨hdone.session, hdone.snapshots, hdone.checkpoints, hdone.actions, ?_⟩⟩
      · rw [Program.each, limitOpen, if_neg hopen]
        exact hrest
      · rw [hdone.rows]
        refine List.map_congr_left fun x _ => ?_
        by_cases hx : x = o
        · subst hx
          simp [hopen]
        · simp [hx]

/-! ### The freeze -/

/-- The state that is frozen: what was queued is blocked, what was open is limited. -/
structure Limited (reason : String) (s s' : FreezeStore) : Prop where
  session : s'.session = s.session
  snapshots : s'.snapshots = s.snapshots
  checkpoints : s'.completion.checkpoints = s.completion.checkpoints
  actions : s'.investigation.actions.rows = s.investigation.actions.rows.map fun a =>
    if a.status = .ready then (blocked reason).apply a else a
  obligations : s'.investigation.obligations.rows = s.investigation.obligations.rows.map fun o =>
    if o.status.isOpen then (limiting reason).rewrite.apply o else o

/-- Without a snapshot, the loops lead to the freeze. -/
theorem freezeWithLimits_limited (r : Runtime) (call : FreezeCall) (reason : String)
    (hnone : existingSnapshot s = none) :
    ∃ s', Limited reason s s' ∧ (freezeWithLimits r call reason).run s = (freeze r call).run s' := by
  have hactions : (s.investigation.listInvestigationActions.map (·.actionId)).Nodup :=
    ((List.perm_insertionSort _ _).map _).nodup_iff.2 s.investigation.actions.keyed
  obtain ⟨s₁, hblocked, hs₁⟩ := each_blockReady reason hactions
    fun a ha _ => mem_listInvestigationActions.1 ha
  have hobligations : (s₁.investigation.listInvestigationObligations.map (·.obligationId)).Nodup :=
    ((List.perm_insertionSort _ _).map _).nodup_iff.2 s₁.investigation.obligations.keyed
  obtain ⟨s₂, hlimited, hs₂⟩ := each_limitOpen reason hobligations
    fun o ho _ => mem_listInvestigationObligations.1 ho
  refine ⟨s₂, ⟨?_, ?_, ?_, ?_, ?_⟩, ?_⟩
  · rw [hs₂.session, hs₁.session]
  · rw [hs₂.snapshots, hs₁.snapshots]
  · rw [hs₂.checkpoints, hs₁.checkpoints]
  · rw [hs₂.actions, hs₁.rows]
    refine List.map_congr_left fun a ha => ?_
    simp [mem_listInvestigationActions.2 ha]
  · rw [hs₂.rows, hs₁.obligations]
    refine List.map_congr_left fun o ho => ?_
    have hlisted : o ∈ s₁.investigation.listInvestigationObligations :=
      mem_listInvestigationObligations.2 (hs₁.obligations ▸ ho)
    simp [hlisted]
  · rw [freezeWithLimits, Program.gets_bind, hnone]
    dsimp only
    rw [Program.gets_bind, Program.bind_returned hblocked, Program.gets_bind,
      Program.bind_returned hlimited]

theorem materialize_session : (materializeDeterministicCategoryConclusions r call s).session = s.session := by
  rw [materializeDeterministicCategoryConclusions]
  split <;> rfl

theorem materialize_snapshots :
    (materializeDeterministicCategoryConclusions r call s).snapshots = s.snapshots := by
  rw [materializeDeterministicCategoryConclusions]
  split <;> rfl

theorem materialize_investigation :
    (materializeDeterministicCategoryConclusions r call s).investigation = s.investigation := by
  rw [materializeDeterministicCategoryConclusions]
  split <;> rfl

/-- Assessments do not decide whether an investigation can be closed. -/
theorem materialize_canClose :
    canClose (materializeDeterministicCategoryConclusions r call s).completion =
      canClose s.completion := by
  rw [materializeDeterministicCategoryConclusions]
  split <;> rfl

def Stopped (s : FreezeStore) : Prop :=
  ∃ session, s.session = some session ∧ session.executionStatus = .stopped

instance : DecidablePred Stopped := fun s => match h : s.session with
  | none => .isFalse fun ⟨_, hs, _⟩ => by rw [h] at hs; cases hs
  | some session => decidable_of_iff (session.executionStatus = .stopped) (by simp [Stopped, h])

theorem stopSession_stopped {snapshot : CompletionSnapshot} :
    Stopped (stopSession snapshot s) ↔ s.session.isSome := by
  rw [Stopped, stopSession]
  cases hsession : s.session <;> simp [hsession]

theorem freeze_materializes :
    ((Program.write fun s =>
        .ok (materializeDeterministicCategoryConclusions r call s)) : FreezeProgram Unit).run s =
      (.ok (), materializeDeterministicCategoryConclusions r call s) := rfl

theorem freeze_closable (r : Runtime) (call : FreezeCall) (hclose : canClose s.completion = true)
    (hfresh : s.snapshots.get? call.snapshotRef = none) :
    ∃ snapshot s', (freeze r call).run s = (.ok snapshot, s') ∧ (Stopped s' ↔ s.session.isSome) := by
  let closing := materializeDeterministicCategoryConclusions r call s
  let snapshot := completionSnapshot r call closing
  obtain ⟨snapshots, hinsert⟩ : ∃ snapshots, closing.snapshots.insert? snapshot = some snapshots := by
    refine Option.ne_none_iff_exists'.1 fun hnone => ?_
    obtain ⟨x, hx, hkey⟩ := Table.insert?_eq_none.1 hnone
    rw [show closing.snapshots = s.snapshots from materialize_snapshots] at hx
    exact Table.get?_eq_none.1 hfresh x hx hkey
  have hput : putCompletionSnapshot snapshot closing = .ok { closing with snapshots } := by
    rw [putCompletionSnapshot, hinsert]
    rfl
  refine ⟨snapshot, stopSession snapshot { closing with snapshots }, ?_, ?_⟩
  · have hcheck : require (canClose closing.completion) (cannotClose r call closing.completion) =
        .ok () := by
      rw [require, materialize_canClose, hclose, if_pos rfl]
    rw [freeze, Program.bind_returned freeze_materializes,
      Program.bind_returned (Program.reads_returned (f := fun s : FreezeStore =>
        require (canClose s.completion) (cannotClose r call s.completion)) hcheck), Program.gets_bind,
      Program.bind_returned (Program.write_returned hput), Program.bind_run]
    rfl
  · have hsession : closing.session = s.session := materialize_session
    rw [stopSession_stopped]
    dsimp only
    rw [hsession]

theorem freeze_unclosable (r : Runtime) (call : FreezeCall) (hclose : canClose s.completion = false) :
    ∃ e, (freeze r call).run s = (.error e, materializeDeterministicCategoryConclusions r call s) := by
  let closing := materializeDeterministicCategoryConclusions r call s
  have hcheck : require (canClose closing.completion) (cannotClose r call closing.completion) =
      .error (cannotClose r call closing.completion) := by
    rw [require, materialize_canClose, hclose, if_neg Bool.false_ne_true]
  refine ⟨cannotClose r call closing.completion, ?_⟩
  rw [freeze, Program.bind_returned freeze_materializes,
    Program.bind_thrown (Program.reads_thrown (f := fun s : FreezeStore =>
      require (canClose s.completion) (cannotClose r call s.completion)) hcheck)]

/-! ### All or nothing -/

/-- Nothing of the session, the obligations and the actions has changed. -/
structure Untouched (s s' : FreezeStore) : Prop where
  session : s'.session = s.session
  obligations : s'.investigation.obligations.rows = s.investigation.obligations.rows
  actions : s'.investigation.actions.rows = s.investigation.actions.rows

def NoneRunning (s : FreezeStore) : Prop := ∀ a ∈ s.investigation.actions.rows, a.status ≠ .running

/-- A call returns a snapshot and leaves the session stopped, or throws and leaves everything as it was;
    and without a running action it does not throw. -/
structure AllOrNothing (s : FreezeStore) (outcome : Except Thrown CompletionSnapshot × FreezeStore) :
    Prop where
  returned : ∀ snapshot, outcome.1 = .ok snapshot → Stopped outcome.2
  thrown : ∀ e, outcome.1 = .error e → Untouched s outcome.2
  total : NoneRunning s → ∃ snapshot, outcome.1 = .ok snapshot

/-- The states whose limits lead to a close. -/
structure Freezable (s : FreezeStore) : Prop where
  planned : s.investigation.obligations.rows ≠ []
  noneRunning : NoneRunning s
  discovered : ∀ c ∈ s.completion.checkpoints, c.status ≠ .running

/-- The states in which there is nothing to limit. -/
structure NothingQueued (s : FreezeStore) : Prop where
  actions : ∀ a ∈ s.investigation.actions.rows, a.status ≠ .ready
  obligations : ∀ o ∈ s.investigation.obligations.rows, o.status.isOpen = false

theorem map_eq_self_iff {ρ : Type} {l : List ρ} {f : ρ → ρ} : l.map f = l ↔ ∀ x ∈ l, f x = x := by
  conv_lhs => rw [← List.map_id l, List.map_map]
  exact List.map_inj_left

theorem Limited.closable (h : Limited reason s s') :
    canClose s'.completion = true ↔ Freezable s := by
  rw [canClose_iff]
  have hactions : (∀ a ∈ s'.investigation.actions.rows, a.status.isLive = false) ↔ NoneRunning s := by
    rw [h.actions, NoneRunning]
    refine List.forall_mem_map.trans (forall₂_congr fun a _ => ?_)
    rcases hstatus : a.status <;> simp [hstatus, ActionStatus.isLive, blocked]
  have hopen : ∀ o ∈ s'.investigation.obligations.rows, o.status.isOpen = false := by
    rw [h.obligations]
    refine List.forall_mem_map.2 fun o _ => ?_
    by_cases hopen : o.status.isOpen = true
    · rw [if_pos hopen]
      rfl
    · rw [if_neg hopen]
      exact Bool.not_eq_true _ ▸ hopen
  have hplanned : s'.investigation.obligations.rows ≠ [] ↔ s.investigation.obligations.rows ≠ [] := by
    rw [h.obligations, ne_eq, List.map_eq_nil_iff]
  constructor
  · rintro ⟨hrows, hterminal, -, hdiscovered⟩
    exact ⟨hplanned.1 hrows, hactions.1 hterminal, h.checkpoints ▸ hdiscovered⟩
  · rintro ⟨hrows, hrunning, hdiscovered⟩
    refine ⟨hplanned.2 hrows, hactions.2 hrunning, fun o ho _ => hopen o ho, ?_⟩
    rw [h.checkpoints]
    exact hdiscovered

theorem Limited.untouched (h : Limited reason s s') : Untouched s s' ↔ NothingQueued s := by
  have hactions : s'.investigation.actions.rows = s.investigation.actions.rows ↔
      ∀ a ∈ s.investigation.actions.rows, a.status ≠ .ready := by
    rw [h.actions, map_eq_self_iff]
    refine forall₂_congr fun a _ => ?_
    by_cases hready : a.status = .ready
    · rw [if_pos hready]
      refine iff_of_false (fun heq => ?_) fun hne => hne hready
      have hstatus := congrArg InvestigationAction.status heq
      rw [hready] at hstatus
      cases hstatus
    · simp [hready]
  have hobligations : s'.investigation.obligations.rows = s.investigation.obligations.rows ↔
      ∀ o ∈ s.investigation.obligations.rows, o.status.isOpen = false := by
    rw [h.obligations, map_eq_self_iff]
    refine forall₂_congr fun o _ => ?_
    by_cases hopen : o.status.isOpen = true
    · rw [if_pos hopen]
      refine iff_of_false (fun heq => ?_) fun hclosed => by rw [hclosed] at hopen; cases hopen
      have hstatus := congrArg (fun o : InvestigationObligation => o.status.isOpen) heq
      rw [hopen] at hstatus
      cases hstatus
    · simp [hopen]
  constructor
  · rintro ⟨-, hobl, hact⟩
    exact ⟨hactions.1 hact, hobligations.1 hobl⟩
  · rintro ⟨hact, hobl⟩
    exact ⟨h.session, hobligations.2 hobl, hactions.2 hact⟩

/-- When a call is all or nothing: the session is frozen already; or the limits lead to a close of a
    session that exists; or an action is running and there is nothing to limit. -/
def FreezesCleanly (s : FreezeStore) : Prop :=
  ((existingSnapshot s).isSome ∧ Stopped s) ∨
  (existingSnapshot s = none ∧ s.session.isSome ∧ Freezable s) ∨
  (existingSnapshot s = none ∧ ¬ NoneRunning s ∧ NothingQueued s)

theorem allOrNothing_existing {snapshot : CompletionSnapshot}
    (hexisting : existingSnapshot s = some snapshot) :
    AllOrNothing s ((freezeWithLimits r call reason).run s) ↔ Stopped s := by
  have hrun : (freezeWithLimits r call reason).run s = (.ok snapshot, s) := by
    rw [freezeWithLimits, Program.gets_bind, hexisting]
    rfl
  rw [hrun]
  constructor
  · intro h
    exact h.returned snapshot rfl
  · intro h
    exact ⟨fun _ _ => h, fun _ he => (nomatch he), fun _ => ⟨snapshot, rfl⟩⟩

theorem allOrNothing_freezable (hnone : existingSnapshot s = none) (hfreezable : Freezable s)
    (hfresh : s.snapshots.get? call.snapshotRef = none) :
    AllOrNothing s ((freezeWithLimits r call reason).run s) ↔ s.session.isSome := by
  obtain ⟨s₁, hlimited, hrun⟩ := freezeWithLimits_limited r call reason hnone
  obtain ⟨snapshot, s₂, hfreeze, hstopped⟩ := freeze_closable r call
    (hlimited.closable.2 hfreezable) (by rw [hlimited.snapshots]; exact hfresh)
  rw [hlimited.session] at hstopped
  rw [hrun, hfreeze, ← hstopped]
  constructor
  · intro h
    exact h.returned snapshot rfl
  · intro h
    exact ⟨fun _ _ => h, fun _ he => (nomatch he), fun _ => ⟨snapshot, rfl⟩⟩

theorem allOrNothing_unfreezable (hnone : existingSnapshot s = none) (hfreezable : ¬ Freezable s) :
    AllOrNothing s ((freezeWithLimits r call reason).run s) ↔ ¬ NoneRunning s ∧ NothingQueued s := by
  obtain ⟨s₁, hlimited, hrun⟩ := freezeWithLimits_limited r call reason hnone
  have hclose : canClose s₁.completion = false := by
    rw [← Bool.not_eq_true]
    exact fun h => hfreezable (hlimited.closable.1 h)
  obtain ⟨e, hfreeze⟩ := freeze_unclosable r call hclose
  have hkept : Untouched s (materializeDeterministicCategoryConclusions r call s₁) ↔ Untouched s s₁ := by
    constructor
    · rintro ⟨hs, ho, ha⟩
      rw [materialize_investigation] at ho ha
      exact ⟨materialize_session ▸ hs, ho, ha⟩
    · rintro ⟨hs, ho, ha⟩
      exact ⟨materialize_session.trans hs, by rwa [materialize_investigation],
        by rwa [materialize_investigation]⟩
  rw [hrun, hfreeze, ← hlimited.untouched, ← hkept]
  constructor
  · intro h
    refine ⟨fun hrunning => ?_, h.thrown e rfl⟩
    obtain ⟨snapshot, hreturned⟩ := h.total hrunning
    cases hreturned
  · rintro ⟨hrunning, huntouched⟩
    exact ⟨fun _ he => (nomatch he), fun _ _ => huntouched, fun h => absurd h hrunning⟩

/-- A freeze with limits is all or nothing exactly when it freezes cleanly; the id drawn for the snapshot
    is a new one. -/
theorem freeze_all_or_nothing (r : Runtime) (call : FreezeCall) (reason : String) (s : FreezeStore)
    (hfresh : s.snapshots.get? call.snapshotRef = none) :
    AllOrNothing s ((freezeWithLimits r call reason).run s) ↔ FreezesCleanly s := by
  rw [FreezesCleanly]
  cases hexisting : existingSnapshot s with
  | some snapshot => simp [allOrNothing_existing hexisting]
  | none =>
    by_cases hfreezable : Freezable s
    · have hrunning := hfreezable.noneRunning
      simp [allOrNothing_freezable hexisting hfreezable hfresh, hfreezable, hrunning]
    · simp [allOrNothing_unfreezable hexisting hfreezable, hfreezable]

/-! ### Freezes on concrete input -/

def sampleCall : FreezeCall := ⟨"TASK-1", "EPOCH-1", "CSNAP-1", fun _ => "ASM-1", ""⟩

/-- One open obligation and the queued action that is to satisfy it. -/
def openStore : InvestigationStore where
  obligations := IndexedTable.empty.insertOrIgnore
    ⟨"OBL-1", "o1", "COVERAGE", [], true, .queued, [], []⟩
  actions := IndexedTable.empty.insertOrIgnore
    ⟨"ACT-1", "a1", ["OBL-1"], [], "v1", .safeReobserve, 0, .ready, 1, none, none, 0⟩
  attempts := .empty

def sampleStore (checkpoints : List DiscoveryCheckpoint) : FreezeStore where
  completion := ⟨openStore, checkpoints, [], [], [], [], [], []⟩
  session := some ⟨"SESSION-1", .running, .open_, 1, none⟩
  snapshots := .empty
  maxEventSeq := 0

theorem freeze_all_or_nothing_sample :
    AllOrNothing (sampleStore [])
      ((freezeWithLimits sampleRuntime sampleCall "provider failed").run (sampleStore [])) :=
  (freeze_all_or_nothing sampleRuntime sampleCall "provider failed" (sampleStore []) rfl).2
    (Or.inr (Or.inl ⟨rfl, rfl, ⟨by decide, by unfold NoneRunning; decide, by decide⟩⟩))

/-- A discovery that is still under way. -/
def discovering : FreezeStore := sampleStore [⟨"CKPT-1", .running⟩]

/-- No action is running, and the call throws after it has blocked the queued action and limited the open
    obligation. -/
theorem limited_without_freezing :
    NoneRunning discovering ∧
    ¬ AllOrNothing discovering
      ((freezeWithLimits sampleRuntime sampleCall "provider failed").run discovering) ∧
    ((freezeWithLimits sampleRuntime sampleCall "provider failed").run
      discovering).2.investigation.actions.rows ≠ discovering.investigation.actions.rows ∧
    ((freezeWithLimits sampleRuntime sampleCall "provider failed").run
      discovering).2.investigation.obligations.rows ≠ discovering.investigation.obligations.rows := by
  have hrunning : NoneRunning discovering := by
    unfold NoneRunning
    decide
  have hthrown : ((freezeWithLimits sampleRuntime sampleCall "provider failed").run
      discovering).1.toOption = none := by decide
  refine ⟨hrunning, fun h => ?_, by decide, by decide⟩
  obtain ⟨snapshot, hreturned⟩ := h.total hrunning
  rw [hreturned] at hthrown
  cases hthrown

end HuntWarden.Freeze
