import HuntWarden.Common.Errors
import HuntWarden.Investigation.Types
import HuntWarden.Lib.Js
import HuntWarden.Lib.Outcome
import HuntWarden.Lib.Table
import Mathlib.Data.List.Sort

/-! The obligations, actions and attempts of one task and epoch in the runtime store (every statement
    of the source carries `task_id=? AND epoch_id=?`, and the idempotency key digests both). An action
    proposed again is merged into the stored one, whatever state that is in. -/

namespace HuntWarden

open Outcome

structure InvestigationStore where
  obligations : IndexedTable InvestigationObligation.obligationId InvestigationObligation.dedupeKey
  actions : IndexedTable InvestigationAction.actionId InvestigationAction.idempotencyKey
  attempts : Table InvestigationActionAttempt.attemptId

namespace InvestigationStore

def empty : InvestigationStore := ⟨.empty, .empty, .empty⟩

def maxActiveInvestigationActions : ℕ := 1000

/-- `INSERT OR IGNORE`, then whatever row holds the dedupe key. -/
def putInvestigationObligation (s : InvestigationStore) (value : InvestigationObligation) :
    Except Thrown (InvestigationStore × InvestigationObligation) := do
  let s' := { s with obligations := s.obligations.insertOrIgnore value }
  let stored ← orThrow (s'.obligations.rows.find? fun o => o.dedupeKey = value.dedupeKey)
    (.native "Cannot read properties of undefined (reading 'payload')")
  return (s', stored)

/-- How an obligation is closed. -/
structure Closing where
  status : InvestigationObligation → ObligationStatus
  resultRefs : InvestigationObligation → List String
  gapRefs : InvestigationObligation → List String

abbrev ObligationRewrite :=
  IndexedTable.Rewrite InvestigationObligation.obligationId InvestigationObligation.dedupeKey

def Closing.rewrite (close : Closing) : ObligationRewrite where
  apply o :=
    { o with status := close.status o, resultRefs := close.resultRefs o, gapRefs := close.gapRefs o }
  key_apply _ := rfl
  alt_apply _ := rfl

/-- Closes the selected obligations that are still OPEN or QUEUED. -/
def closeObligations (s : InvestigationStore) (selected : InvestigationObligation → Bool)
    (close : Closing) : InvestigationStore where
  obligations := s.obligations.modify (fun o => o.status.isOpen && selected o) close.rewrite
  actions := s.actions
  attempts := s.attempts

/-- `UPDATE … WHERE obligation_id = ? AND status = ?` -/
def updateInvestigationObligation (s : InvestigationStore) (obligationId : String)
    (expectedStatus : ObligationStatus) (close : Closing) : Except Thrown InvestigationStore := do
  require (s.obligations.rows.any fun o => o.obligationId = obligationId ∧ o.status = expectedStatus)
    (invalidArgument "Obligation 状态已被其他执行路径更新")
  let obligations := s.obligations.modify
    (fun o => o.obligationId = obligationId ∧ o.status = expectedStatus) close.rewrite
  return { s with obligations }

/-- The actions that list an obligation. -/
def contributors (s : InvestigationStore) (obligationId : String) : List InvestigationAction :=
  s.actions.rows.filter fun a => obligationId ∈ a.obligationIds

/-- What the capacity limit writes on an obligation. -/
def capacityClosing : Closing where
  status _ := .limited
  resultRefs o := o.resultRefs
  gapRefs o := Js.distinct
    (o.gapRefs ++ [s!"活动调查 Action 已达到 {maxActiveInvestigationActions} 条上限"])

/-- What a finished action hands to an obligation that is merged into it. -/
def reuseClosing (stored : InvestigationAction) : Closing where
  status _ := if stored.status = .succeeded then .satisfied else .limited
  resultRefs o := Js.distinct (o.resultRefs ++ stored.resultRefs.getD [])
  gapRefs o := if stored.status = .succeeded then o.gapRefs
    else Js.distinct (o.gapRefs ++
      [stored.error.getD s!"复用的 Action 以 {stored.status.name} 结束"])

abbrev ActionRewrite :=
  IndexedTable.Rewrite InvestigationAction.actionId InvestigationAction.idempotencyKey

/-- Hangs the obligations of a proposal on a stored action. -/
def mergeInto (value : InvestigationAction) : ActionRewrite where
  apply stored :=
    { stored with
      obligationIds := Js.distinct (stored.obligationIds ++ value.obligationIds)
      priority := max stored.priority value.priority }
  key_apply _ := rfl
  alt_apply _ := rfl

/-- `UPDATE investigation_actions … WHERE action_id = ?`. -/
def updateAction (s : InvestigationStore) (actionId : String) (f : ActionRewrite) :
    InvestigationStore :=
  { s with actions := s.actions.modify (fun a => a.actionId = actionId) f }

def capacityBlocked (value : InvestigationAction) : InvestigationAction :=
  { value with
    status := .blocked
    error := some s!"ACTION_QUEUE_CAPACITY:{maxActiveInvestigationActions}"
    revision := value.revision + 1 }

def capacityExceeded (s : InvestigationStore) (value : InvestigationAction) : Bool :=
  value.status = .ready &&
    decide (maxActiveInvestigationActions ≤ (s.actions.rows.filter fun a => a.status.isLive).length)

/-- A proposal whose idempotency key is new: stored, or refused for lack of room. -/
def insertAction (s : InvestigationStore) (value : InvestigationAction) :
    Except Thrown (InvestigationStore × InvestigationAction) := do
  let candidate := if s.capacityExceeded value then capacityBlocked value else value
  let s' := { s with actions := s.actions.insertOrIgnore candidate }
  let stored ← orThrow (s'.actions.rows.find? fun a => a.idempotencyKey = value.idempotencyKey)
    (.native "Cannot read properties of undefined (reading 'payload')")
  if s.capacityExceeded value then
    return (s'.closeObligations (fun o => o.obligationId ∈ stored.obligationIds) capacityClosing,
      stored)
  else return (s', stored)

/-- A proposal whose idempotency key is known: its obligations are hung on the stored action, and a
    stored action that has ended passes its end on to them at once. -/
def mergeAction (s : InvestigationStore) (stored value : InvestigationAction) :
    InvestigationStore × InvestigationAction :=
  let merged := (mergeInto value).apply stored
  if merged.obligationIds.length = stored.obligationIds.length then (s, stored)
  else
    let s' := s.updateAction stored.actionId (mergeInto value)
    if stored.status.isLive then (s', merged)
    else (s'.closeObligations (fun o => o.obligationId ∈ value.obligationIds) (reuseClosing stored),
      merged)

def putInvestigationAction (s : InvestigationStore) (value : InvestigationAction) :
    Except Thrown (InvestigationStore × InvestigationAction) := do
  require (value.actionId ∉ value.dependsOn) (invalidArgument "Action 不能依赖自身")
  require (value.dependsOn.all fun id => s.actions.rows.any fun a => a.actionId = id)
    (invalidArgument "Action 依赖必须属于当前 Epoch")
  require (value.obligationIds.all fun id => s.obligations.rows.any fun o => o.obligationId = id)
    (invalidArgument "Action obligationId 必须属于当前 Epoch")
  match s.actions.rows.find? fun a => a.idempotencyKey = value.idempotencyKey with
  | some stored => return s.mergeAction stored value
  | none => s.insertAction value

/-- `ORDER BY required DESC, created_at`, the rows being in the order of their creation. -/
def listInvestigationObligations (s : InvestigationStore) : List InvestigationObligation :=
  s.obligations.rows.insertionSort fun a b => b.required → a.required

/-- `ORDER BY priority DESC, created_at`. -/
def listInvestigationActions (s : InvestigationStore) : List InvestigationAction :=
  s.actions.rows.insertionSort fun a b =>
    b.priority < a.priority ∨ (a.priority = b.priority ∧ a.createdAt ≤ b.createdAt)

/-- Whether a worker with this authorization may start the action now. -/
def claimable (s : InvestigationStore) (authorizationVersion : String)
    (eligibleActionIds : Option (List String)) (a : InvestigationAction) : Bool :=
  a.status = .ready && eligibleActionIds.all (a.actionId ∈ ·) &&
    a.authorizationVersion = authorizationVersion &&
    a.dependsOn.all fun id => s.actions.rows.any fun d =>
      d.actionId = id ∧ (d.status = .succeeded ∨ d.status = .partialResult)

def claimed : ActionRewrite where
  apply a := { a with status := .running, revision := a.revision + 1 }
  key_apply _ := rfl
  alt_apply _ := rfl

def claimNextInvestigationAction (s : InvestigationStore) (attemptId authorizationVersion : String)
    (eligibleActionIds : Option (List String)) :
    Except Thrown (InvestigationStore × Option InvestigationAction) :=
  match s.listInvestigationActions.find? (s.claimable authorizationVersion eligibleActionIds) with
  | none => return (s, none)
  | some candidate => do
    let number := (s.attempts.rows.filter fun t => t.actionId = candidate.actionId).length + 1
    let attempts ← orThrow (s.attempts.insert? ⟨attemptId, candidate.actionId, number, .running⟩)
      (uniqueConstraint "investigation_action_attempts.attempt_id")
    return ({ s.updateAction candidate.actionId claimed with attempts },
      some (claimed.apply candidate))

def finished (status : ActionStatus) (resultRefs : List String) (error : Option String) :
    ActionRewrite where
  apply a :=
    { a with
      status
      resultRefs := some resultRefs
      error := (error.filter (· ≠ "")).or a.error
      revision := a.revision + 1 }
  key_apply _ := rfl
  alt_apply _ := rfl

/-- The attempt of an action that is under way, the latest one first. -/
def runningAttempt (attempts : Table InvestigationActionAttempt.attemptId) (actionId : String) :
    Option InvestigationActionAttempt :=
  ((attempts.rows.filter fun t => t.actionId = actionId ∧ t.status = .running).insertionSort
    fun a b => b.attempt ≤ a.attempt).head?

def finishInvestigationAction (s : InvestigationStore) (actionId : String) (expectedRevision : ℕ)
    (status : ActionStatus) (resultRefs : List String) (error : Option String) :
    Except Thrown InvestigationStore := do
  let current ← orThrow (s.actions.get? actionId) (invalidArgument "未知 Investigation Action")
  require (current.status = .running ∧ current.revision = expectedRevision)
    (invalidArgument "Action 状态或 revision 已变化")
  let attempt ← orThrow (runningAttempt s.attempts actionId)
    (invalidArgument "Action 缺少运行中的 Attempt")
  return { s.updateAction actionId (finished status resultRefs error) with
           attempts := s.attempts.set { attempt with status } }

def blocked (reason : String) : ActionRewrite where
  apply a := { a with status := .blocked, error := some reason, revision := a.revision + 1 }
  key_apply _ := rfl
  alt_apply _ := rfl

def blockReadyInvestigationAction (s : InvestigationStore) (actionId reason : String) :
    Except Thrown InvestigationStore := do
  let current ← orThrow (s.actions.get? actionId) (invalidArgument "未知 Investigation Action")
  require (current.status = .ready) (invalidArgument "只有 READY Action 可以直接阻塞")
  return s.updateAction actionId (blocked reason)

/-- A safe read goes back in the queue; anything else is blocked. -/
def recovered : ActionRewrite where
  apply a :=
    let safe := a.replayPolicy = .safeReobserve
    { a with
      status := if safe then .ready else .blocked
      error := some (if safe then "控制端中断，安全读取已重新排队"
        else "控制端中断后远端结果不确定，需要恢复核对")
      revision := a.revision + 1 }
  key_apply _ := rfl
  alt_apply _ := rfl

def recoverAttempt (attempts : Table InvestigationActionAttempt.attemptId)
    (a : InvestigationAction) : Table InvestigationActionAttempt.attemptId :=
  match runningAttempt attempts a.actionId with
  | some attempt => attempts.set { attempt with
      status := if a.replayPolicy = .safeReobserve then .failed else .blocked }
  | none => attempts

def recoverInterruptedInvestigationActions (s : InvestigationStore) : InvestigationStore where
  obligations := s.obligations
  actions := s.actions.modify (fun a => a.status = .running) recovered
  attempts := (s.listInvestigationActions.filter fun a => a.status = .running).foldl recoverAttempt
    s.attempts

/-! ### What the writes do to the rows -/

theorem mem_closeObligations {s : InvestigationStore} {selected : InvestigationObligation → Bool}
    {close : Closing} {o' : InvestigationObligation} :
    o' ∈ (s.closeObligations selected close).obligations.rows ↔ ∃ o ∈ s.obligations.rows,
      (if o.status.isOpen && selected o then close.rewrite.apply o else o) = o' :=
  IndexedTable.mem_modify

theorem mem_updateAction {s : InvestigationStore} {actionId : String} {f : ActionRewrite}
    {a' : InvestigationAction} : a' ∈ (s.updateAction actionId f).actions.rows ↔
      ∃ a ∈ s.actions.rows, (if a.actionId = actionId then f.apply a else a) = a' := by
  simp only [updateAction, IndexedTable.mem_modify, decide_eq_true_eq]

/-- The row an update rewrites. -/
theorem updateAction_self {s : InvestigationStore} {f : ActionRewrite} {a : InvestigationAction}
    (h : a ∈ s.actions.rows) : f.apply a ∈ (s.updateAction a.actionId f).actions.rows :=
  mem_updateAction.2 ⟨a, h, if_pos rfl⟩

theorem updateAction_other {s : InvestigationStore} {actionId : String} {f : ActionRewrite}
    {a : InvestigationAction} (h : a ∈ s.actions.rows) (hne : a.actionId ≠ actionId) :
    a ∈ (s.updateAction actionId f).actions.rows :=
  mem_updateAction.2 ⟨a, h, if_neg hne⟩

theorem mem_listInvestigationActions {s : InvestigationStore} {a : InvestigationAction} :
    a ∈ s.listInvestigationActions ↔ a ∈ s.actions.rows :=
  (List.perm_insertionSort _ _).mem_iff

theorem mem_listInvestigationObligations {s : InvestigationStore} {o : InvestigationObligation} :
    o ∈ s.listInvestigationObligations ↔ o ∈ s.obligations.rows :=
  (List.perm_insertionSort _ _).mem_iff

theorem mem_contributors {s : InvestigationStore} {id : String} {a : InvestigationAction} :
    a ∈ s.contributors id ↔ a ∈ s.actions.rows ∧ id ∈ a.obligationIds := by
  simp [contributors]

/-- What a proposal can do: join the queue, be refused for lack of room, or be merged. -/
theorem putInvestigationAction_cases {s s' : InvestigationStore} {value stored : InvestigationAction}
    (h : s.putInvestigationAction value = .ok (s', stored)) :
    (∀ id ∈ value.obligationIds, ∃ o ∈ s.obligations.rows, o.obligationId = id) ∧
    ((s'.actions.rows = s.actions.rows ++ [value] ∧ s'.obligations = s.obligations) ∨
     (s'.actions.rows = s.actions.rows ++ [capacityBlocked value] ∧ s'.obligations =
        (s.closeObligations (fun o => o.obligationId ∈ value.obligationIds)
          capacityClosing).obligations) ∨
     ∃ old ∈ s.actions.rows, old.idempotencyKey = value.idempotencyKey ∧
       s' = (s.mergeAction old value).1) := by
  simp only [putInvestigationAction, bind_ok, require_ok] at h
  obtain ⟨_, _, _, _, _, hobligations, h⟩ := h
  refine ⟨fun id hid => by simpa using List.all_eq_true.1 hobligations id hid, ?_⟩
  split at h
  · rename_i old hold
    rw [pure_ok] at h
    refine Or.inr (Or.inr ⟨old, List.mem_of_find?_eq_some hold, ?_, by rw [h]⟩)
    simpa using List.find?_some hold
  · simp only [insertAction, bind_ok, orThrow_ok] at h
    obtain ⟨found, hfound, h⟩ := h
    have hcandidate : ∀ candidate : InvestigationAction,
        candidate.idempotencyKey = value.idempotencyKey →
        (s.actions.insertOrIgnore candidate).rows.find?
          (fun a => a.idempotencyKey = value.idempotencyKey) = some found →
        (s.actions.insertOrIgnore candidate).rows = s.actions.rows ++ [candidate] ∧
          found = candidate := by
      intro candidate hkey hf
      rename_i hnone
      by_cases hfresh : ∀ x ∈ s.actions.rows, x.actionId ≠ candidate.actionId ∧
          x.idempotencyKey ≠ candidate.idempotencyKey
      · have hrows := IndexedTable.insertOrIgnore_fresh hfresh
        refine ⟨hrows, ?_⟩
        rw [hrows, List.find?_append, hnone] at hf
        simpa [hkey] using hf.symm
      · rw [IndexedTable.insertOrIgnore_taken hfresh, hnone] at hf; cases hf
    by_cases hcap : s.capacityExceeded value = true
    · rw [if_pos hcap, pure_ok] at h
      rw [if_pos hcap] at hfound
      obtain ⟨hrows, rfl⟩ := hcandidate (capacityBlocked value) rfl hfound
      cases h
      rw [if_pos hcap]
      exact Or.inr (Or.inl ⟨hrows, rfl⟩)
    · rw [if_neg hcap, pure_ok] at h
      rw [if_neg hcap] at hfound
      obtain ⟨hrows, rfl⟩ := hcandidate value rfl hfound
      cases h
      rw [if_neg hcap]
      exact Or.inl ⟨hrows, rfl⟩

/-- What a merge can do: nothing, when every obligation is listed already; hang the new ones on a
    live action; or hang them on an ended one and close them by its end. -/
theorem mergeAction_cases {s : InvestigationStore} {old value : InvestigationAction}
    (hnodup : old.obligationIds.Nodup) :
    ((∀ id ∈ value.obligationIds, id ∈ old.obligationIds) ∧ (s.mergeAction old value).1 = s) ∨
    (old.status.isLive = true ∧
      (s.mergeAction old value).1 = s.updateAction old.actionId (mergeInto value)) ∨
    (old.status.isLive = false ∧ (∃ id ∈ value.obligationIds, id ∉ old.obligationIds) ∧
      (s.mergeAction old value).1 =
        (s.updateAction old.actionId (mergeInto value)).closeObligations
          (fun o => o.obligationId ∈ value.obligationIds) (reuseClosing old)) := by
  unfold mergeAction
  simp only [mergeInto, Js.distinct_append hnodup]
  split
  · rename_i hlen
    exact Or.inl ⟨Js.length_addAll_eq hlen, rfl⟩
  · rename_i hlen
    split
    · rename_i hlive; exact Or.inr (Or.inl ⟨hlive, rfl⟩)
    · rename_i hlive
      refine Or.inr (Or.inr ⟨by simpa using hlive, ?_, rfl⟩)
      by_contra hnone
      have hall : ∀ id ∈ value.obligationIds, id ∈ old.obligationIds := by simpa using hnone
      exact hlen (by rw [Js.addAll_eq_self hall])

theorem claimNextInvestigationAction_ok {s s' : InvestigationStore} {attemptId version : String}
    {eligible : Option (List String)} {result : Option InvestigationAction}
    (h : s.claimNextInvestigationAction attemptId version eligible = .ok (s', result)) :
    (result = none ∧ s' = s) ∨ ∃ a ∈ s.actions.rows, a.status = .ready ∧
      result = some (claimed.apply a) ∧ s'.obligations = s.obligations ∧
      s'.actions = (s.updateAction a.actionId claimed).actions := by
  unfold claimNextInvestigationAction at h
  split at h
  · rw [pure_ok] at h; cases h; exact Or.inl ⟨rfl, rfl⟩
  · rename_i a ha
    simp only [bind_ok, pure_ok] at h
    obtain ⟨attempts, -, h⟩ := h
    obtain ⟨rfl, rfl⟩ := Prod.mk.inj h
    have hmem : a ∈ s.actions.rows :=
      (List.perm_insertionSort _ _).mem_iff.1 (List.mem_of_find?_eq_some ha)
    have hready : a.status = .ready := by
      have := List.find?_some ha
      simp only [claimable, Bool.and_eq_true, decide_eq_true_eq] at this
      exact this.1.1.1
    exact Or.inr ⟨a, hmem, hready, rfl, rfl, rfl⟩

theorem finishInvestigationAction_ok {s s' : InvestigationStore} {actionId : String} {revision : ℕ}
    {status : ActionStatus} {refs : List String} {error : Option String}
    (h : s.finishInvestigationAction actionId revision status refs error = .ok s') :
    ∃ a ∈ s.actions.rows, a.actionId = actionId ∧ a.status = .running ∧ a.revision = revision ∧
      s'.obligations = s.obligations ∧
      s'.actions = (s.updateAction actionId (finished status refs error)).actions := by
  simp only [finishInvestigationAction, bind_ok, orThrow_ok, require_ok, pure_ok] at h
  obtain ⟨a, ha, _, hguard, attempt, -, rfl⟩ := h
  obtain ⟨hmem, hid⟩ := Table.get?_eq_some.1 ha
  obtain ⟨hstatus, hrevision⟩ := of_decide_eq_true hguard
  exact ⟨a, hmem, hid, hstatus, hrevision, rfl, rfl⟩

theorem blockReadyInvestigationAction_ok {s s' : InvestigationStore} {actionId reason : String}
    (h : s.blockReadyInvestigationAction actionId reason = .ok s') :
    ∃ a ∈ s.actions.rows, a.actionId = actionId ∧ a.status = .ready ∧
      s' = s.updateAction actionId (blocked reason) := by
  simp only [blockReadyInvestigationAction, bind_ok, orThrow_ok, require_ok, pure_ok] at h
  obtain ⟨a, ha, _, hstatus, rfl⟩ := h
  obtain ⟨hmem, hid⟩ := Table.get?_eq_some.1 ha
  exact ⟨a, hmem, hid, of_decide_eq_true hstatus, rfl⟩

theorem putInvestigationObligation_ok {s s' : InvestigationStore}
    {value stored : InvestigationObligation}
    (h : s.putInvestigationObligation value = .ok (s', stored)) :
    stored ∈ s'.obligations.rows ∧ s'.actions = s.actions ∧
      (s'.obligations = s.obligations ∨ stored = value ∧
        s'.obligations.rows = s.obligations.rows ++ [value]) := by
  simp only [putInvestigationObligation, bind_ok, orThrow_ok, pure_ok] at h
  obtain ⟨found, hfound, h⟩ := h
  obtain ⟨rfl, rfl⟩ := Prod.mk.inj h
  refine ⟨List.mem_of_find?_eq_some hfound, rfl, ?_⟩
  by_cases hfresh : ∀ x ∈ s.obligations.rows, x.obligationId ≠ value.obligationId ∧
      x.dedupeKey ≠ value.dedupeKey
  · have hrows := IndexedTable.insertOrIgnore_fresh hfresh
    have hnone : s.obligations.rows.find? (fun o => o.dedupeKey = value.dedupeKey) = none :=
      List.find?_eq_none.2 fun o ho => by simpa using (hfresh o ho).2
    rw [hrows, List.find?_append, hnone] at hfound
    exact Or.inr ⟨by simpa using hfound.symm, hrows⟩
  · exact Or.inl (IndexedTable.insertOrIgnore_taken hfresh)

theorem updateInvestigationObligation_ok {store : InvestigationStore} {o : InvestigationObligation}
    (ho : o ∈ store.obligations.rows) (close : Closing) :
    ∃ obligations, store.updateInvestigationObligation o.obligationId o.status close =
        .ok { store with obligations } ∧
      obligations.rows =
        store.obligations.rows.map fun x => if x = o then close.rewrite.apply x else x := by
  have hany : (store.obligations.rows.any fun x =>
      x.obligationId = o.obligationId ∧ x.status = o.status) = true :=
    List.any_eq_true.2 ⟨o, ho, decide_eq_true ⟨rfl, rfl⟩⟩
  refine ⟨_, by rw [updateInvestigationObligation, hany]; rfl, ?_⟩
  rw [IndexedTable.modify]
  refine List.map_congr_left fun x hx => ?_
  by_cases hid : x.obligationId = o.obligationId
  · have heq : x = o := store.obligations.eq_of_key hx ho hid
    simp [heq]
  · have hne : x ≠ o := fun h => hid (h ▸ rfl)
    simp [hid, hne]

end InvestigationStore

end HuntWarden
