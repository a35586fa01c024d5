import HuntWarden.Common.Errors
import HuntWarden.Domain.Types
import HuntWarden.Lib.OneShot
import HuntWarden.Lib.Outcome
import HuntWarden.Lib.Table
import Mathlib.Data.List.Sort

/-! Tasks, epochs and approval tickets in the runtime store. Tickets are keyed by `approval_id`, and
    `action_id` is unique as well. The two bulk writes, a new epoch and the reconciliation of
    interrupted tasks, only ever expire tickets. -/

namespace HuntWarden

open Outcome

structure ApprovalStore where
  tasks : Table TaskContext.taskId
  approvals : IndexedTable ApprovalTicket.approvalId ApprovalTicket.actionId
  epochs : Table ScanEpoch.epochId

namespace ApprovalStore

def empty : ApprovalStore := ⟨.empty, .empty, .empty⟩

/-- `UPDATE tasks … WHERE task_id = ?`. -/
def saveTask (s : ApprovalStore) (task : TaskContext) : ApprovalStore :=
  { s with tasks := s.tasks.set task }

/-- `ORDER BY created_at`. -/
def oldestFirst (tickets : List ApprovalTicket) : List ApprovalTicket :=
  tickets.insertionSort fun a b => a.createdAt ≤ b.createdAt

/-- `ORDER BY created_at DESC`. -/
def newestFirst (tickets : List ApprovalTicket) : List ApprovalTicket :=
  tickets.insertionSort fun a b => b.createdAt ≤ a.createdAt

def putApproval (s : ApprovalStore) (ticket : ApprovalTicket) : Except Thrown ApprovalStore := do
  require (s.tasks.get? ticket.taskId).isSome (.native "FOREIGN KEY constraint failed")
  return { s with approvals := s.approvals.replace ticket }

def withStatus (now : ℕ) (status : ApprovalStatus) (ticket : ApprovalTicket) : ApprovalTicket :=
  { ticket with
    status
    decidedAt := if status = .approved ∨ status = .denied then some now else ticket.decidedAt
    consumedAt := if status = .consumed then some now else ticket.consumedAt }

def updateApproval (s : ApprovalStore) (now : ℕ) (approvalId : String) (status : ApprovalStatus) :
    Except Thrown (ApprovalStore × ApprovalTicket) := do
  let ticket ← orThrow (s.approvals.get? approvalId) (.native s!"Approval not found: {approvalId}")
  let s' ← s.putApproval (withStatus now status ticket)
  return (s', withStatus now status ticket)

/-- The tickets of one task, tool and argument digest, newest first. -/
def ticketsFor (s : ApprovalStore) (taskId tool argsDigest : String) : List ApprovalTicket :=
  newestFirst (s.approvals.rows.filter fun t =>
    t.taskId = taskId ∧ t.tool = tool ∧ t.argsDigest = argsDigest)

def findApproval (s : ApprovalStore) (taskId tool argsDigest : String) (epochId : Option String) :
    Option ApprovalTicket :=
  ((s.ticketsFor taskId tool argsDigest).filter fun t => t.status = .approved).find?
    fun t => epochId = none ∨ t.epochId = epochId

def findLatestApproval (s : ApprovalStore) (taskId tool argsDigest : String)
    (epochId : Option String) : Option ApprovalTicket :=
  (s.ticketsFor taskId tool argsDigest).find? fun t => epochId = none ∨ t.epochId = epochId

def listPendingApprovals (s : ApprovalStore) (taskId : Option String) : List ApprovalTicket :=
  oldestFirst (s.approvals.rows.filter fun t =>
    t.status = .pending ∧ (taskId = none ∨ taskId = some t.taskId))

def expired : IndexedTable.Rewrite ApprovalTicket.approvalId ApprovalTicket.actionId :=
  ⟨fun t => { t with status := .expired }, fun _ => rfl, fun _ => rfl⟩

/-- Rewrites every PENDING or APPROVED ticket that is selected as EXPIRED. -/
def expireApprovals (s : ApprovalStore) (selected : ApprovalTicket → Bool) : ApprovalStore :=
  { s with approvals := s.approvals.modify
            (fun t => decide (t.status = .pending ∨ t.status = .approved) && selected t) expired }

/-- The statuses in which a task was being worked on. -/
def activeStatuses : List TaskStatus := [.running, .waitingApproval, .recovering, .reporting]

def interrupt (task : TaskContext) : TaskContext :=
  if task.status ∈ activeStatuses then
    { task with status := .aborted, interruption := some ⟨task.status, true⟩ }
  else task

theorem interrupt_taskId (task : TaskContext) : (interrupt task).taskId = task.taskId := by
  unfold interrupt; split <;> rfl

def reconcileInterruptedTasks (s : ApprovalStore) : ApprovalStore :=
  let interrupted := s.tasks.rows.filter fun task => task.status ∈ activeStatuses
  { s.expireApprovals fun t => interrupted.any fun task => task.taskId = t.taskId with
    tasks := s.tasks.mapRows interrupt interrupt_taskId }

def createScanEpoch (s : ApprovalStore) (epoch : ScanEpoch) : Except Thrown ApprovalStore := do
  let task ← orThrow (s.tasks.get? epoch.taskId) (.native s!"Task not found: {epoch.taskId}")
  require (task.protocolVersion = some 2)
    (securityError .recoveryUncertain "v1 历史任务只读，不能创建 v2 epoch")
  require (epoch.protocolVersion = 2 ∧ epoch.targetFingerprint = task.hostFingerprint)
    (invalidArgument "Epoch 协议或目标身份与任务不匹配")
  let s' := s.expireApprovals fun t => t.taskId = epoch.taskId ∧ t.epochId ≠ some epoch.epochId
  let epochs ← orThrow (s.epochs.insert? epoch) (uniqueConstraint "scan_epochs.epoch_id")
  return { s' with
    epochs
    tasks := s.tasks.set { task with activeEpochId := some epoch.epochId } }

/-! ### Tickets as one-time permissions -/

def phase : ApprovalStatus → OneShot.Phase
  | .pending => .pending
  | .approved => .approved
  | .denied => .denied
  | .consumed => .consumed
  | .expired => .expired

/-- The registry a store holds. -/
def registry (s : ApprovalStore) : OneShot.Registry String :=
  fun approvalId => (s.approvals.get? approvalId).map fun t => phase t.status

theorem registry_of_mem {s : ApprovalStore} {t : ApprovalTicket} (h : t ∈ s.approvals.rows) :
    registry s t.approvalId = some (phase t.status) := by
  rw [registry, Table.get?_of_mem h]; rfl

theorem mem_newestFirst {t : ApprovalTicket} {l : List ApprovalTicket} :
    t ∈ newestFirst l ↔ t ∈ l := (List.perm_insertionSort _ l).mem_iff

theorem mem_oldestFirst {t : ApprovalTicket} {l : List ApprovalTicket} :
    t ∈ oldestFirst l ↔ t ∈ l := (List.perm_insertionSort _ l).mem_iff

theorem findApproval_eq_some {s : ApprovalStore} {taskId tool digest : String} {epoch : String}
    {t : ApprovalTicket} (h : s.findApproval taskId tool digest (some epoch) = some t) :
    t ∈ s.approvals.rows ∧ t.taskId = taskId ∧ t.tool = tool ∧ t.argsDigest = digest ∧
      t.status = .approved ∧ t.epochId = some epoch := by
  have hmem := List.mem_of_find?_eq_some h
  have hepoch := List.find?_some h
  simp only [ticketsFor, List.mem_filter, mem_newestFirst, decide_eq_true_eq] at hmem
  obtain ⟨⟨hrow, htask, htool, hdigest⟩, hstatus⟩ := hmem
  exact ⟨hrow, htask, htool, hdigest, hstatus, by simpa using hepoch⟩

theorem mem_listPendingApprovals {s : ApprovalStore} {taskId : Option String} {t : ApprovalTicket}
    (h : t ∈ s.listPendingApprovals taskId) : t ∈ s.approvals.rows ∧ t.status = .pending := by
  simp only [listPendingApprovals, mem_oldestFirst, List.mem_filter, decide_eq_true_eq] at h
  exact ⟨h.1, h.2.1⟩

theorem putApproval_ok {s s' : ApprovalStore} {t : ApprovalTicket} (h : s.putApproval t = .ok s') :
    s' = { s with approvals := s.approvals.replace t } := by
  simp only [putApproval, bind_ok, require_ok, pure_ok] at h
  obtain ⟨_, _, rfl⟩ := h
  rfl

/-- Putting a ticket whose action id belongs to no other ticket sets its phase and no other. -/
theorem registry_put {s : ApprovalStore} {t : ApprovalTicket}
    (h : ∀ x ∈ s.approvals.rows, x.actionId = t.actionId → x.approvalId = t.approvalId) :
    registry { s with approvals := s.approvals.replace t } =
      Function.update (registry s) t.approvalId (some (phase t.status)) := by
  funext id
  by_cases hid : id = t.approvalId
  · subst hid
    rw [Function.update_self, registry, IndexedTable.get?_replace h, if_pos rfl]; rfl
  · rw [Function.update_of_ne hid, registry, IndexedTable.get?_replace h, if_neg hid]; rfl

theorem updateApproval_ok {s s' : ApprovalStore} {now : ℕ} {id : String} {status : ApprovalStatus}
    {t' : ApprovalTicket} (h : s.updateApproval now id status = .ok (s', t')) :
    ∃ t ∈ s.approvals.rows, t.approvalId = id ∧ t' = withStatus now status t ∧
      s' = { s with approvals := s.approvals.replace t' } ∧
      registry s' = Function.update (registry s) id (some (phase status)) := by
  simp only [updateApproval, bind_ok, orThrow_ok, pure_ok] at h
  obtain ⟨t, ht, s'', hput, heq⟩ := h
  obtain ⟨rfl, rfl⟩ := Prod.mk.inj heq
  obtain ⟨hmem, rfl⟩ := Table.get?_eq_some.1 ht
  have hs := putApproval_ok hput
  refine ⟨t, hmem, rfl, rfl, hs, ?_⟩
  rw [hs]
  refine registry_put fun x hx ha => ?_
  rw [s.approvals.eq_of_alt hx hmem ha]; rfl

/-- A bulk expiry is a move of the registry that logs nothing. -/
theorem expireApprovals_move (s : ApprovalStore) (selected : ApprovalTicket → Bool) :
    OneShot.Move (registry s) [] (registry (s.expireApprovals selected)) := by
  refine .expire fun id => ?_
  simp only [registry, expireApprovals, IndexedTable.get?_modify]
  cases s.approvals.get? id with
  | none => exact Or.inl rfl
  | some t =>
    simp only [Option.map_some]
    split
    · rename_i h
      simp only [Bool.and_eq_true, decide_eq_true_eq] at h
      rcases h.1 with h | h <;> simp [h, phase, expired]
    · exact Or.inl rfl

theorem createScanEpoch_ok {s s' : ApprovalStore} {epoch : ScanEpoch}
    (h : s.createScanEpoch epoch = .ok s') : ∃ selected,
      s'.approvals = (s.expireApprovals selected).approvals := by
  simp only [createScanEpoch, bind_ok, orThrow_ok, require_ok, pure_ok] at h
  obtain ⟨task, -, _, -, _, -, epochs, -, rfl⟩ := h
  exact ⟨fun t => t.taskId = epoch.taskId ∧ t.epochId ≠ some epoch.epochId, rfl⟩

end ApprovalStore

end HuntWarden
