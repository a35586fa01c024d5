import HuntWarden.Common.Ids
import HuntWarden.Lib.Runs
import HuntWarden.Storage.Approvals

/-! One-time approvals. A write is requested, decided by an analyst, and consumed by the write tool
    right before it acts; a new epoch and a restart expire what is still open. Whatever the order of
    these operations, each consumed ticket was approved once, for this very call, and is never used
    again: the tickets are a `OneShot` registry and every operation is one of its moves. -/

namespace HuntWarden.ApprovalService

open Outcome ApprovalStore

/-- The store, and how many ids have been drawn. -/
structure System where
  store : ApprovalStore
  drawn : ℕ

def System.empty : System := ⟨.empty, 0⟩

/-- The epoch a v2 task is working in. -/
def activeEpoch (task : TaskContext) : Option String :=
  if task.protocolVersion = some 2 then task.activeEpochId.filter (· ≠ "") else none

variable (ids : IdSupply) (digestObject : Json → String)

def newTicket (s : System) (task : TaskContext) (epochId tool argsDigest : String) (now : ℕ) :
    ApprovalTicket where
  approvalId := ids.createId .approval s.drawn
  taskId := task.taskId
  epochId := some epochId
  targetFingerprint := task.hostFingerprint
  tool := tool
  argsDigest := argsDigest
  actionId := ids.createId .action s.drawn
  status := .pending
  createdAt := now

def request (s : System) (now : ℕ) (task : TaskContext) (tool : String) (args : Json) :
    Except Thrown (System × ApprovalTicket) := do
  let epochId ← orThrow (activeEpoch task) (.native "写操作审批必须绑定活动的 v2 Epoch")
  let digest := digestObject args
  match (s.store.listPendingApprovals (some task.taskId)).find? fun item =>
      item.epochId = some epochId ∧ item.tool = tool ∧ item.argsDigest = digest ∧
        item.targetFingerprint = task.hostFingerprint with
  | some pending => return (s, pending)
  | none =>
    let ticket := newTicket ids s task epochId tool digest now
    let store ← s.store.putApproval ticket
    return (⟨store.saveTask { task with status := .waitingApproval }, s.drawn + 1⟩, ticket)

/-- The task goes back to RUNNING when its last pending ticket is decided. -/
def resumeTask (s : ApprovalStore) (taskId : String) : ApprovalStore :=
  match s.tasks.get? taskId with
  | some task =>
    if task.status = .waitingApproval ∧ s.listPendingApprovals (some taskId) = [] then
      s.saveTask { task with status := .running }
    else s
  | none => s

def decide (s : ApprovalStore) (now : ℕ) (approvalId : String) (approved : Bool) :
    Except Thrown (ApprovalStore × ApprovalTicket) := do
  let _ ← orThrow ((s.listPendingApprovals none).find? fun item => item.approvalId = approvalId)
    (.native "审批票据不存在、已决定或已失效")
  let (s', ticket) ← s.updateApproval now approvalId (if approved then .approved else .denied)
  return (resumeTask s' ticket.taskId, ticket)

def consume (s : ApprovalStore) (now : ℕ) (task : TaskContext) (tool : String) (args : Json) :
    Except Thrown (ApprovalStore × Option ApprovalTicket) :=
  match activeEpoch task with
  | none => return (s, none)
  | some epochId =>
    match s.findApproval task.taskId tool (digestObject args) (some epochId) with
    | none => return (s, none)
    | some ticket =>
      if ticket.targetFingerprint ≠ task.hostFingerprint ∨ ticket.epochId ≠ some epochId then
        return (s, none)
      else do
        let (s', consumed) ← s.updateApproval now ticket.approvalId .consumed
        return (s', some consumed)

/-- The gate of `writeTool.execute`: mode and allow-list, then the ticket. -/
def authorizeWrite (s : ApprovalStore) (now : ℕ) (allowedTools : List String) (task : TaskContext)
    (tool : String) (args : Json) : Except Thrown (ApprovalStore × ApprovalTicket) := do
  require (task.mode = .remediate ∧ tool ∈ allowedTools)
    (securityError .permissionDenied "写工具未获模式或白名单授权")
  let (s', ticket) ← consume digestObject s now task tool args
  let ticket ← orThrow ticket (securityError .approvalRequired
    "缺少与 task、target、tool、args digest 完全绑定的一次性审批")
  return (s', ticket)

/-- The operations that meet in the store, in any order. `putTask` stands for every other part of
    the program that creates or saves a task. -/
inductive Op where
  | putTask (task : TaskContext)
  | request (now : ℕ) (task : TaskContext) (tool : String) (args : Json)
  | decide (now : ℕ) (approvalId : String) (approved : Bool)
  | consume (now : ℕ) (task : TaskContext) (tool : String) (args : Json)
  | write (now : ℕ) (allowedTools : List String) (task : TaskContext) (tool : String) (args : Json)
  | createScanEpoch (epoch : ScanEpoch)
  | reconcileInterruptedTasks

/-- What an operation has to show for itself: a decision, or a ticket consumed for a call (and the
    write executed, when the write tool consumed it). -/
inductive Event where
  | decided (ticket : ApprovalTicket) (approved : Bool)
  | consumed (task : TaskContext) (tool : String) (args : Json) (ticket : ApprovalTicket)
      (executed : Bool)

def Event.move : Event → OneShot.Event String
  | .decided ticket approved => .decided ticket.approvalId approved
  | .consumed _ _ _ ticket _ => .used ticket.approvalId

def Event.isExecuted : Event → Bool
  | .consumed _ _ _ _ executed => executed
  | .decided .. => false

def Event.isApproval : Event → Bool
  | .decided _ approved => approved
  | .consumed .. => false

/-- One operation: the next system and what it has to show. One that throws changes nothing. -/
def perform (s : System) : Op → System × Option Event
  | .putTask task => (⟨{ s.store with tasks := s.store.tasks.put task }, s.drawn⟩, none)
  | .request now task tool args =>
    match request ids digestObject s now task tool args with
    | .ok (s', _) => (s', none)
    | .error _ => (s, none)
  | .decide now approvalId approved =>
    match decide s.store now approvalId approved with
    | .ok (store, ticket) => (⟨store, s.drawn⟩, some (.decided ticket approved))
    | .error _ => (s, none)
  | .consume now task tool args =>
    match consume digestObject s.store now task tool args with
    | .ok (store, ticket) => (⟨store, s.drawn⟩, ticket.map (.consumed task tool args · false))
    | .error _ => (s, none)
  | .write now allowedTools task tool args =>
    match authorizeWrite digestObject s.store now allowedTools task tool args with
    | .ok (store, ticket) => (⟨store, s.drawn⟩, some (.consumed task tool args ticket true))
    | .error _ => (s, none)
  | .createScanEpoch epoch => (⟨transact s.store (s.store.createScanEpoch epoch), s.drawn⟩, none)
  | .reconcileInterruptedTasks => (⟨s.store.reconcileInterruptedTasks, s.drawn⟩, none)

def step (s : System) (op : Op) : System := (perform ids digestObject s op).1

def shown (s : System) (op : Op) : Option Event := (perform ids digestObject s op).2

variable {ids digestObject}

/-- Every ticket carries ids of the same draw, and only drawn ones. -/
def Drawn (ids : IdSupply) (s : System) : Prop :=
  ∀ t ∈ s.store.approvals.rows, ∃ n < s.drawn,
    t.approvalId = ids.createId .approval n ∧ t.actionId = ids.createId .action n

/-- The ticket a call may use: approved, and for this task, epoch, target, tool and arguments. -/
structure Authorizes (digestObject : Json → String) (task : TaskContext) (tool : String)
    (args : Json) (t : ApprovalTicket) : Prop where
  taskId : t.taskId = task.taskId
  epoch : t.epochId.isSome ∧ t.epochId = task.activeEpochId
  target : t.targetFingerprint = task.hostFingerprint
  tool : t.tool = tool
  argsDigest : t.argsDigest = digestObject args

theorem activeEpoch_eq_some {task : TaskContext} {epochId : String}
    (h : activeEpoch task = some epochId) : task.activeEpochId = some epochId := by
  unfold activeEpoch at h
  split at h
  · exact (Option.filter_eq_some_iff.1 h).1
  · cases h

theorem consume_ok {s s' : ApprovalStore} {now : ℕ} {task : TaskContext} {tool : String}
    {args : Json} {result : Option ApprovalTicket}
    (h : consume digestObject s now task tool args = .ok (s', result)) :
    (result = none ∧ s' = s) ∨
    ∃ t ∈ s.approvals.rows, result = some (withStatus now .consumed t) ∧ t.status = .approved ∧
      Authorizes digestObject task tool args t ∧
      s' = { s with approvals := s.approvals.replace (withStatus now .consumed t) } ∧
      registry s' = Function.update (registry s) t.approvalId (some .consumed) := by
  unfold consume at h
  split at h
  · rw [pure_ok] at h; cases h; exact Or.inl ⟨rfl, rfl⟩
  · rename_i epochId hepoch
    split at h
    · rw [pure_ok] at h; cases h; exact Or.inl ⟨rfl, rfl⟩
    · rename_i ticket hfind
      obtain ⟨hmem, htask, htool, hdigest, hstatus, hticket⟩ := findApproval_eq_some hfind
      split at h
      · rw [pure_ok] at h; cases h; exact Or.inl ⟨rfl, rfl⟩
      · rename_i hguard
        simp only [bind_ok, pure_ok] at h
        obtain ⟨⟨s'', t'⟩, hupdate, heq⟩ := h
        obtain ⟨rfl, rfl⟩ := Prod.mk.inj heq
        obtain ⟨t, ht, hid, rfl, hs, hreg⟩ := updateApproval_ok hupdate
        obtain rfl := s.approvals.eq_of_key ht hmem hid
        refine Or.inr ⟨t, ht, rfl, hstatus, ⟨htask, ?_, ?_, htool, hdigest⟩, hs, hreg⟩
        · rw [hticket, activeEpoch_eq_some hepoch]; exact ⟨rfl, rfl⟩
        · exact not_not.1 fun hne => hguard (Or.inl hne)

theorem authorizeWrite_ok {s s' : ApprovalStore} {now : ℕ} {allowed : List String}
    {task : TaskContext} {tool : String} {args : Json} {t : ApprovalTicket}
    (h : authorizeWrite digestObject s now allowed task tool args = .ok (s', t)) :
    consume digestObject s now task tool args = .ok (s', some t) := by
  simp only [authorizeWrite, bind_ok, orThrow_ok, pure_ok] at h
  obtain ⟨_, _, ⟨s'', result⟩, hconsume, t', rfl, heq⟩ := h
  cases heq
  exact hconsume

theorem decide_ok {s s' : ApprovalStore} {now : ℕ} {id : String} {approved : Bool}
    {t' : ApprovalTicket} (h : decide s now id approved = .ok (s', t')) :
    ∃ t ∈ s.approvals.rows, t.approvalId = id ∧ t.status = .pending ∧
      t' = withStatus now (if approved then .approved else .denied) t ∧
      s'.approvals = s.approvals.replace t' ∧
      registry s' = Function.update (registry s) id
        (some (if approved then .approved else .denied)) := by
  simp only [decide, bind_ok, orThrow_ok, pure_ok] at h
  obtain ⟨pending, hpending, ⟨s'', t''⟩, hupdate, heq⟩ := h
  obtain ⟨rfl, rfl⟩ := Prod.mk.inj heq
  obtain ⟨hmem, hstatus⟩ := mem_listPendingApprovals (List.mem_of_find?_eq_some hpending)
  have hpid : pending.approvalId = id := by simpa using List.find?_some hpending
  obtain ⟨t, ht, hid, ht', hs, hreg⟩ := updateApproval_ok hupdate
  obtain rfl := s.approvals.eq_of_key ht hmem (hid.trans hpid.symm)
  have hsame : (resumeTask s'' t''.taskId).approvals = s''.approvals := by
    unfold resumeTask
    split
    · split <;> rfl
    · rfl
  refine ⟨t, ht, hid, hstatus, ht', ?_, ?_⟩
  · rw [hsame, hs]
  · have : registry (resumeTask s'' t''.taskId) = registry s'' := by
      unfold registry; rw [hsame]
    rw [this, hreg]
    cases approved <;> rfl

/-! ### Every operation is a move of the registry -/

theorem drawn_replace {s : System} {store : ApprovalStore} {t : ApprovalTicket} (hd : Drawn ids s)
    (hs : store.approvals = s.store.approvals.replace t)
    (ht : ∃ x ∈ s.store.approvals.rows, t.approvalId = x.approvalId ∧ t.actionId = x.actionId) :
    Drawn ids ⟨store, s.drawn⟩ := by
  intro x hx
  have hmem : x ∈ (s.store.approvals.replace t).rows := hs ▸ hx
  rcases IndexedTable.mem_replace.1 hmem with rfl | ⟨hx, -⟩
  · obtain ⟨y, hy, hid, haction⟩ := ht
    obtain ⟨n, hn, hyid, hyaction⟩ := hd y hy
    exact ⟨n, hn, hid.trans hyid, haction.trans hyaction⟩
  · exact hd x hx

theorem drawn_expire {s : System} {store : ApprovalStore} {selected : ApprovalTicket → Bool}
    (hd : Drawn ids s) (hs : store.approvals = (s.store.expireApprovals selected).approvals) :
    Drawn ids ⟨store, s.drawn⟩ := by
  intro x hx
  rw [hs] at hx
  obtain ⟨y, hy, rfl⟩ := IndexedTable.mem_modify.1 hx
  obtain ⟨n, hn, hids⟩ := hd y hy
  refine ⟨n, hn, ?_⟩
  split <;> exact hids

/-- A request reuses a pending ticket or issues one under ids never drawn before. -/
theorem request_ok {s s' : System} {now : ℕ} {task : TaskContext} {tool : String} {args : Json}
    {t : ApprovalTicket} (hd : Drawn ids s)
    (h : request ids digestObject s now task tool args = .ok (s', t)) :
    s' = s ∨ Drawn ids s' ∧ OneShot.Move (registry s.store) [] (registry s'.store) := by
  simp only [request, bind_ok, orThrow_ok] at h
  obtain ⟨epochId, -, h⟩ := h
  split at h
  · rw [pure_ok] at h; cases h; exact Or.inl rfl
  · simp only [bind_ok, pure_ok] at h
    obtain ⟨store, hput, heq⟩ := h
    obtain ⟨rfl, rfl⟩ := Prod.mk.inj heq
    obtain rfl := putApproval_ok hput
    have hfresh : ∀ x ∈ s.store.approvals.rows, x.approvalId ≠ ids.createId .approval s.drawn ∧
        x.actionId ≠ ids.createId .action s.drawn := by
      intro x hx
      obtain ⟨n, hn, hid, haction⟩ := hd x hx
      rw [hid, haction]
      exact ⟨fun h => absurd (ids.injective _ h) (Nat.ne_of_lt hn),
        fun h => absurd (ids.injective _ h) (Nat.ne_of_lt hn)⟩
    refine Or.inr ⟨fun x hx => ?_, ?_⟩
    · rcases IndexedTable.mem_replace.1 hx with rfl | ⟨hx, -⟩
      · exact ⟨s.drawn, Nat.lt_succ_self _, rfl, rfl⟩
      · obtain ⟨n, hn, hids⟩ := hd x hx
        exact ⟨n, Nat.lt_succ_of_lt hn, hids⟩
    · have hreg := registry_put (s := s.store)
        (t := newTicket ids s task epochId tool (digestObject args) now)
        fun x hx ha => absurd ha (hfresh x hx).2
      have hnone : registry s.store (ids.createId .approval s.drawn) = none := by
        rw [registry, Table.get?_eq_none.2 fun x hx => (hfresh x hx).1]; rfl
      exact (show registry _ = _ from hreg) ▸ .issue _ hnone

theorem step_moves {s : System} (hd : Drawn ids s) (op : Op) :
    Drawn ids (step ids digestObject s op) ∧
      OneShot.Move (registry s.store) ((shown ids digestObject s op).toList.map Event.move)
        (registry (step ids digestObject s op).store) := by
  have hidle : Drawn ids s ∧ OneShot.Move (registry s.store) [] (registry s.store) :=
    ⟨hd, .idle _⟩
  have hused : ∀ {now store task tool args} {t : ApprovalTicket} {executed : Bool},
      consume digestObject s.store now task tool args = .ok (store, some t) →
      Drawn ids ⟨store, s.drawn⟩ ∧ OneShot.Move (registry s.store)
        [(Event.consumed task tool args t executed).move] (registry store) := by
    intro now store task tool args t executed h
    rcases consume_ok h with ⟨hnone, -⟩ | ⟨t', ht', heq, hstatus, -, hs, hreg⟩
    · cases hnone
    · cases heq
      refine ⟨drawn_replace hd (congrArg ApprovalStore.approvals hs) ⟨t', ht', rfl, rfl⟩, ?_⟩
      have happroved : registry s.store t'.approvalId = some .approved := by
        rw [registry_of_mem ht', hstatus]; rfl
      rw [hreg]
      exact .use _ happroved
  cases op with
  | putTask task => exact hidle
  | request now task tool args =>
    simp only [step, shown, perform]
    cases h : request ids digestObject s now task tool args with
    | error e => exact hidle
    | ok result =>
      rcases request_ok hd h with heq | ⟨hd', hmove⟩
      · simp only [heq]; exact hidle
      · exact ⟨hd', hmove⟩
  | decide now id approved =>
    simp only [step, shown, perform]
    cases h : decide s.store now id approved with
    | error e => exact hidle
    | ok result =>
      obtain ⟨store, t'⟩ := result
      obtain ⟨t, ht, rfl, hstatus, rfl, hs, hreg⟩ := decide_ok h
      refine ⟨drawn_replace hd hs ⟨t, ht, rfl, rfl⟩, ?_⟩
      have hpending : registry s.store t.approvalId = some .pending := by
        rw [registry_of_mem ht, hstatus]; rfl
      simp only [hreg]
      exact .decide _ approved hpending
  | consume now task tool args =>
    simp only [step, shown, perform]
    cases h : consume digestObject s.store now task tool args with
    | error e => exact hidle
    | ok result =>
      obtain ⟨store, _ | t⟩ := result
      · rcases consume_ok h with ⟨-, rfl⟩ | ⟨_, -, hnone, -⟩
        · exact hidle
        · cases hnone
      · exact hused h
  | write now allowed task tool args =>
    simp only [step, shown, perform]
    cases h : authorizeWrite digestObject s.store now allowed task tool args with
    | error e => exact hidle
    | ok result => exact hused (authorizeWrite_ok h)
  | createScanEpoch epoch =>
    simp only [step, shown, perform]
    cases h : s.store.createScanEpoch epoch with
    | error e => exact hidle
    | ok store =>
      obtain ⟨selected, hs⟩ := createScanEpoch_ok h
      refine ⟨drawn_expire hd hs, ?_⟩
      have hreg : registry store = registry (s.store.expireApprovals selected) := by
        unfold registry; rw [hs]
      exact (show registry (transact s.store (.ok store)) = _ from hreg) ▸
        expireApprovals_move s.store selected
  | reconcileInterruptedTasks =>
    exact ⟨drawn_expire hd rfl, expireApprovals_move s.store _⟩

/-! ### Whole runs -/

variable (ids digestObject)

/-- The system after the operations, from an empty database. -/
def runOps (ops : List Op) : System := Runs.run (step ids digestObject) .empty ops

/-- What the operations had to show, oldest first. -/
def log (ops : List Op) : List Event :=
  Runs.emitted (step ids digestObject) (shown ids digestObject) .empty ops

/-- The decisions and uses of the run, ticket by ticket. -/
def moves (ops : List Op) : List (OneShot.Event String) :=
  (log ids digestObject ops).map Event.move

variable {ids digestObject}

theorem drawn_empty : Drawn ids .empty := by
  intro t ht
  cases ht

theorem drawn_run (ops : List Op) : Drawn ids (runOps ids digestObject ops) :=
  Runs.run_invariant (I := Drawn ids) (fun _ op hd _ => (step_moves hd op).1) ops .empty drawn_empty
    (Runs.along_true _ _)

/-- In every reachable system the log explains the phase of every ticket. -/
theorem explained_run (ops : List Op) :
    OneShot.Explained (registry (runOps ids digestObject ops).store) (moves ids digestObject ops) := by
  have hinv := @Runs.run_invariant _ _ (Runs.logged (step ids digestObject) (shown ids digestObject))
    (I := fun p => Drawn ids p.1 ∧
      OneShot.Explained (registry p.1.store) (p.2.map Event.move))
    (C := fun _ _ => True)
    (fun p op hp _ => ⟨(step_moves hp.1 op).1, by
      rw [Runs.logged, List.map_append]; exact (step_moves hp.1 op).2.explained hp.2⟩)
    ops (.empty, []) ⟨drawn_empty, OneShot.explained_empty⟩ (Runs.along_true _ _)
  rw [Runs.run_logged] at hinv
  exact hinv.2

/-- Once denied, consumed or expired, a ticket stays so. -/
theorem terminal_run (before later : List Op) {id : String} {p : OneShot.Phase}
    (hp : p.terminal = true) (h : registry (runOps ids digestObject before).store id = some p) :
    registry (runOps ids digestObject (before ++ later)).store id = some p := by
  have hinv := @Runs.run_invariant _ _ (step ids digestObject)
    (fun s => Drawn ids s ∧ registry s.store id = some p) (fun _ _ => True)
    (fun s op hs _ => ⟨(step_moves hs.1 op).1, (step_moves hs.1 op).2.terminal hs.2 hp⟩)
    later _ ⟨drawn_run before, h⟩ (Runs.along_true _ _)
  rw [runOps, Runs.run_append]
  exact hinv.2

/-- A consumption shows a ticket that was approved, in the store, and authorizes the call. -/
theorem shown_consumed {s : System} {op : Op} {task : TaskContext} {tool : String} {args : Json}
    {ticket : ApprovalTicket} {executed : Bool}
    (h : shown ids digestObject s op = some (.consumed task tool args ticket executed)) :
    Authorizes digestObject task tool args ticket ∧
      registry s.store ticket.approvalId = some .approved := by
  have hused : ∀ {now store}, consume digestObject s.store now task tool args =
      .ok (store, some ticket) → Authorizes digestObject task tool args ticket ∧
        registry s.store ticket.approvalId = some .approved := by
    intro now store h
    rcases consume_ok h with ⟨hnone, -⟩ | ⟨t, ht, heq, hstatus, hauth, -⟩
    · cases hnone
    · cases heq
      exact ⟨⟨hauth.taskId, hauth.epoch, hauth.target, hauth.tool, hauth.argsDigest⟩, by
        rw [show (withStatus now .consumed t).approvalId = t.approvalId from rfl,
          registry_of_mem ht, hstatus]; rfl⟩
  cases op with
  | consume now task' tool' args' =>
    simp only [shown, perform] at h
    split at h
    · rename_i store result hok
      cases result with
      | none => cases h
      | some t => cases h; exact hused hok
    · cases h
  | write now allowed task' tool' args' =>
    simp only [shown, perform] at h
    split at h
    · rename_i store t hok
      cases h; exact hused (authorizeWrite_ok hok)
    · cases h
  | decide now id approved =>
    simp only [shown, perform] at h
    split at h <;> cases h
  | request now task' tool' args' =>
    simp only [shown, perform] at h
    split at h <;> cases h
  | _ => cases h

theorem countP_isApproval (events : List Event) :
    events.countP Event.isApproval = (OneShot.approvedIds (events.map Event.move)).length := by
  induction events with
  | nil => rfl
  | cons e events ih =>
    rcases e with ⟨t, _ | _⟩ | ⟨task, tool, args, t, executed⟩ <;>
      simp_all [List.countP_cons, Event.isApproval, Event.move, OneShot.approvedIds]

theorem countP_isExecuted_le (events : List Event) :
    events.countP Event.isExecuted ≤ (OneShot.usedIds (events.map Event.move)).length := by
  induction events with
  | nil => exact le_refl _
  | cons e events ih =>
    rcases e with ⟨t, approved⟩ | ⟨task, tool, args, t, _ | _⟩ <;>
      simp_all [List.countP_cons, Event.isExecuted, Event.move, OneShot.usedIds]
    omega

/-- One-time approvals, over every run: a consumed ticket authorizes the call it is consumed for, had
    been approved exactly once and decided no other way, and had never expired; no ticket is consumed
    twice; denied, consumed and expired are final; and no more writes are executed than analysts
    gave approvals. -/
theorem one_time_approvals (ops : List Op) :
    (∀ before op later, ops = before ++ op :: later → ∀ task tool args ticket executed,
      shown ids digestObject (runOps ids digestObject before) op =
        some (.consumed task tool args ticket executed) →
      Authorizes digestObject task tool args ticket ∧
      OneShot.history ticket.approvalId (moves ids digestObject before) =
        [.decided ticket.approvalId true] ∧
      ∀ earlier rest, before = earlier ++ rest →
        registry (runOps ids digestObject earlier).store ticket.approvalId ≠ some .expired) ∧
    (OneShot.usedIds (moves ids digestObject ops)).Nodup ∧
    (∀ before later, ops = before ++ later → ∀ id p, OneShot.Phase.terminal p = true →
      registry (runOps ids digestObject before).store id = some p →
      registry (runOps ids digestObject ops).store id = some p) ∧
    (log ids digestObject ops).countP Event.isExecuted ≤
      (log ids digestObject ops).countP Event.isApproval := by
  refine ⟨?_, ?_, ?_, ?_⟩
  · rintro before op later - task tool args ticket executed h
    obtain ⟨hauth, happroved⟩ := shown_consumed h
    refine ⟨hauth, ?_, ?_⟩
    · have hexp : OneShot.Explained (registry (runOps ids digestObject before).store)
          (moves ids digestObject before) := explained_run before
      have hticket := hexp ticket.approvalId
      rw [happroved] at hticket
      exact hticket
    · rintro earlier rest rfl hexpired
      rw [terminal_run earlier rest rfl hexpired] at happroved
      cases happroved
  · exact OneShot.nodup_usedIds (OneShot.count_used_le (explained_run ops))
  · rintro before later rfl id p hp h
    exact terminal_run before later hp h
  · exact (countP_isExecuted_le _).trans
      ((OneShot.length_usedIds_le (explained_run ops)).trans (countP_isApproval _).ge)

end HuntWarden.ApprovalService
