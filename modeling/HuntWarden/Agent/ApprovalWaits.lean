import HuntWarden.Agent.ApprovalService

/-! Waiting for the analyst. A tool call that needs an approval listens for the decision on its ticket, and
    may be aborted meanwhile; several calls may wait for one ticket. However requests, decisions, new epochs,
    aborts and restarts interleave, a wait ends at most once, with the decision that was made on a ticket for
    this very call, and no decision passes a wait by. -/

namespace HuntWarden.ApprovalService

open Outcome ApprovalStore

/-- `onDecision` and `onAbort` of one wait. -/
structure Listener where
  wait : ℕ
  approvalId : String
  signal : Option ℕ

/-- How a wait ends. -/
inductive Ending where
  | resolved (ticket : ApprovalTicket)
  | rejected (signal : ℕ)

/-- What was asked, recorded for the statement. -/
structure Ask where
  wait : ℕ
  task : TaskContext
  tool : String
  args : Json
  ticket : ApprovalTicket
  signal : Option ℕ

/-- The approvals and who waits for them. `asked`, `decided` and `restarted` are recorded for the statement: the
    calls that waited, the decisions made, and the first wait after the last restart. -/
structure Waits where
  system : System
  listeners : List Listener
  settled : List (ℕ × Ending)
  aborted : List ℕ
  begun : ℕ
  asked : List Ask
  decided : List ApprovalTicket
  restarted : ℕ

namespace Waits

def initial : Waits := ⟨.empty, [], [], [], 0, [], [], 0⟩

def waitForDecision (w : Waits) (ticket : ApprovalTicket) (signal : Option ℕ) : Waits :=
  if ticket.status ≠ .pending then
    { w with settled := w.settled ++ [(w.begun, .resolved ticket)], begun := w.begun + 1 }
  else
    { w with listeners := w.listeners ++ [⟨w.begun, ticket.approvalId, signal⟩], begun := w.begun + 1 }

/-- `emit("decided", ticket)`: every listener of the ticket resolves and is taken off. -/
def emitDecided (w : Waits) (ticket : ApprovalTicket) : Waits :=
  { w with
    listeners := w.listeners.filter fun l => l.approvalId ≠ ticket.approvalId
    settled := w.settled ++ (w.listeners.filter fun l => l.approvalId = ticket.approvalId).map fun l =>
      (l.wait, .resolved ticket)
    decided := w.decided ++ [ticket] }

/-- A signal fires once; one that has fired already never reaches a wait. -/
def abort (w : Waits) (signal : ℕ) : Waits :=
  if signal ∈ w.aborted then w
  else
    { w with
      listeners := w.listeners.filter fun l => l.signal ≠ some signal
      settled := w.settled ++ (w.listeners.filter fun l => l.signal = some signal).map fun l =>
        (l.wait, .rejected signal)
      aborted := signal :: w.aborted }

end Waits

inductive WaitEvent where
  /-- Anything done to the approvals without waiting, an analyst's decision among it. -/
  | op (op : Op)
  /-- A tool call asks, and waits for the answer. -/
  | ask (now : ℕ) (task : TaskContext) (tool : String) (args : Json) (signal : Option ℕ)
  | abort (signal : ℕ)
  /-- The process ends, its waits with it, and the next one reconciles the tasks. -/
  | restart

variable (ids : IdSupply) (digestObject : Json → String)

def stepWaits (w : Waits) : WaitEvent → Waits
  | .op op =>
    let w' := { w with system := step ids digestObject w.system op }
    match shown ids digestObject w.system op with
    | some (.decided ticket _) => w'.emitDecided ticket
    | _ => w'
  | .ask now task tool args signal =>
    match request ids digestObject w.system now task tool args with
    | .ok (system, ticket) =>
      let asking : Waits :=
        { w with system, asked := w.asked ++ [⟨w.begun, task, tool, args, ticket, signal⟩] }
      asking.waitForDecision ticket signal
    | .error _ => w
  | .abort signal => w.abort signal
  | .restart =>
    { w with
      system := step ids digestObject w.system .reconcileInterruptedTasks
      listeners := []
      restarted := w.begun }

variable {ids digestObject}

/-! ### What a ticket is about never changes -/

/-- The call a ticket is for. -/
def callOf (t : ApprovalTicket) : String × String × Option String × String × String × String :=
  (t.approvalId, t.taskId, t.epochId, t.targetFingerprint, t.tool, t.argsDigest)

theorem Authorizes.of_callOf {task : TaskContext} {tool : String} {args : Json} {t t' : ApprovalTicket}
    (h : Authorizes digestObject task tool args t) (hcall : callOf t' = callOf t) :
    Authorizes digestObject task tool args t' := by
  simp only [callOf, Prod.mk.injEq] at hcall
  obtain ⟨-, htask, hepoch, htarget, htool, hdigest⟩ := hcall
  exact ⟨htask.trans h.taskId, hepoch ▸ h.epoch, htarget.trans h.target, htool.trans h.tool,
    hdigest.trans h.argsDigest⟩

theorem survives_replace {rows : IndexedTable ApprovalTicket.approvalId ApprovalTicket.actionId}
    {t t₀ t' : ApprovalTicket} (ht : t ∈ rows.rows) (ht₀ : t₀ ∈ rows.rows) (hcall : callOf t' = callOf t₀)
    (haction : t'.actionId = t₀.actionId) : ∃ x ∈ (rows.replace t').rows, callOf x = callOf t := by
  by_cases heq : t = t₀
  · exact ⟨t', IndexedTable.mem_replace.2 (Or.inl rfl), by rw [hcall, heq]⟩
  · have hid : t'.approvalId = t₀.approvalId := congrArg Prod.fst hcall
    refine ⟨t, IndexedTable.mem_replace.2 (Or.inr ⟨ht, ?_, ?_⟩), rfl⟩
    · rw [hid]
      exact fun h => heq (rows.eq_of_key ht ht₀ h)
    · rw [haction]
      exact fun h => heq (rows.eq_of_alt ht ht₀ h)

theorem survives_expire {s : ApprovalStore} {selected : ApprovalTicket → Bool} {t : ApprovalTicket}
    (ht : t ∈ s.approvals.rows) : ∃ x ∈ (s.expireApprovals selected).approvals.rows, callOf x = callOf t := by
  refine ⟨_, IndexedTable.mem_modify.2 ⟨t, ht, rfl⟩, ?_⟩
  split <;> rfl

/-- A request answers with a pending ticket for the call, and takes no ticket away. -/
theorem request_ticket {s s' : System} {now : ℕ} {task : TaskContext} {tool : String} {args : Json}
    {t : ApprovalTicket} (hd : Drawn ids s) (h : request ids digestObject s now task tool args = .ok (s', t)) :
    t ∈ s'.store.approvals.rows ∧ t.status = .pending ∧ Authorizes digestObject task tool args t ∧
      ∀ x ∈ s.store.approvals.rows, x ∈ s'.store.approvals.rows := by
  simp only [request, bind_ok, orThrow_ok] at h
  obtain ⟨epochId, hepoch, h⟩ := h
  have hactive := activeEpoch_eq_some hepoch
  split at h
  · rename_i pending hfind
    rw [pure_ok] at h
    cases h
    have hmem := List.mem_of_find?_eq_some hfind
    have hfields : t.epochId = some epochId ∧ t.tool = tool ∧ t.argsDigest = digestObject args ∧
        t.targetFingerprint = task.hostFingerprint := by simpa using List.find?_some hfind
    obtain ⟨hepochId, htool, hdigest, htarget⟩ := hfields
    simp only [listPendingApprovals, mem_oldestFirst, List.mem_filter, decide_eq_true_eq] at hmem
    obtain ⟨hrow, hstatus, htask⟩ := hmem
    have htaskId : task.taskId = t.taskId := by simpa using htask
    refine ⟨hrow, hstatus, ⟨htaskId.symm, ?_, htarget, htool, hdigest⟩, fun x hx => hx⟩
    rw [hepochId, hactive]
    exact ⟨rfl, rfl⟩
  · simp only [bind_ok, pure_ok] at h
    obtain ⟨store, hput, heq⟩ := h
    obtain ⟨rfl, rfl⟩ := Prod.mk.inj heq
    obtain rfl := putApproval_ok hput
    refine ⟨IndexedTable.mem_replace.2 (Or.inl rfl), rfl, ⟨rfl, ?_, rfl, rfl, rfl⟩, fun x hx => ?_⟩
    · rw [hactive]
      exact ⟨rfl, rfl⟩
    · -- the ids of the new ticket have never been drawn before
      obtain ⟨n, hn, hid, haction⟩ := hd x hx
      refine IndexedTable.mem_replace.2 (Or.inr ⟨hx, ?_, ?_⟩)
      · rw [hid]
        exact fun heq => absurd (ids.injective _ heq) (Nat.ne_of_lt hn)
      · rw [haction]
        exact fun heq => absurd (ids.injective _ heq) (Nat.ne_of_lt hn)

theorem survives_consume {s s' : ApprovalStore} {now : ℕ} {task : TaskContext} {tool : String} {args : Json}
    {result : Option ApprovalTicket} (h : consume digestObject s now task tool args = .ok (s', result))
    {t : ApprovalTicket} (ht : t ∈ s.approvals.rows) : ∃ x ∈ s'.approvals.rows, callOf x = callOf t := by
  rcases consume_ok h with ⟨-, rfl⟩ | ⟨t₀, ht₀, -, -, -, rfl, -⟩
  · exact ⟨t, ht, rfl⟩
  · exact survives_replace ht ht₀ rfl rfl

/-- Whatever is done, a ticket stays, for the call it was for. -/
theorem survives_step {s : System} (hd : Drawn ids s) (op : Op) {t : ApprovalTicket}
    (ht : t ∈ s.store.approvals.rows) :
    ∃ x ∈ (step ids digestObject s op).store.approvals.rows, callOf x = callOf t := by
  have hidle : ∃ x ∈ s.store.approvals.rows, callOf x = callOf t := ⟨t, ht, rfl⟩
  cases op with
  | putTask task => exact hidle
  | request now task tool args =>
    simp only [step, perform]
    cases h : request ids digestObject s now task tool args with
    | error e => exact hidle
    | ok result => exact ⟨t, (request_ticket hd h).2.2.2 t ht, rfl⟩
  | decide now id approved =>
    simp only [step, perform]
    cases h : decide s.store now id approved with
    | error e => exact hidle
    | ok result =>
      obtain ⟨t₀, ht₀, -, -, hdecided, hrows, -⟩ := decide_ok h
      dsimp only
      rw [hrows, hdecided]
      exact survives_replace ht ht₀ rfl rfl
  | consume now task tool args =>
    simp only [step, perform]
    cases h : consume digestObject s.store now task tool args with
    | error e => exact hidle
    | ok result => exact survives_consume h ht
  | write now allowed task tool args =>
    simp only [step, perform]
    cases h : authorizeWrite digestObject s.store now allowed task tool args with
    | error e => exact hidle
    | ok result => exact survives_consume (authorizeWrite_ok h) ht
  | createScanEpoch epoch =>
    simp only [step, perform]
    cases h : s.store.createScanEpoch epoch with
    | error e => exact hidle
    | ok store =>
      obtain ⟨selected, hrows⟩ := createScanEpoch_ok h
      rw [transact]
      rw [hrows]
      exact survives_expire ht
  | reconcileInterruptedTasks => exact survives_expire ht

/-- A decision shown is on the ticket it leaves in the store. -/
theorem shown_decided {s : System} {op : Op} {ticket : ApprovalTicket} {approved : Bool}
    (h : shown ids digestObject s op = some (.decided ticket approved)) :
    ticket ∈ (step ids digestObject s op).store.approvals.rows ∧
      ticket.status = (if approved then .approved else .denied) ∧
      registry s.store ticket.approvalId = some .pending := by
  cases op with
  | decide now id approved' =>
    simp only [shown, step, perform] at h ⊢
    cases hdecide : decide s.store now id approved' with
    | error e => rw [hdecide] at h; cases h
    | ok result =>
      rw [hdecide] at h
      obtain ⟨t₀, ht₀, hid, hstatus, hdecided, hrows, -⟩ := decide_ok hdecide
      cases h
      dsimp only
      rw [hrows]
      refine ⟨IndexedTable.mem_replace.2 (Or.inl rfl), by rw [hdecided]; rfl, ?_⟩
      rw [hdecided]
      exact (registry_of_mem ht₀).trans (by rw [hstatus]; rfl)
  | request now task tool args =>
    simp only [shown, perform] at h
    split at h <;> cases h
  | consume now task tool args =>
    simp only [shown, perform] at h
    split at h
    · obtain ⟨_, -, heq⟩ := Option.map_eq_some_iff.1 h
      cases heq
    · cases h
  | write now allowed task tool args =>
    simp only [shown, perform] at h
    split at h <;> cases h
  | _ => cases h

/-! ### What holds along a run -/

/-- The waits that have begun and not ended with a process: those that listen and those that ended. -/
def Waits.known (w : Waits) : List ℕ := w.listeners.map (·.wait) ++ w.settled.map Prod.fst

structure Inv (ids : IdSupply) (digestObject : Json → String) (w : Waits) : Prop where
  drawn : Drawn ids w.system
  distinct : w.known.Nodup
  begun : ∀ n ∈ w.known, n < w.begun
  bound : ∀ a ∈ w.asked, a.wait < w.begun ∧ Authorizes digestObject a.task a.tool a.args a.ticket ∧
    ∃ row ∈ w.system.store.approvals.rows, callOf row = callOf a.ticket
  listening : ∀ l ∈ w.listeners, ∃ a ∈ w.asked, a.wait = l.wait ∧ a.ticket.approvalId = l.approvalId ∧
    a.signal = l.signal
  waiting : ∀ l ∈ w.listeners, registry w.system.store l.approvalId = some .pending ∨
    registry w.system.store l.approvalId = some .expired
  decided : ∀ t ∈ w.decided, (t.status = .approved ∨ t.status = .denied) ∧
    ∃ phase, registry w.system.store t.approvalId = some phase ∧ phase ≠ .pending
  once : (w.decided.map (·.approvalId)).Nodup
  passed : ∀ l ∈ w.listeners, ∀ t ∈ w.decided, t.approvalId ≠ l.approvalId
  resolved : ∀ n t, (n, Ending.resolved t) ∈ w.settled → t ∈ w.decided ∧
    ∃ a ∈ w.asked, a.wait = n ∧ callOf t = callOf a.ticket
  rejected : ∀ n signal, (n, Ending.rejected signal) ∈ w.settled → signal ∈ w.aborted ∧
    ∃ a ∈ w.asked, a.wait = n ∧ a.signal = some signal
  accounted : ∀ a ∈ w.asked, a.wait ∈ w.known ∨ a.wait < w.restarted

variable {w : Waits}

/-- What an operation on the approvals keeps, whatever it decides. -/
theorem Inv.kept (h : Inv ids digestObject w) (op : Op) :
    Drawn ids (step ids digestObject w.system op) ∧
    (∀ a ∈ w.asked, a.wait < w.begun ∧ Authorizes digestObject a.task a.tool a.args a.ticket ∧
      ∃ row ∈ (step ids digestObject w.system op).store.approvals.rows, callOf row = callOf a.ticket) ∧
    ∀ t ∈ w.decided, (t.status = .approved ∨ t.status = .denied) ∧
      ∃ phase, registry (step ids digestObject w.system op).store t.approvalId = some phase ∧
        phase ≠ .pending := by
  obtain ⟨hdrawn, hmove⟩ := @step_moves ids digestObject _ h.drawn op
  refine ⟨hdrawn, fun a ha => ?_, fun t ht => ?_⟩
  · obtain ⟨hbegun, hauthorizes, row, hrow, hcall⟩ := h.bound a ha
    obtain ⟨row', hrow', hcall'⟩ := @survives_step ids digestObject _ h.drawn op _ hrow
    exact ⟨hbegun, hauthorizes, row', hrow', hcall'.trans hcall⟩
  · obtain ⟨hstatus, phase, hphase, hne⟩ := h.decided t ht
    exact ⟨hstatus, hmove.settled hphase hne⟩

/-- A listener whose ticket the operation does not decide goes on waiting for an open or expired ticket. -/
theorem Inv.waiting_step (h : Inv ids digestObject w) (op : Op) {l : Listener} (hl : l ∈ w.listeners)
    (hother : ∀ ticket approved, shown ids digestObject w.system op = some (.decided ticket approved) →
      ticket.approvalId ≠ l.approvalId) :
    registry (step ids digestObject w.system op).store l.approvalId = some .pending ∨
      registry (step ids digestObject w.system op).store l.approvalId = some .expired := by
  refine (@step_moves ids digestObject _ h.drawn op).2.undecided (fun approved hmem => ?_)
    (h.waiting l hl)
  obtain ⟨event, hevent, hmove⟩ := List.mem_map.1 hmem
  rw [Option.mem_toList] at hevent
  cases event with
  | decided ticket approved' =>
    obtain ⟨hid, -⟩ := OneShot.Event.decided.inj hmove
    exact hother ticket approved' hevent hid
  | consumed task tool args ticket executed => cases hmove

theorem Inv.quiet (h : Inv ids digestObject w) (op : Op)
    (hquiet : ∀ ticket approved, shown ids digestObject w.system op ≠ some (.decided ticket approved)) :
    Inv ids digestObject { w with system := step ids digestObject w.system op } := by
  obtain ⟨hdrawn, hbound, hdecided⟩ := h.kept op
  exact { h with
    drawn := hdrawn
    bound := hbound
    decided := hdecided
    waiting := fun l hl => h.waiting_step op hl fun ticket approved hshown =>
      absurd hshown (hquiet ticket approved) }

/-- Taking the listeners of one kind off and settling their waits loses and doubles none. -/
theorem known_settle (w : Waits) (p : Listener → Bool) (ending : Ending) :
    ((w.listeners.filter fun l => !p l).map (·.wait) ++
      (w.settled ++ (w.listeners.filter p).map fun l => (l.wait, ending)).map Prod.fst).Perm w.known := by
  rw [Waits.known, List.map_append, List.map_map]
  have hparts : ((w.listeners.filter p).map (·.wait) ++
      (w.listeners.filter fun l => !p l).map (·.wait)).Perm (w.listeners.map (·.wait)) := by
    rw [← List.map_append]
    exact (List.filter_append_perm p w.listeners).map _
  refine List.Perm.trans ?_ (hparts.append_right _)
  change (_ ++ (_ ++ (w.listeners.filter p).map (·.wait))).Perm _
  rw [← List.append_assoc]
  refine List.perm_append_comm.trans ?_
  rw [List.append_assoc]

theorem Inv.decide (h : Inv ids digestObject w) {op : Op} {ticket : ApprovalTicket} {approved : Bool}
    (hshown : shown ids digestObject w.system op = some (.decided ticket approved)) :
    Inv ids digestObject
      (Waits.emitDecided { w with system := step ids digestObject w.system op } ticket) := by
  obtain ⟨hdrawn, hbound, hdecided⟩ := h.kept op
  obtain ⟨hrow, hstatus, hpending⟩ := shown_decided hshown
  have hknown : (Waits.emitDecided { w with system := step ids digestObject w.system op } ticket).known.Perm
      w.known := by
    have hperm := known_settle w (fun l => l.approvalId = ticket.approvalId) (.resolved ticket)
    simp only [← decide_not] at hperm
    exact hperm
  refine ⟨hdrawn, hknown.nodup_iff.2 h.distinct, fun n hn => h.begun n (hknown.mem_iff.1 hn), hbound,
    fun l hl => h.listening l (List.mem_of_mem_filter hl), ?_, ?_, ?_, ?_, ?_, ?_, ?_⟩
  · intro l hl
    obtain ⟨hl, hne⟩ := List.mem_filter.1 hl
    refine h.waiting_step op hl fun other approved' hother => ?_
    rw [hshown] at hother
    cases hother
    exact fun heq => of_decide_eq_true hne heq.symm
  · intro t ht
    rcases List.mem_append.1 ht with ht | ht
    · exact hdecided t ht
    · rw [List.mem_singleton.1 ht]
      refine ⟨?_, _, registry_of_mem hrow, ?_⟩
      · rw [hstatus]
        cases approved <;> simp
      · rw [hstatus]
        cases approved <;> simp [phase]
  · change ((w.decided ++ [ticket]).map (·.approvalId)).Nodup
    rw [List.map_append, List.nodup_append]
    refine ⟨h.once, List.nodup_singleton _, ?_⟩
    rintro _ hid _ hnew rfl
    obtain ⟨t, ht, hid⟩ := List.mem_map.1 hid
    obtain ⟨-, phase, hphase, hne⟩ := h.decided t ht
    rw [List.map_singleton, List.mem_singleton] at hnew
    rw [hid, hnew, hpending] at hphase
    exact hne (Option.some.inj hphase).symm
  · intro l hl t ht
    obtain ⟨hl, hne⟩ := List.mem_filter.1 hl
    rcases List.mem_append.1 ht with ht | ht
    · exact h.passed l hl t ht
    · rw [List.mem_singleton.1 ht]
      exact fun heq => of_decide_eq_true hne heq.symm
  · intro n t hmem
    rcases List.mem_append.1 hmem with hmem | hmem
    · obtain ⟨ht, hasked⟩ := h.resolved n t hmem
      exact ⟨List.mem_append_left _ ht, hasked⟩
    · obtain ⟨l, hl, heq⟩ := List.mem_map.1 hmem
      cases heq
      obtain ⟨hl, hid⟩ := List.mem_filter.1 hl
      obtain ⟨a, ha, hwait, hticket, -⟩ := h.listening l hl
      obtain ⟨-, -, row, hrow', hcall⟩ := hbound a ha
      have hsame : row.approvalId = ticket.approvalId :=
        (congrArg Prod.fst hcall).trans (hticket.trans (of_decide_eq_true hid))
      rw [(step ids digestObject w.system op).store.approvals.eq_of_key hrow' hrow hsame] at hcall
      exact ⟨List.mem_append_right _ (List.mem_singleton_self _), a, ha, hwait, hcall⟩
  · intro n signal hmem
    rcases List.mem_append.1 hmem with hmem | hmem
    · exact h.rejected n signal hmem
    · obtain ⟨l, -, heq⟩ := List.mem_map.1 hmem
      cases heq
  · intro a ha
    exact (h.accounted a ha).imp_left hknown.mem_iff.2

theorem Inv.abort (h : Inv ids digestObject w) (signal : ℕ) : Inv ids digestObject (w.abort signal) := by
  rw [Waits.abort]
  split
  · exact h
  · have hknown : (w.listeners.filter fun l => l.signal ≠ some signal).map (·.wait) ++
        (w.settled ++ (w.listeners.filter fun l => l.signal = some signal).map fun l =>
          (l.wait, Ending.rejected signal)).map Prod.fst |>.Perm w.known := by
      have hperm := known_settle w (fun l => l.signal = some signal) (.rejected signal)
      simp only [← decide_not] at hperm
      exact hperm
    refine { h with
      distinct := hknown.nodup_iff.2 h.distinct
      begun := fun n hn => h.begun n (hknown.mem_iff.1 hn)
      listening := fun l hl => h.listening l (List.mem_of_mem_filter hl)
      waiting := fun l hl => h.waiting l (List.mem_of_mem_filter hl)
      passed := fun l hl => h.passed l (List.mem_of_mem_filter hl)
      resolved := ?_
      rejected := ?_
      accounted := fun a ha => (h.accounted a ha).imp_left hknown.mem_iff.2 }
    · intro n t hmem
      rcases List.mem_append.1 hmem with hmem | hmem
      · exact h.resolved n t hmem
      · obtain ⟨l, -, heq⟩ := List.mem_map.1 hmem
        cases heq
    · intro n signal' hmem
      rcases List.mem_append.1 hmem with hmem | hmem
      · obtain ⟨haborted, hasked⟩ := h.rejected n signal' hmem
        exact ⟨List.mem_cons_of_mem _ haborted, hasked⟩
      · obtain ⟨l, hl, heq⟩ := List.mem_map.1 hmem
        cases heq
        obtain ⟨hl, hsignal⟩ := List.mem_filter.1 hl
        obtain ⟨a, ha, hwait, -, hasked⟩ := h.listening l hl
        exact ⟨List.mem_cons_self, a, ha, hwait, hasked.trans (of_decide_eq_true hsignal)⟩

theorem Inv.restart (h : Inv ids digestObject w) : Inv ids digestObject
    { w with
      system := step ids digestObject w.system .reconcileInterruptedTasks
      listeners := []
      restarted := w.begun } := by
  obtain ⟨hdrawn, hbound, hdecided⟩ := h.kept .reconcileInterruptedTasks
  exact {
    drawn := hdrawn
    distinct := (List.nodup_append.1 h.distinct).2.1
    begun := fun n hn => h.begun n (List.mem_append_right _ hn)
    bound := hbound
    listening := fun l hl => absurd hl List.not_mem_nil
    waiting := fun l hl => absurd hl List.not_mem_nil
    decided := hdecided
    once := h.once
    passed := fun l hl => absurd hl List.not_mem_nil
    resolved := h.resolved
    rejected := h.rejected
    accounted := fun a ha => Or.inr (h.bound a ha).1 }

theorem Inv.ask (h : Inv ids digestObject w) {now : ℕ} {task : TaskContext} {tool : String} {args : Json}
    {signal : Option ℕ} {system : System} {ticket : ApprovalTicket}
    (hrequest : request ids digestObject w.system now task tool args = .ok (system, ticket)) :
    Inv ids digestObject (Waits.waitForDecision
      { w with system, asked := w.asked ++ [⟨w.begun, task, tool, args, ticket, signal⟩] } ticket signal) := by
  have hstep : step ids digestObject w.system (.request now task tool args) = system := by
    rw [step, perform, hrequest]
  have hquiet : ∀ ticket approved, shown ids digestObject w.system (.request now task tool args) ≠
      some (.decided ticket approved) := by
    intro ticket approved
    rw [shown, perform, hrequest]
    simp
  have hinv := h.quiet _ hquiet
  rw [hstep] at hinv
  obtain ⟨hrow, hpending, hauthorizes, -⟩ := request_ticket h.drawn hrequest
  have hopen : registry system.store ticket.approvalId = some .pending := by
    rw [registry_of_mem hrow, hpending]
    rfl
  rw [Waits.waitForDecision, if_neg (not_not.2 hpending)]
  have hknown : ((w.listeners ++ [(⟨w.begun, ticket.approvalId, signal⟩ : Listener)]).map (·.wait) ++
      w.settled.map Prod.fst).Perm (w.begun :: w.known) := by
    rw [List.map_append, List.append_assoc, Waits.known]
    exact List.perm_middle
  have hlater : ∀ a ∈ w.asked ++ [⟨w.begun, task, tool, args, ticket, signal⟩], a ∈ w.asked ∨
      a = ⟨w.begun, task, tool, args, ticket, signal⟩ := fun a ha =>
    (List.mem_append.1 ha).imp_right List.mem_singleton.1
  exact {
    drawn := hinv.drawn
    distinct := hknown.nodup_iff.2
      (List.nodup_cons.2 ⟨fun hmem => Nat.lt_irrefl _ (h.begun _ hmem), h.distinct⟩)
    begun := fun n hn => by
      rcases List.mem_cons.1 (hknown.mem_iff.1 hn) with rfl | hn
      · exact Nat.lt_succ_self _
      · exact Nat.lt_succ_of_lt (h.begun n hn)
    bound := fun a ha => by
      rcases hlater a ha with ha | rfl
      · exact (hinv.bound a ha).imp_left Nat.lt_succ_of_lt
      · exact ⟨Nat.lt_succ_self _, hauthorizes, ticket, hrow, rfl⟩
    listening := fun l hl => by
      rcases List.mem_append.1 hl with hl | hl
      · obtain ⟨a, ha, hfields⟩ := h.listening l hl
        exact ⟨a, List.mem_append_left _ ha, hfields⟩
      · rw [List.mem_singleton.1 hl]
        exact ⟨_, List.mem_append_right _ (List.mem_singleton_self _), rfl, rfl, rfl⟩
    waiting := fun l hl => by
      rcases List.mem_append.1 hl with hl | hl
      · exact hinv.waiting l hl
      · rw [List.mem_singleton.1 hl]
        exact Or.inl hopen
    decided := hinv.decided
    once := h.once
    passed := fun l hl t ht => by
      rcases List.mem_append.1 hl with hl | hl
      · exact h.passed l hl t ht
      · rw [List.mem_singleton.1 hl]
        -- the ticket is open again for nobody once it has been decided
        intro heq
        obtain ⟨-, phase, hphase, hne⟩ := hinv.decided t ht
        rw [heq, hopen] at hphase
        exact hne (Option.some.inj hphase).symm
    resolved := fun n t hmem => by
      obtain ⟨ht, a, ha, hfields⟩ := h.resolved n t hmem
      exact ⟨ht, a, List.mem_append_left _ ha, hfields⟩
    rejected := fun n signal hmem => by
      obtain ⟨haborted, a, ha, hfields⟩ := h.rejected n signal hmem
      exact ⟨haborted, a, List.mem_append_left _ ha, hfields⟩
    accounted := fun a ha => by
      rcases hlater a ha with ha | rfl
      · exact (h.accounted a ha).imp_left fun hmem => hknown.mem_iff.2 (List.mem_cons_of_mem _ hmem)
      · exact Or.inl (hknown.mem_iff.2 List.mem_cons_self) }

theorem Inv.step (h : Inv ids digestObject w) (event : WaitEvent) :
    Inv ids digestObject (stepWaits ids digestObject w event) := by
  cases event with
  | op op =>
    simp only [stepWaits]
    split
    · rename_i ticket approved hshown
      exact h.decide hshown
    · rename_i hquiet
      exact h.quiet op hquiet
  | ask now task tool args signal =>
    simp only [stepWaits]
    split
    · rename_i system ticket hrequest
      exact h.ask hrequest
    · exact h
  | abort signal => exact h.abort signal
  | restart => exact h.restart

theorem inv_initial : Inv ids digestObject .initial where
  drawn := drawn_empty
  distinct := List.nodup_nil
  begun _ hn := absurd hn List.not_mem_nil
  bound _ ha := absurd ha List.not_mem_nil
  listening _ hl := absurd hl List.not_mem_nil
  waiting _ hl := absurd hl List.not_mem_nil
  decided _ ht := absurd ht List.not_mem_nil
  once := List.nodup_nil
  passed _ hl := absurd hl List.not_mem_nil
  resolved _ _ hmem := absurd hmem List.not_mem_nil
  rejected _ _ hmem := absurd hmem List.not_mem_nil
  accounted _ ha := absurd ha List.not_mem_nil

/-! ### Every run -/

/-- The waits are answered as they should be. -/
structure Orderly (digestObject : Json → String) (w : Waits) : Prop where
  /-- A wait that goes on has not ended, and none ends twice. -/
  once : (w.listeners.map (·.wait) ++ w.settled.map Prod.fst).Nodup
  /-- Every call that asked still waits, has its ending, or ended with its process. -/
  accounted : ∀ a ∈ w.asked, a.wait ∈ w.listeners.map (·.wait) ∨ a.wait ∈ w.settled.map Prod.fst ∨
    a.wait < w.restarted
  /-- A wait resolves with a decision of the analyst, on a ticket for the call that asked. -/
  resolved : ∀ n t, (n, Ending.resolved t) ∈ w.settled → t ∈ w.decided ∧
    (t.status = .approved ∨ t.status = .denied) ∧
    ∃ a ∈ w.asked, a.wait = n ∧ Authorizes digestObject a.task a.tool a.args t
  /-- A wait is rejected by the signal of its own call only. -/
  rejected : ∀ n signal, (n, Ending.rejected signal) ∈ w.settled → signal ∈ w.aborted ∧
    ∃ a ∈ w.asked, a.wait = n ∧ a.signal = some signal
  /-- No decision passes a wait by: the ticket of one that goes on is undecided, open or expired. -/
  undecided : ∀ l ∈ w.listeners, (∀ t ∈ w.decided, t.approvalId ≠ l.approvalId) ∧
    (registry w.system.store l.approvalId = some .pending ∨
      registry w.system.store l.approvalId = some .expired)
  /-- No ticket is decided twice. -/
  decided : (w.decided.map (·.approvalId)).Nodup

theorem Inv.orderly (h : Inv ids digestObject w) : Orderly digestObject w where
  once := h.distinct
  accounted a ha := by
    rcases h.accounted a ha with hknown | hrestarted
    · exact (List.mem_append.1 hknown).imp_right Or.inl
    · exact Or.inr (Or.inr hrestarted)
  resolved n t hmem := by
    obtain ⟨ht, a, ha, hwait, hcall⟩ := h.resolved n t hmem
    exact ⟨ht, (h.decided t ht).1, a, ha, hwait, (h.bound a ha).2.1.of_callOf hcall⟩
  rejected := h.rejected
  undecided l hl := ⟨h.passed l hl, h.waiting l hl⟩
  decided := h.once

/-- Whatever happens in whatever order, the waits are answered as they should be. -/
theorem waits_orderly (ids : IdSupply) (digestObject : Json → String) (events : List WaitEvent) :
    Orderly digestObject (Runs.run (stepWaits ids digestObject) .initial events) :=
  have hstep : ∀ (w : Waits) (event : WaitEvent), Inv ids digestObject w → True →
      Inv ids digestObject (stepWaits ids digestObject w event) := fun _ event h _ => h.step event
  (Runs.run_invariant hstep events .initial inv_initial (Runs.along_true _ _)).orderly

end HuntWarden.ApprovalService
