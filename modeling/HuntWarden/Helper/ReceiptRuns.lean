import HuntWarden.Helper.Receipts

/-! Runs of write invocations in any order, with crashes anywhere. An action whose invocation finds no
    receipt, and that nobody else invokes until the invocation has answered, is performed at most once,
    and its receipt tells what happened. -/

namespace HuntWarden.Receipts

open Outcome Runs

def State.changesOf (s : State) (actionId : String) : List Change :=
  (s.log.filter (·.request.actionId = actionId)).map (·.change)

/-! ### The condition on a step -/

def sameDevice : Option ℕ → Option ℕ → Bool
  | some device, some device' => device = device'
  | _, _ => true

/-- What has to be the case before a system call of an invocation:
    a replay of a success passes the checks before its receipt; an invocation finds no receipt of its
    arguments that is not a success, and none is written between its look and its own; once it has
    created a directory, the file is still the checked one and on the same device; the renamed file is
    the checked one; and an account that `usermod` changed is locked and expired. -/
def orderlyCall (env : Env) (s : State) (inv : Invocation) : Bool :=
  match inv.phase with
  | .checking => inv.replayed.isNone || (check env s.host inv.request).toBool
  | .beginning _ => (s.receipts inv.request.actionId).all fun receipt =>
      receipt.status = .succeeded || !sameArguments env inv.request receipt
  | .creating _ => (s.receipts inv.request.actionId).isNone
  | .checkingDevice w made =>
    !made || sameDevice (s.host.statDevice w.source) (s.host.directory w.targetDir)
  | .checkingIdentity w made =>
    !made || (s.host.lstat w.source).all fun identity =>
      (s.host.node identity).regular && identity = w.before
  | .checkingMove w => (s.host.lstat w.target).all fun identity => identity = w.before
  | .inspectingAfter _ _ changed =>
    !changed || (s.host.account (username inv.request.action)).all confirmed
  | _ => true

def orderly (env : Env) (s : State) : Event → Bool
  | .advance pid (.done _) => (s.running pid).all (orderlyCall env s)
  | _ => true

/-! ### What the receipts tell -/

/-- The effect of an action is performed at most once; a failed action changed nothing; a replay of a
    success answers with its receipt, unless the system fails under it, and changes nothing. -/
structure Truthful (s : State) : Prop where
  once : ∀ actionId, (s.changesOf actionId).countP Change.isEffect ≤ 1
  failed : ∀ actionId receipt, s.receipts actionId = some receipt → receipt.status = .failed →
    ∀ change ∈ s.changesOf actionId, change.changes = false
  replies : ∀ p ∈ s.replies, ∀ receipt, p.1.replayed = some receipt →
    p.2 = .receipt receipt ∨ p.2 = .failed
  idle : ∀ entry ∈ s.log, entry.replayed = none

/-- What an invocation in this phase has changed so far. -/
def Phase.Sound (changes : List Change) : Phase → Prop
  | .checking | .beginning _ | .creating _ => True
  | .hashing _ | .makingRoot _ | .locking _ _ => changes = []
  | .makingDir _ made | .checkingDevice _ made | .checkingIdentity _ made =>
    (∀ change ∈ changes, change.isEffect = false) ∧ (made = false → changes = [])
  | .moving _ => ∀ change ∈ changes, change.isEffect = false
  | .checkingMove _ | .sealing _ | .verifying _ => True
  | .rollingBack _ => False
  | .inspectingAfter _ _ changed => changed = false → ∀ change ∈ changes, change.changes = false
  | .finishing _ status _ => status ≠ .started ∧
    (status = .failed → ∀ change ∈ changes, change.changes = false)

def Phase.isCreating : Phase → Bool
  | .creating _ => true
  | _ => false

/-- At most one invocation holds the receipt of an action, and the receipt is then `STARTED`. -/
structure Held (env : Env) (s : State) : Prop extends Truthful s where
  waiting : ∀ pid inv, s.running pid = some inv → inv.phase.receipt? = none →
    ∀ receipt, inv.replayed = some receipt →
      s.receipts inv.request.actionId = some receipt ∧ receipt.status = .succeeded ∧
        sameArguments env inv.request receipt ∧ inv.phase.isCreating = false
  owner : ∀ pid inv receipt, s.running pid = some inv → inv.phase.receipt? = some receipt →
    inv.replayed = none ∧ s.receipts inv.request.actionId = some receipt ∧
      receipt.status = .started ∧ inv.phase.Sound (s.changesOf inv.request.actionId)
  unique : ∀ pid pid' inv inv' receipt receipt', s.running pid = some inv →
    s.running pid' = some inv' → inv.phase.receipt? = some receipt →
    inv'.phase.receipt? = some receipt' → inv.request.actionId = inv'.request.actionId → pid = pid'
  fresh : ∀ actionId, s.receipts actionId = none → s.changesOf actionId = []

theorem held_start (env : Env) (host : Host) : Held env (State.start host) where
  once := by simp [State.start, State.changesOf]
  failed := by simp [State.start]
  replies := by simp [State.start]
  idle := by simp [State.start]
  waiting := by simp [State.start]
  owner := by simp [State.start]
  unique := by simp [State.start]
  fresh := by simp [State.start, State.changesOf]

/-! ### A call that leaves the receipts alone -/

/-- What the call of an invocation does when it writes no receipt: perhaps one change of its own, then
    another phase or its end. -/
structure Moves (s s' : State) (pid : ℕ) (inv : Invocation) (change : Option Change)
    (next : Option Phase) : Prop where
  receipts : s'.receipts = s.receipts
  log : s'.log = s.log ++ change.toList.map fun change =>
    { request := inv.request, replayed := inv.replayed, change }
  running : s'.running = Function.update s.running pid (next.map fun phase => { inv with phase })
  replies : ∀ p ∈ s'.replies, p ∈ s.replies ∨ p.1 = inv ∧
    ∀ receipt, inv.replayed = some receipt → p.2 = .receipt receipt ∨ p.2 = .failed

section

variable {env : Env} {s s' : State} {pid : ℕ} {inv : Invocation} {change : Option Change}
  {next : Option Phase}

theorem Moves.changesOf (h : Moves s s' pid inv change next) (actionId : String) :
    s'.changesOf actionId = s.changesOf actionId ++
      if inv.request.actionId = actionId then change.toList else [] := by
  rw [State.changesOf, h.log, List.filter_append, List.map_append, State.changesOf]
  congr 1
  cases change with
  | none => simp
  | some change => by_cases ha : inv.request.actionId = actionId <;> simp [ha]

/-- Another invocation as it was, or the one that moved in its next phase. -/
theorem Moves.running_cases (h : Moves s s' pid inv change next) {q : ℕ} {inv' : Invocation}
    (hq : s'.running q = some inv') :
    (q ≠ pid ∧ s.running q = some inv') ∨
      (q = pid ∧ ∃ phase, next = some phase ∧ inv' = { inv with phase }) := by
  rw [h.running] at hq
  by_cases hqp : q = pid
  · subst hqp
    rw [Function.update_self, Option.map_eq_some_iff] at hq
    obtain ⟨phase, hphase, rfl⟩ := hq
    exact Or.inr ⟨rfl, phase, hphase, rfl⟩
  · rw [Function.update_of_ne hqp] at hq
    exact Or.inl ⟨hqp, hq⟩

/-- The invariant survives a call by an invocation that holds its receipt when the call changes
    something or the next phase needs it, and whose changes fit the next phase. -/
theorem Held.moves (hs : Held env s) (hrun : s.running pid = some inv)
    (h : Moves s s' pid inv change next)
    (howner : ∀ c ∈ change, inv.phase.receipt? ≠ none)
    (heffect : ∀ c ∈ change, c.isEffect →
      ∀ c' ∈ s.changesOf inv.request.actionId, c'.isEffect = false)
    (hwaiting : ∀ phase ∈ next, phase.receipt? = none →
      inv.phase.receipt? = none ∧ (inv.replayed ≠ none → phase.isCreating = false))
    (hnext : ∀ phase ∈ next, ∀ receipt, phase.receipt? = some receipt →
      inv.phase.receipt? = some receipt ∧
        phase.Sound (s.changesOf inv.request.actionId ++ change.toList)) :
    Held env s' where
  once := by
    intro actionId
    rw [h.changesOf actionId]
    split
    · rename_i ha
      subst ha
      cases hc : change with
      | none => simpa using hs.once _
      | some c =>
        rw [Option.toList_some, List.countP_append, List.countP_singleton]
        split
        · rename_i heff
          have hzero : (s.changesOf inv.request.actionId).countP Change.isEffect = 0 := by
            rw [List.countP_eq_zero]
            intro c' hc'
            rw [heffect c hc heff c' hc']
            decide
          omega
        · exact hs.once _
    · simpa using hs.once _
  failed := by
    intro actionId receipt hreceipt hfailed c hc
    rw [h.receipts] at hreceipt
    rw [h.changesOf actionId, List.mem_append] at hc
    rcases hc with hc | hc
    · exact hs.failed actionId receipt hreceipt hfailed c hc
    · split at hc
      · rename_i ha
        subst ha
        rw [Option.mem_toList] at hc
        obtain ⟨mine, hmine⟩ := Option.ne_none_iff_exists'.1 (howner c hc)
        obtain ⟨-, hsame, hstarted, -⟩ := hs.owner pid inv mine hrun hmine
        rw [hsame] at hreceipt
        cases hreceipt
        rw [hstarted] at hfailed
        cases hfailed
      · cases hc
  replies := by
    intro p hp receipt hreceipt
    rcases h.replies p hp with hp | ⟨rfl, hreply⟩
    · exact hs.replies p hp receipt hreceipt
    · exact hreply receipt hreceipt
  idle := by
    intro entry hentry
    rw [h.log, List.mem_append, List.mem_map] at hentry
    rcases hentry with hentry | ⟨c, hc, rfl⟩
    · exact hs.idle entry hentry
    · obtain ⟨mine, hmine⟩ := Option.ne_none_iff_exists'.1 (howner c (Option.mem_toList.1 hc))
      exact (hs.owner pid inv mine hrun hmine).1
  waiting := by
    intro q inv' hq hphase receipt hreplayed
    rw [h.receipts]
    rcases h.running_cases hq with ⟨-, hq⟩ | ⟨rfl, phase, hnextPhase, rfl⟩
    · exact hs.waiting q inv' hq hphase receipt hreplayed
    · obtain ⟨hwas, hcreating⟩ := hwaiting phase hnextPhase hphase
      obtain ⟨hreceipt, hstatus, hargs, -⟩ := hs.waiting q inv hrun hwas receipt hreplayed
      have hreplayed' : inv.replayed ≠ none := by
        rw [show inv.replayed = some receipt from hreplayed]
        simp
      exact ⟨hreceipt, hstatus, hargs, hcreating hreplayed'⟩
  owner := by
    intro q inv' receipt hq hphase
    rw [h.receipts]
    rcases h.running_cases hq with ⟨hqp, hq⟩ | ⟨rfl, phase, hnextPhase, rfl⟩
    · obtain ⟨hidle, hreceipt, hstatus, hsound⟩ := hs.owner q inv' receipt hq hphase
      refine ⟨hidle, hreceipt, hstatus, ?_⟩
      rw [h.changesOf]
      cases hc : change with
      | none => simpa using hsound
      | some c =>
        have hne : inv.request.actionId ≠ inv'.request.actionId := by
          intro hsame
          obtain ⟨mine, hmine⟩ := Option.ne_none_iff_exists'.1 (howner c hc)
          exact hqp (hs.unique q pid inv' inv receipt mine hq hrun hphase hmine hsame.symm)
        rw [if_neg hne, List.append_nil]
        exact hsound
    · obtain ⟨hwas, hsound⟩ := hnext phase hnextPhase receipt hphase
      obtain ⟨hidle, hreceipt, hstatus, -⟩ := hs.owner q inv receipt hrun hwas
      refine ⟨hidle, hreceipt, hstatus, ?_⟩
      rw [h.changesOf, if_pos rfl]
      exact hsound
  unique := by
    intro q q' inv₁ inv₂ receipt receipt' hq hq' hphase hphase' hsame
    have hold : ∀ {p : ℕ} {i : Invocation} {r : Receipt}, s'.running p = some i →
        i.phase.receipt? = some r → ∃ i', s.running p = some i' ∧
          i'.phase.receipt? = some r ∧ i'.request = i.request := by
      intro p i r hp hr
      rcases h.running_cases hp with ⟨-, hp⟩ | ⟨rfl, phase, hnextPhase, rfl⟩
      · exact ⟨i, hp, hr, rfl⟩
      · exact ⟨inv, hrun, (hnext phase hnextPhase r hr).1, rfl⟩
    obtain ⟨i₁, hi₁, hr₁, hreq₁⟩ := hold hq hphase
    obtain ⟨i₂, hi₂, hr₂, hreq₂⟩ := hold hq' hphase'
    exact hs.unique q q' i₁ i₂ receipt receipt' hi₁ hi₂ hr₁ hr₂ (by rw [hreq₁, hreq₂, hsame])
  fresh := by
    intro actionId hnone
    rw [h.receipts] at hnone
    rw [h.changesOf actionId, hs.fresh actionId hnone, List.nil_append]
    split
    · rename_i ha
      subst ha
      cases hc : change with
      | none => rfl
      | some c =>
        obtain ⟨mine, hmine⟩ := Option.ne_none_iff_exists'.1 (howner c hc)
        obtain ⟨-, hsome, -, -⟩ := hs.owner pid inv mine hrun hmine
        rw [hnone] at hsome
        cases hsome
    · rfl

/-! ### The two calls that write a receipt -/

theorem work_receipt (subject : Subject) (receipt : Receipt) :
    (subject.work receipt).receipt? = some receipt := by
  cases subject <;> rfl

theorem work_sound (subject : Subject) (receipt : Receipt) :
    (subject.work receipt).Sound [] := by
  cases subject <;> rfl

theorem putReceipt_self (s : State) (inv : Invocation) (receipt : Receipt) :
    (s.putReceipt inv receipt).receipts inv.request.actionId = some receipt :=
  Function.update_self ..

theorem putReceipt_ne (s : State) (inv : Invocation) (receipt : Receipt) (actionId : String)
    (h : actionId ≠ inv.request.actionId) :
    (s.putReceipt inv receipt).receipts actionId = s.receipts actionId :=
  Function.update_of_ne h ..

/-- A receipt is created where there is none; nobody else can hold or replay one of this action. -/
theorem Held.create (hs : Held env s) {subject : Subject} (hrun : s.running pid = some inv)
    (hphase : inv.phase = .creating subject) (hnone : s.receipts inv.request.actionId = none)
    (now : ℕ) :
    Held env ((s.putReceipt inv (newReceipt env inv.request now)).goOn pid inv
      (subject.work (newReceipt env inv.request now))) := by
  have hself := putReceipt_self s inv (newReceipt env inv.request now)
  have hne := putReceipt_ne s inv (newReceipt env inv.request now)
  have hidle : inv.replayed = none := by
    cases hr : inv.replayed with
    | none => rfl
    | some receipt =>
      have h := (hs.waiting pid inv hrun (by rw [hphase]; rfl) receipt hr).2.2.2
      rw [hphase] at h
      cases h
  have hcases : ∀ {q : ℕ} {inv' : Invocation}, ((s.putReceipt inv
      (newReceipt env inv.request now)).goOn pid inv
      (subject.work (newReceipt env inv.request now))).running q = some inv' →
      (q ≠ pid ∧ s.running q = some inv') ∨ (q = pid ∧
        inv' = { inv with phase := subject.work (newReceipt env inv.request now) }) := by
    intro q inv' hq
    change Function.update s.running pid _ q = some inv' at hq
    by_cases hqp : q = pid
    · subst hqp
      rw [Function.update_self] at hq
      exact Or.inr ⟨rfl, (Option.some.inj hq).symm⟩
    · rw [Function.update_of_ne hqp] at hq
      exact Or.inl ⟨hqp, hq⟩
  -- no other invocation has anything to do with the receipt of this action
  have hother : ∀ {q : ℕ} {inv' : Invocation} {receipt : Receipt}, s.running q = some inv' →
      inv'.phase.receipt? = some receipt → inv'.request.actionId ≠ inv.request.actionId := by
    intro q inv' receipt hq hr hsame
    have h := (hs.owner q inv' receipt hq hr).2.1
    rw [hsame, hnone] at h
    cases h
  refine ⟨⟨hs.once, ?_, hs.replies, hs.idle⟩, ?_, ?_, ?_, ?_⟩
  · intro actionId receipt hreceipt hfailed
    by_cases ha : actionId = inv.request.actionId
    · subst ha
      rw [State.goOn, hself] at hreceipt
      cases hreceipt
      cases hfailed
    · rw [State.goOn, hne _ ha] at hreceipt
      exact hs.failed actionId receipt hreceipt hfailed
  · intro q inv' hq hr receipt hreplayed
    rcases hcases hq with ⟨-, hq⟩ | ⟨-, rfl⟩
    · have hwait := hs.waiting q inv' hq hr receipt hreplayed
      have ha : inv'.request.actionId ≠ inv.request.actionId := by
        intro hsame
        have h := hwait.1
        rw [hsame, hnone] at h
        cases h
      rw [State.goOn, hne _ ha]
      exact hwait
    · rw [work_receipt] at hr
      cases hr
  · intro q inv' receipt hq hr
    rcases hcases hq with ⟨-, hq⟩ | ⟨-, rfl⟩
    · rw [State.goOn, hne _ (hother hq hr)]
      exact hs.owner q inv' receipt hq hr
    · rw [work_receipt] at hr
      obtain rfl := Option.some.inj hr
      refine ⟨hidle, hself, rfl, ?_⟩
      have hchanges := hs.fresh _ hnone
      change (subject.work _).Sound (s.changesOf inv.request.actionId)
      rw [hchanges]
      exact work_sound subject _
  · intro q q' inv₁ inv₂ receipt receipt' hq hq' hr hr' hsame
    rcases hcases hq with ⟨-, hold⟩ | ⟨hqp, rfl⟩ <;>
      rcases hcases hq' with ⟨-, hold'⟩ | ⟨hqp', rfl⟩
    · exact hs.unique q q' inv₁ inv₂ receipt receipt' hold hold' hr hr' hsame
    · exact absurd hsame (hother hold hr)
    · exact absurd hsame.symm (hother hold' hr')
    · rw [hqp, hqp']
  · intro actionId hempty
    by_cases ha : actionId = inv.request.actionId
    · subst ha
      rw [State.goOn, hself] at hempty
      cases hempty
    · rw [State.goOn, hne _ ha] at hempty
      exact hs.fresh actionId hempty

/-- The owner of a receipt closes it. -/
theorem Held.finish (hs : Held env s) {receipt : Receipt} {status : ReceiptStatus}
    {result : ActionResult} (hrun : s.running pid = some inv)
    (hphase : inv.phase = .finishing receipt status result) (now : ℕ) :
    Held env (finish s pid inv receipt status result now) := by
  have hmine : inv.phase.receipt? = some receipt := by rw [hphase]; rfl
  obtain ⟨hidle, hreceipt, hstarted, hsound⟩ := hs.owner pid inv receipt hrun hmine
  rw [hphase] at hsound
  have hself := putReceipt_self s inv
    { receipt with status, result := some result, finishedAt := some now }
  have hne := putReceipt_ne s inv
    { receipt with status, result := some result, finishedAt := some now }
  have hcases : ∀ {q : ℕ} {inv' : Invocation},
      (HuntWarden.Receipts.finish s pid inv receipt status result now).running q = some inv' →
        q ≠ pid ∧ s.running q = some inv' := by
    intro q inv' hq
    change Function.update s.running pid none q = some inv' at hq
    by_cases hqp : q = pid
    · subst hqp
      rw [Function.update_self] at hq
      cases hq
    · rw [Function.update_of_ne hqp] at hq
      exact ⟨hqp, hq⟩
  have hother : ∀ {q : ℕ} {inv' : Invocation} {receipt' : Receipt}, q ≠ pid →
      s.running q = some inv' → inv'.phase.receipt? = some receipt' →
        inv'.request.actionId ≠ inv.request.actionId := by
    intro q inv' receipt' hqp hq hr hsame
    exact hqp (hs.unique q pid inv' inv receipt' receipt hq hrun hr hmine hsame)
  refine ⟨⟨hs.once, ?_, ?_, hs.idle⟩, ?_, ?_, ?_, ?_⟩
  · intro actionId receipt' hreceipt' hfailed
    by_cases ha : actionId = inv.request.actionId
    · subst ha
      rw [HuntWarden.Receipts.finish, State.reply, hself] at hreceipt'
      cases hreceipt'
      exact hsound.2 hfailed
    · rw [HuntWarden.Receipts.finish, State.reply, hne _ ha] at hreceipt'
      exact hs.failed actionId receipt' hreceipt' hfailed
  · intro p hp receipt' hreplayed
    rcases List.mem_append.1 hp with hp | hp
    · exact hs.replies p hp receipt' hreplayed
    · rw [List.mem_singleton] at hp
      subst hp
      rw [hidle] at hreplayed
      cases hreplayed
  · intro q inv' hq hr receipt' hreplayed
    obtain ⟨-, hq⟩ := hcases hq
    have hwait := hs.waiting q inv' hq hr receipt' hreplayed
    have ha : inv'.request.actionId ≠ inv.request.actionId := by
      intro hsame
      have h := hwait.1
      rw [hsame, hreceipt] at h
      cases h
      rw [hstarted] at hwait
      cases hwait.2.1
    rw [HuntWarden.Receipts.finish, State.reply, hne _ ha]
    exact hwait
  · intro q inv' receipt' hq hr
    obtain ⟨hqp, hq⟩ := hcases hq
    rw [HuntWarden.Receipts.finish, State.reply, hne _ (hother hqp hq hr)]
    exact hs.owner q inv' receipt' hq hr
  · intro q q' inv₁ inv₂ receipt₁ receipt₂ hq hq' hr hr' hsame
    exact hs.unique q q' inv₁ inv₂ receipt₁ receipt₂ (hcases hq).2 (hcases hq').2 hr hr' hsame
  · intro actionId hempty
    by_cases ha : actionId = inv.request.actionId
    · subst ha
      rw [HuntWarden.Receipts.finish, State.reply, hself] at hempty
      cases hempty
    · rw [HuntWarden.Receipts.finish, State.reply, hne _ ha] at hempty
      exact hs.fresh actionId hempty

/-! ### The calls one by one -/

theorem Held.reply (hs : Held env s) (hrun : s.running pid = some inv) {reply : Reply}
    (hreply : ∀ receipt, inv.replayed = some receipt →
      reply = .receipt receipt ∨ reply = .failed) :
    Held env (s.reply pid inv reply) := by
  have hmoves : Moves s (s.reply pid inv reply) pid inv none none := by
    refine ⟨rfl, by simp [State.reply], rfl, ?_⟩
    intro p hp
    rcases List.mem_append.1 hp with hp | hp
    · exact Or.inl hp
    · rw [List.mem_singleton] at hp
      subst hp
      exact Or.inr ⟨rfl, hreply⟩
  exact hs.moves hrun hmoves (by simp) (by simp) (by simp) (by simp)

theorem Held.fails (hs : Held env s) (hrun : s.running pid = some inv) :
    Held env (s.reply pid inv .failed) := hs.reply hrun fun _ _ => Or.inr rfl

theorem moves_goOn (s : State) (pid : ℕ) (inv : Invocation) (phase : Phase) :
    Moves s (s.goOn pid inv phase) pid inv none (some phase) :=
  ⟨rfl, by simp [State.goOn], rfl, fun _ hp => Or.inl hp⟩

theorem moves_record (s : State) (pid : ℕ) (inv : Invocation) (change : Change) (host : Host)
    (phase : Phase) :
    Moves s ((s.record inv change host).goOn pid inv phase) pid inv (some change) (some phase) :=
  ⟨rfl, by simp [State.goOn, State.record], rfl, fun _ hp => Or.inl hp⟩

/-- An invocation that waits goes on waiting. -/
theorem Held.waits (hs : Held env s) (hrun : s.running pid = some inv) {phase : Phase}
    (hold : inv.phase.receipt? = none) (hnew : phase.receipt? = none)
    (hcreating : inv.replayed ≠ none → phase.isCreating = false) :
    Held env (s.goOn pid inv phase) := by
  refine hs.moves hrun (moves_goOn s pid inv phase) (by simp) (by simp) ?_ ?_
  · rintro _ ⟨⟩ -
    exact ⟨hold, hcreating⟩
  · rintro _ ⟨⟩ receipt hr
    rw [hnew] at hr
    cases hr

/-- The holder of a receipt goes on with it. -/
theorem Held.works (hs : Held env s) (hrun : s.running pid = some inv) {phase : Phase}
    {receipt : Receipt} (hold : inv.phase.receipt? = some receipt)
    (hnew : phase.receipt? = some receipt)
    (hsound : phase.Sound (s.changesOf inv.request.actionId)) :
    Held env (s.goOn pid inv phase) := by
  refine hs.moves hrun (moves_goOn s pid inv phase) (by simp) (by simp) ?_ ?_
  · rintro _ ⟨⟩ hr
    rw [hnew] at hr
    cases hr
  · rintro _ ⟨⟩ receipt' hr
    rw [hnew] at hr
    obtain rfl := Option.some.inj hr
    refine ⟨hold, ?_⟩
    rwa [Option.toList_none, List.append_nil]

/-- The holder of a receipt changes something and goes on. -/
theorem Held.changes (hs : Held env s) (hrun : s.running pid = some inv) {phase : Phase}
    {receipt : Receipt} {c : Change} {host : Host} (hold : inv.phase.receipt? = some receipt)
    (hnew : phase.receipt? = some receipt)
    (heffect : c.isEffect → ∀ c' ∈ s.changesOf inv.request.actionId, c'.isEffect = false)
    (hsound : phase.Sound (s.changesOf inv.request.actionId ++ [c])) :
    Held env ((s.record inv c host).goOn pid inv phase) := by
  refine hs.moves hrun (moves_record s pid inv c host phase) ?_ ?_ ?_ ?_
  · rintro _ ⟨⟩
    rw [hold]
    simp
  · rintro _ ⟨⟩
    exact heffect
  · rintro _ ⟨⟩ hr
    rw [hnew] at hr
    cases hr
  · rintro _ ⟨⟩ receipt' hr
    rw [hnew] at hr
    obtain rfl := Option.some.inj hr
    exact ⟨hold, hsound⟩

theorem Held.checking (hs : Held env s) (hrun : s.running pid = some inv)
    (hphase : inv.phase = .checking) (horderly : orderlyCall env s inv) (number : ℕ) :
    Held env (proceed env s pid inv number) := by
  rw [orderlyCall, hphase, Bool.or_eq_true] at horderly
  rw [proceed, hphase]
  dsimp only
  cases hcheck : check env s.host inv.request with
  | error error =>
    rw [hcheck] at horderly
    refine hs.reply hrun fun receipt hreplayed => ?_
    rcases horderly with hnone | hok
    · rw [hreplayed] at hnone
      cases hnone
    · cases hok
  | ok subject => exact hs.waits hrun (by rw [hphase]; rfl) rfl fun _ => rfl

theorem Held.beginning (hs : Held env s) (hrun : s.running pid = some inv) {subject : Subject}
    (hphase : inv.phase = .beginning subject) (horderly : orderlyCall env s inv) (number : ℕ) :
    Held env (proceed env s pid inv number) := by
  rw [orderlyCall, hphase] at horderly
  dsimp only at horderly
  rw [proceed, hphase]
  dsimp only
  have hold : inv.phase.receipt? = none := by rw [hphase]; rfl
  cases hexisting : s.receipts inv.request.actionId with
  | none =>
    refine hs.waits hrun hold rfl fun hreplayed => ?_
    obtain ⟨receipt, hreceipt⟩ := Option.ne_none_iff_exists'.1 hreplayed
    have h := (hs.waiting pid inv hrun hold receipt hreceipt).1
    rw [hexisting] at h
    cases h
  | some existing =>
    rw [hexisting] at horderly
    have hreplay : ∀ receipt, inv.replayed = some receipt →
        receipt = existing ∧ sameArguments env inv.request existing := by
      intro receipt hreceipt
      obtain ⟨hsome, -, hargs, -⟩ := hs.waiting pid inv hrun hold receipt hreceipt
      rw [hexisting] at hsome
      cases hsome
      exact ⟨rfl, hargs⟩
    dsimp only
    rw [beginExisting]
    split
    · rename_i hargs
      split
      · refine hs.reply hrun fun receipt hreceipt => ?_
        rw [(hreplay receipt hreceipt).1]
        exact Or.inl rfl
      · rename_i hstatus
        simp [hargs, hstatus] at horderly
    · rename_i hargs
      refine hs.reply hrun fun receipt hreceipt => ?_
      exact absurd (hreplay receipt hreceipt).2 hargs

theorem Held.creating (hs : Held env s) (hrun : s.running pid = some inv) {subject : Subject}
    (hphase : inv.phase = .creating subject) (horderly : orderlyCall env s inv) (number : ℕ) :
    Held env (proceed env s pid inv number) := by
  rw [orderlyCall, hphase, Option.isNone_iff_eq_none] at horderly
  rw [proceed, hphase]
  exact hs.create hrun hphase horderly number

/-- What the holder of a receipt has changed when it is in a phase. -/
theorem Held.sound (hs : Held env s) (hrun : s.running pid = some inv) {phase : Phase}
    {receipt : Receipt} (hphase : inv.phase = phase) (hr : phase.receipt? = some receipt) :
    phase.Sound (s.changesOf inv.request.actionId) := by
  subst hphase
  exact (hs.owner pid inv receipt hrun hr).2.2.2

theorem Held.failsWith (hs : Held env s) (hrun : s.running pid = some inv) {w : Work}
    (hold : inv.phase.receipt? = some w.receipt) (reason : String)
    (hnone : ∀ change ∈ s.changesOf inv.request.actionId, change.changes = false) :
    Held env (failWith s pid inv w reason) :=
  hs.works hrun hold rfl ⟨by decide, fun _ => hnone⟩

theorem Held.makesDirectory (hs : Held env s) (hrun : s.running pid = some inv) {w : Work}
    (hold : inv.phase.receipt? = some w.receipt) {path : String} {device : ℕ} (made : Bool)
    (next : Bool → Phase) (hnext : ∀ made, (next made).receipt? = some w.receipt)
    (hsame : (next made).Sound (s.changesOf inv.request.actionId))
    (hmade : (next true).Sound (s.changesOf inv.request.actionId ++ [.madeDirectory])) :
    Held env ((makeDirectory s inv path device).goOn pid inv
      (next (made || (s.host.directory path).isNone))) := by
  rw [makeDirectory]
  cases hd : s.host.directory path with
  | some _ =>
    rw [Option.isNone_some, Bool.or_false]
    exact hs.works hrun hold (hnext made) hsame
  | none =>
    rw [Option.isNone_none, Bool.or_true]
    exact hs.changes hrun hold (hnext true) (fun h => by cases h) hmade

theorem all_append {P : Change → Prop} {changes : List Change} {c : Change}
    (h : ∀ change ∈ changes, P change) (hc : P c) : ∀ change ∈ changes ++ [c], P change := by
  intro change hchange
  rcases List.mem_append.1 hchange with hchange | hchange
  · exact h change hchange
  · rw [List.mem_singleton.1 hchange]
    exact hc

/-- Whoever has a directory made goes on with the file that was checked. -/
theorem Held.checksDevice (hs : Held env s) (hrun : s.running pid = some inv) {w : Work}
    {made : Bool} (hphase : inv.phase = .checkingDevice w made)
    (horderly : orderlyCall env s inv) : Held env (checkDevice s pid inv w made) := by
  have hsound := hs.sound hrun hphase rfl
  rw [orderlyCall, hphase] at horderly
  dsimp only at horderly
  have hold : inv.phase.receipt? = some w.receipt := by rw [hphase]; rfl
  rw [checkDevice]
  cases hdevice : s.host.statDevice w.source with
  | none => exact hs.fails hrun
  | some device =>
    cases hdir : s.host.directory w.targetDir with
    | none => exact hs.fails hrun
    | some device' =>
      dsimp only
      split
      · exact hs.works hrun hold rfl hsound
      · rename_i hne
        rw [hdevice, hdir] at horderly
        cases made with
        | true => simp [sameDevice, hne] at horderly
        | false =>
          refine hs.failsWith hrun hold _ ?_
          rw [hsound.2 rfl]
          simp

theorem Held.checksIdentity (hs : Held env s) (hrun : s.running pid = some inv) {w : Work}
    {made : Bool} (hphase : inv.phase = .checkingIdentity w made)
    (horderly : orderlyCall env s inv) : Held env (checkIdentity s pid inv w) := by
  have hsound := hs.sound hrun hphase rfl
  rw [orderlyCall, hphase] at horderly
  dsimp only at horderly
  have hold : inv.phase.receipt? = some w.receipt := by rw [hphase]; rfl
  rw [checkIdentity]
  cases hidentity : s.host.lstat w.source with
  | none => exact hs.fails hrun
  | some identity =>
    dsimp only
    split
    · exact hs.works hrun hold rfl hsound.1
    · rename_i hne
      rw [hidentity] at horderly
      cases made with
      | true =>
        refine absurd ?_ hne
        simpa using horderly
      | false =>
        refine hs.failsWith hrun hold _ ?_
        rw [hsound.2 rfl]
        simp

theorem Held.renames (hs : Held env s) (hrun : s.running pid = some inv) {w : Work}
    (hphase : inv.phase = .moving w) : Held env (renameSource s pid inv w) := by
  have hsound := hs.sound hrun hphase rfl
  have hold : inv.phase.receipt? = some w.receipt := by rw [hphase]; rfl
  rw [renameSource]
  cases s.host.lstat w.source with
  | none => exact hs.fails hrun
  | some identity => exact hs.changes hrun hold rfl (fun _ => hsound) trivial

theorem Held.checksMove (hs : Held env s) (hrun : s.running pid = some inv) {w : Work}
    (hphase : inv.phase = .checkingMove w) (horderly : orderlyCall env s inv) :
    Held env (checkMove s pid inv w) := by
  rw [orderlyCall, hphase] at horderly
  dsimp only at horderly
  have hold : inv.phase.receipt? = some w.receipt := by rw [hphase]; rfl
  rw [checkMove]
  cases hidentity : s.host.lstat w.target with
  | none => exact hs.fails hrun
  | some identity =>
    rw [hidentity] at horderly
    dsimp only
    rw [if_pos (by simpa using horderly)]
    exact hs.works hrun hold rfl trivial

theorem Held.seals (hs : Held env s) (hrun : s.running pid = some inv) {w : Work}
    (hphase : inv.phase = .sealing w) : Held env (sealTarget s pid inv w) := by
  have hold : inv.phase.receipt? = some w.receipt := by rw [hphase]; rfl
  rw [sealTarget]
  cases s.host.lstat w.target with
  | none => exact hs.fails hrun
  | some identity => exact hs.changes hrun hold rfl (fun h => by cases h) trivial

theorem Held.verifies (hs : Held env s) (hrun : s.running pid = some inv) {w : Work}
    (hphase : inv.phase = .verifying w) : Held env (verify s pid inv w) := by
  have hold : inv.phase.receipt? = some w.receipt := by rw [hphase]; rfl
  rw [verify]
  cases s.host.lstat w.target with
  | none => exact hs.fails hrun
  | some identity => exact hs.works hrun hold rfl ⟨by decide, fun h => by cases h⟩

theorem Held.inspectsAfter (hs : Held env s) (hrun : s.running pid = some inv) {receipt : Receipt}
    {before : Account} {changed : Bool} (hphase : inv.phase = .inspectingAfter receipt before changed)
    (horderly : orderlyCall env s inv) : Held env (inspectAfter s pid inv receipt before) := by
  have hsound := hs.sound hrun hphase rfl
  rw [orderlyCall, hphase] at horderly
  dsimp only at horderly
  have hold : inv.phase.receipt? = some receipt := by rw [hphase]; rfl
  have hidle := (hs.owner pid inv receipt hrun hold).1
  rw [inspectAfter]
  cases hafter : s.host.account (username inv.request.action) with
  | none =>
    rw [inspectAccount, hafter]
    exact hs.reply hrun fun receipt hr => by rw [hidle] at hr; cases hr
  | some after =>
    rw [hafter] at horderly
    rw [inspectAccount, hafter]
    refine hs.works hrun hold rfl ⟨by split <;> decide, ?_⟩
    intro hfailed
    cases hconfirmed : confirmed after with
    | true => simp [hconfirmed] at hfailed
    | false =>
      refine hsound ?_
      simpa [hconfirmed] using horderly

/-- A system call that comes back keeps the invariant. -/
theorem Held.proceed (hs : Held env s) (hrun : s.running pid = some inv)
    (horderly : orderlyCall env s inv) (number : ℕ) :
    Held env (proceed env s pid inv number) := by
  cases hphase : inv.phase with
  | checking => exact hs.checking hrun hphase horderly number
  | beginning subject => exact hs.beginning hrun hphase horderly number
  | creating subject => exact hs.creating hrun hphase horderly number
  | hashing w =>
    have hsound : s.changesOf inv.request.actionId = [] := hs.sound hrun hphase rfl
    have hold : inv.phase.receipt? = some w.receipt := by rw [hphase]; rfl
    rw [Receipts.proceed, hphase]
    dsimp only
    split
    · exact hs.works hrun hold rfl hsound
    · exact hs.failsWith hrun hold _ (by rw [hsound]; simp)
  | makingRoot w =>
    have hsound : s.changesOf inv.request.actionId = [] := hs.sound hrun hphase rfl
    have hold : inv.phase.receipt? = some w.receipt := by rw [hphase]; rfl
    have hsame : (Phase.makingDir w false).Sound (s.changesOf inv.request.actionId) :=
      ⟨by rw [hsound]; simp, fun _ => hsound⟩
    have hmade : (Phase.makingDir w true).Sound (s.changesOf inv.request.actionId ++ [.madeDirectory]) :=
      ⟨all_append hsame.1 rfl, fun h => by cases h⟩
    rw [Receipts.proceed, hphase]
    exact hs.makesDirectory hrun hold false (fun made => .makingDir w made) (fun _ => rfl) hsame hmade
  | makingDir w made =>
    have hsound := hs.sound hrun hphase rfl
    have hold : inv.phase.receipt? = some w.receipt := by rw [hphase]; rfl
    rw [Receipts.proceed, hphase]
    exact hs.makesDirectory hrun hold made (fun made => .checkingDevice w made) (fun _ => rfl) hsound
      ⟨all_append hsound.1 rfl, fun h => by cases h⟩
  | checkingDevice w made =>
    rw [Receipts.proceed, hphase]
    exact hs.checksDevice hrun hphase horderly
  | checkingIdentity w made =>
    rw [Receipts.proceed, hphase]
    exact hs.checksIdentity hrun hphase horderly
  | moving w =>
    rw [Receipts.proceed, hphase]
    exact hs.renames hrun hphase
  | checkingMove w =>
    rw [Receipts.proceed, hphase]
    exact hs.checksMove hrun hphase horderly
  | rollingBack w => exact (hs.sound hrun hphase rfl).elim
  | sealing w =>
    rw [Receipts.proceed, hphase]
    exact hs.seals hrun hphase
  | verifying w =>
    rw [Receipts.proceed, hphase]
    exact hs.verifies hrun hphase
  | locking receipt before =>
    rw [Receipts.proceed, hphase]
    exact hs
  | inspectingAfter receipt before changed =>
    rw [Receipts.proceed, hphase]
    exact hs.inspectsAfter hrun hphase horderly
  | finishing receipt status result =>
    rw [Receipts.proceed, hphase]
    exact hs.finish hrun hphase number

/-- `usermod` runs once, before anything else is changed. -/
theorem Held.locks (hs : Held env s) (hrun : s.running pid = some inv) {receipt : Receipt}
    {before : Account} (hphase : inv.phase = .locking receipt before) (account : Account)
    (exit : ℕ) : Held env (lockAccount s pid inv receipt before account exit) := by
  have hsound : s.changesOf inv.request.actionId = [] := hs.sound hrun hphase rfl
  have hold : inv.phase.receipt? = some receipt := by rw [hphase]; rfl
  have hidle := (hs.owner pid inv receipt hrun hold).1
  rw [lockAccount]
  split
  · refine hs.changes hrun hold rfl (fun _ => by rw [hsound]; simp) ?_
    intro hchanged
    rw [hsound]
    simpa [Change.changes] using hchanged
  · let change := Change.usermod (s.host.account (username inv.request.action) ≠ some account)
    have hmoves : Moves s ((s.record inv change (s.host.setAccount (username inv.request.action)
        account)).reply pid inv (.error (helperError .unsupportedEnvironment "usermod")))
        pid inv (some change) none := by
      refine ⟨rfl, rfl, rfl, ?_⟩
      intro p hp
      rcases List.mem_append.1 hp with hp | hp
      · exact Or.inl hp
      · rw [List.mem_singleton] at hp
        subst hp
        exact Or.inr ⟨rfl, fun receipt hr => by rw [hidle] at hr; cases hr⟩
    refine hs.moves hrun hmoves ?_ ?_ (by simp) (by simp)
    · rintro _ -
      rw [hold]
      simp
    · rintro _ - - c' hc'
      rw [hsound] at hc'
      cases hc'

theorem Held.invoke (hs : Held env s) (hnone : s.running pid = none) (request : WriteRequest) :
    Held env (step env s (.invoke pid request)) := by
  rw [step, hnone]
  have hcases : ∀ {q : ℕ} {inv' : Invocation}, Function.update s.running pid (some
      { request, replayed := replayOf env s request, phase := .checking }) q = some inv' →
      s.running q = some inv' ∨
        inv' = { request, replayed := replayOf env s request, phase := .checking } := by
    intro q inv' hq
    by_cases hqp : q = pid
    · subst hqp
      rw [Function.update_self] at hq
      exact Or.inr (Option.some.inj hq).symm
    · rw [Function.update_of_ne hqp] at hq
      exact Or.inl hq
  refine ⟨⟨hs.once, hs.failed, hs.replies, hs.idle⟩, ?_, ?_, ?_, hs.fresh⟩
  · intro q inv' hq hr receipt hreplayed
    rcases hcases hq with hq | rfl
    · exact hs.waiting q inv' hq hr receipt hreplayed
    · obtain ⟨hreceipt, hcond⟩ := Option.filter_eq_some_iff.1 hreplayed
      rw [Bool.and_eq_true, decide_eq_true_eq] at hcond
      exact ⟨hreceipt, hcond.1, hcond.2, rfl⟩
  · intro q inv' receipt hq hr
    rcases hcases hq with hq | rfl
    · exact hs.owner q inv' receipt hq hr
    · cases hr
  · intro q q' inv₁ inv₂ receipt receipt' hq hq' hr hr' hsame
    rcases hcases hq with hold | rfl
    · rcases hcases hq' with hold' | rfl
      · exact hs.unique q q' inv₁ inv₂ receipt receipt' hold hold' hr hr' hsame
      · cases hr'
    · cases hr

/-- A process that is gone holds nothing any more. -/
theorem Held.crash (hs : Held env s) : Held env (step env s (.crash pid)) := by
  have hcases : ∀ {q : ℕ} {inv' : Invocation},
      Function.update s.running pid none q = some inv' → s.running q = some inv' := by
    intro q inv' hq
    by_cases hqp : q = pid
    · subst hqp
      rw [Function.update_self] at hq
      cases hq
    · rwa [Function.update_of_ne hqp] at hq
  refine ⟨⟨hs.once, hs.failed, hs.replies, hs.idle⟩, ?_, ?_, ?_, hs.fresh⟩
  · exact fun q inv' hq => hs.waiting q inv' (hcases hq)
  · exact fun q inv' receipt hq => hs.owner q inv' receipt (hcases hq)
  · exact fun q q' inv₁ inv₂ receipt receipt' hq hq' =>
      hs.unique q q' inv₁ inv₂ receipt receipt' (hcases hq) (hcases hq')

end

theorem Held.step {env : Env} (s : State) (event : Event) (hs : Held env s)
    (horderly : orderly env s event) : Held env (step env s event) := by
  cases event with
  | invoke pid request =>
    cases hrun : s.running pid with
    | none => exact hs.invoke hrun request
    | some inv =>
      rw [Receipts.step, hrun]
      exact hs
  | advance pid answer =>
    rw [Receipts.step]
    cases hrun : s.running pid with
    | none => exact hs
    | some inv =>
      cases answer with
      | failed => exact hs.fails hrun
      | done number =>
        rw [orderly, hrun] at horderly
        exact hs.proceed hrun horderly number
      | ran account exit =>
        dsimp only
        rw [advance]
        cases hphase : inv.phase with
        | locking receipt before => exact hs.locks hrun hphase account exit
        | _ => exact hs
  | crash pid => exact hs.crash
  | outside host =>
    exact ⟨⟨hs.once, hs.failed, hs.replies, hs.idle⟩, hs.waiting, hs.owner, hs.unique, hs.fresh⟩

/-! ### Terminal receipts -/

/-- Every terminal receipt is still there. -/
def Keeps (s s' : State) : Prop :=
  ∀ actionId receipt, receipt.terminal → s.receipts actionId = some receipt →
    s'.receipts actionId = some receipt

/-- Only two calls write a receipt. -/
theorem proceed_receipts (env : Env) (s : State) (pid : ℕ) (inv : Invocation) (number : ℕ)
    (hcreating : ∀ subject, inv.phase ≠ .creating subject)
    (hfinishing : ∀ receipt status result, inv.phase ≠ .finishing receipt status result) :
    (proceed env s pid inv number).receipts = s.receipts := by
  have hdir : ∀ path, (makeDirectory s inv path number).receipts = s.receipts := by
    intro path
    rw [makeDirectory]
    split <;> rfl
  rw [proceed]
  cases hphase : inv.phase with
  | checking => dsimp only; split <;> rfl
  | beginning subject =>
    dsimp only
    split
    · rw [beginExisting]
      split
      · split <;> rfl
      · rfl
    · rfl
  | creating subject => exact absurd hphase (hcreating subject)
  | hashing w => dsimp only; split <;> rfl
  | makingRoot w => exact hdir w.root
  | makingDir w made => exact hdir w.targetDir
  | checkingDevice w made =>
    dsimp only
    rw [checkDevice]
    split
    · split <;> rfl
    · rfl
  | checkingIdentity w made =>
    dsimp only
    rw [checkIdentity]
    split
    · rfl
    · split <;> rfl
  | moving w => dsimp only; rw [renameSource]; split <;> rfl
  | checkingMove w => dsimp only; rw [checkMove]; split <;> rfl
  | rollingBack w =>
    dsimp only
    rw [rollBack]
    split
    · rfl
    · split <;> rfl
  | sealing w => dsimp only; rw [sealTarget]; split <;> rfl
  | verifying w => dsimp only; rw [verify]; split <;> rfl
  | locking receipt before => rfl
  | inspectingAfter receipt before changed => dsimp only; rw [inspectAfter]; split <;> rfl
  | finishing receipt status result => exact absurd hphase (hfinishing receipt status result)

theorem Keeps.of_eq {s s' : State} (h : s'.receipts = s.receipts) : Keeps s s' := by
  intro actionId receipt _ hreceipt
  rw [h]
  exact hreceipt

/-- A receipt written in the place of one that is missing or open. -/
theorem Keeps.put {s : State} {inv : Invocation} {receipt : Receipt}
    (h : ∀ old, s.receipts inv.request.actionId = some old → old.terminal = false) :
    Keeps s (s.putReceipt inv receipt) := by
  intro actionId old hterminal hold
  by_cases ha : actionId = inv.request.actionId
  · subst ha
    rw [h old hold] at hterminal
    cases hterminal
  · rw [putReceipt_ne s inv receipt actionId ha]
    exact hold

theorem Held.keeps {env : Env} (s : State) (event : Event) (hs : Held env s)
    (horderly : orderly env s event) : Keeps s (Receipts.step env s event) := by
  cases event with
  | invoke pid request =>
    rw [Receipts.step]
    split <;> exact Keeps.of_eq rfl
  | crash pid => exact Keeps.of_eq rfl
  | outside host => exact Keeps.of_eq rfl
  | advance pid answer =>
    rw [Receipts.step]
    cases hrun : s.running pid with
    | none => exact Keeps.of_eq rfl
    | some inv =>
      cases answer with
      | failed => exact Keeps.of_eq rfl
      | ran account exit =>
        refine Keeps.of_eq ?_
        dsimp only
        rw [advance]
        split
        · rw [lockAccount]
          split <;> rfl
        · rfl
      | done number =>
        rw [orderly, hrun] at horderly
        cases hphase : inv.phase with
        | creating subject =>
          have hnone : s.receipts inv.request.actionId = none := by
            simpa [orderlyCall, hphase] using horderly
          have hput : Keeps s (s.putReceipt inv (newReceipt env inv.request number)) :=
            Keeps.put fun old hold => by rw [hnone] at hold; cases hold
          dsimp only
          rw [advance, Receipts.proceed, hphase]
          exact hput
        | finishing receipt status result =>
          obtain ⟨-, hreceipt, hstarted, -⟩ :=
            hs.owner pid inv receipt hrun (by rw [hphase]; rfl)
          have hput : Keeps s (s.putReceipt inv
              { receipt with status, result := some result, finishedAt := some number }) := by
            refine Keeps.put fun old hold => ?_
            rw [hreceipt] at hold
            cases hold
            simp [Receipt.terminal, hstarted]
          dsimp only
          rw [advance, Receipts.proceed, hphase]
          exact hput
        | _ =>
          refine Keeps.of_eq (proceed_receipts env s pid inv number ?_ ?_) <;>
            simp [hphase]

/-- In every run whose calls meet the condition the receipts tell the truth, every effect is performed
    at most once, and a terminal receipt stays. -/
theorem receipts_truthful (env : Env) (host : Host) (before after : List Event)
    (h : Along (step env) (fun s event => orderly env s event) (State.start host)
      (before ++ after)) :
    Truthful (run (step env) (State.start host) (before ++ after)) ∧
      Keeps (run (step env) (State.start host) before)
        (run (step env) (State.start host) (before ++ after)) := by
  obtain ⟨hbefore, hafter⟩ := along_append.1 h
  have hheld := run_invariant Held.step before (State.start host) (held_start env host) hbefore
  rw [run_append]
  refine ⟨(run_invariant Held.step after _ hheld hafter).toTruthful, ?_⟩
  refine run_rel (fun _ _ _ _ h => h) ?_ Held.step Held.keeps after _ hheld hafter
  exact fun hab hbc actionId receipt hterminal h => hbc _ _ hterminal (hab _ _ hterminal h)

/-! ### A quarantine and its replay -/

def sampleEnv : Env := ⟨fun request => request.actionId, id, id⟩

def sampleNode : Node := ⟨true, none, String.ofList (List.replicate 64 'a'), 33188, 0, 0⟩

/-- One regular file on device 7. -/
def sampleHost : Host where
  lstat path := if path = "/srv/a.jsp" then some ⟨7, 11⟩ else none
  node _ := sampleNode
  directory _ := none
  account _ := none

def sampleRequest : WriteRequest where
  actionId := "ACT-00000000-0000-4000-8000-000000000001"
  action := .quarantineFile "/srv/a.jsp" sampleNode.sha256 "7" "11" "/var/quarantine"

/-- The thirteen calls of a quarantine; new directories are on device 7. -/
def quarantineRun : List Event :=
  .invoke 1 sampleRequest :: List.replicate 13 (.advance 1 (.done 7))

theorem receipts_truthful_quarantine :
    Truthful (run (step sampleEnv) (State.start sampleHost) (quarantineRun ++ [])) ∧
      Keeps (run (step sampleEnv) (State.start sampleHost) quarantineRun)
        (run (step sampleEnv) (State.start sampleHost) (quarantineRun ++ [])) :=
  receipts_truthful sampleEnv sampleHost quarantineRun [] (by decide)

def replayRun : List Event := quarantineRun ++ [Event.invoke 1 sampleRequest, .advance 1 (.done 0)]

/-- The same request once more finds the file gone before it looks for its receipt. -/
theorem replay_refused :
    ¬ Truthful (run (step sampleEnv) (State.start sampleHost) replayRun) := by
  intro h
  have hrefused : ∃ p ∈ (run (step sampleEnv) (State.start sampleHost) replayRun).replies,
      p.1.replayed.isSome ∧ p.2 = .error (helperError .staleRef
        "file locator changed, escaped, or became unreadable") := by decide
  obtain ⟨p, hp, hreplayed, herror⟩ := hrefused
  obtain ⟨receipt, hreceipt⟩ := Option.isSome_iff_exists.1 hreplayed
  rcases h.replies p hp receipt hreceipt with hreply | hreply
  · rw [herror] at hreply
    cases hreply
  · rw [herror] at hreply
    cases hreply

end HuntWarden.Receipts
