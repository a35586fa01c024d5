import HuntWarden.Lib.Runs
import HuntWarden.Storage.Budget

/-! The budget side of a remote tool call. The call reserves its worst-case estimate, sends the
    request, and settles the reservation: by the cost the helper declares when its answer passes
    `parseWireResponse` and the reservation check, by the estimate otherwise. Several calls
    interleave freely. The books are exact in every reachable store as long as the one cost key the
    envelope check does not read, `probeCalls`, arrives as a nonnegative number. -/

namespace HuntWarden.RemoteTool

open Outcome Wire BudgetStore

inductive ForensicVerb where
  | enumerate | project | read | match | relate | verify | collect | probe
  deriving DecidableEq, Repr

/-- The request parameters `estimateRemoteCost` reads. -/
structure RemoteParams where
  limit : Option ℕ := none
  maxHits : Option ℕ := none
  length : Option ℕ := none
  maxBytes : Option ℕ := none
  probeKind : Option String := none

/-- `PROTOCOL_MANIFEST.hardLimits.enumerateScanNodes`. -/
def enumerateScanNodes : ℕ := 5000

def estimateNodes (params : RemoteParams) : ForensicVerb → ℕ
  | .enumerate => enumerateScanNodes
  | .relate => params.limit.getD 500
  | .match => params.maxHits.getD 500
  | .probe => if params.probeKind = some "jvm.tomcat.inventory" then 500 else 1
  | _ => 1

def estimateBytes (params : RemoteParams) : ForensicVerb → ℕ
  | .read => min 1572864 (params.length.getD 65536 * 6 + 16384)
  | .collect => max 1572864 (params.maxBytes.getD 104857600)
  | _ => 1572864

def estimateRemoteCost (verb : ForensicVerb) (params : RemoteParams) : WireCost where
  remoteCalls := 1
  nodes := estimateNodes params verb
  bytes := estimateBytes params verb
  wallTimeMs := if verb = .probe then 115000 else 60000
  probeCalls := some (.num (if verb = .probe then 1 else 0))

/-- Every estimate a remote tool reserves is a vector of nonnegative numbers. -/
def remoteQuota (verb : ForensicVerb) (params : RemoteParams) : Quota where
  cost := estimateRemoteCost verb params
  metered := rfl
  nonneg key := by
    cases key with
    | remoteCalls => show (0 : ℚ) ≤ 1; norm_num
    | nodes => exact Nat.cast_nonneg (α := ℚ) (estimateNodes params verb)
    | bytes => exact Nat.cast_nonneg (α := ℚ) (estimateBytes params verb)
    | wallTimeMs => show (0 : ℚ) ≤ if verb = .probe then 115000 else 60000; split <;> norm_num
    | probeCalls => show (0 : ℚ) ≤ if verb = .probe then 1 else 0; split <;> norm_num

/-- A tool call under way. -/
structure RemoteCall where
  reservationId : String
  requestId : String
  estimate : Quota

variable (c : Coercions)

/-- The cost of an answer that passes both checks of `remoteTool`. -/
def acceptCost (call : RemoteCall) (raw : Option Json) : Except Thrown WireCost := do
  let wireResponse ← parseWireResponse raw call.requestId
  assertCostWithinReservation c wireResponse.cost call.estimate.cost
  return wireResponse.cost

/-- `answer` is what the transport brought back: nothing, or a text that may be no JSON. Anything
    that throws on the way settles by the estimate. -/
def settleCall (s : BudgetStore) (call : RemoteCall) (answer : Option (Option Json)) :
    Except Thrown BudgetStore :=
  let settled := do
    let raw ← orThrow answer (securityError .targetUnavailable "invokeV2")
    let cost ← acceptCost c call raw
    settleBudget c s call.reservationId cost
  match settled with
  | .ok s' => .ok s'
  | .error _ => settleBudget c s call.reservationId call.estimate.cost

inductive BudgetOp where
  | account (id : AccountId) (limits : Quota)
  | reserve (call : RemoteCall) (id : AccountId)
  | settle (call : RemoteCall) (answer : Option (Option Json))

/-- One operation on the store; one that throws leaves it as it was. -/
def step (s : BudgetStore) : BudgetOp → BudgetStore
  | .account id limits => initializeBudget s id limits.cost
  | .reserve call id => transact s (reserveBudget c s call.reservationId id call.estimate.cost)
  | .settle call answer => transact s (settleCall c s call answer)

/-- The reservation an operation settles. -/
def settledBy (s : BudgetStore) : BudgetOp → Option String
  | .settle call answer =>
    match settleCall c s call answer with
    | .ok _ => some call.reservationId
    | .error _ => none
  | _ => none

/-- The operation brings no accepted cost whose `probeCalls` is anything but a nonnegative number
    (absent, `null` and booleans count as numbers here, as they do in the code's arithmetic). -/
def ProbeCallsMetered : BudgetOp → Prop
  | .settle call (some raw) => ∀ cost, acceptCost c call raw = .ok cost →
      cost.Metered ∧ 0 ≤ cost.amount .probeCalls
  | _ => True

variable {c}

theorem acceptCost_nonneg {call : RemoteCall} {raw : Option Json} {cost : WireCost}
    (h : acceptCost c call raw = .ok cost) (hprobe : 0 ≤ cost.amount .probeCalls) :
    0 ≤ cost.amount := by
  simp only [acceptCost, bind_ok, pure_ok] at h
  obtain ⟨r, hparse, _, _, rfl⟩ := h
  obtain ⟨value, -, hcost⟩ := parseWireResponse_cost hparse
  obtain ⟨v, -, hv⟩ := Option.bind_eq_some_iff.1 hcost
  obtain ⟨h1, h2, h3, h4⟩ := isCost_nonneg hv
  intro key
  cases key with
  | remoteCalls => exact h1
  | nodes => exact h2
  | bytes => exact h3
  | wallTimeMs => exact h4
  | probeCalls => exact hprobe

/-- Every successful settlement is one `settleBudget` with a nonnegative vector of numbers. -/
theorem settleCall_ok {s s' : BudgetStore} {call : RemoteCall} {answer : Option (Option Json)}
    (hop : ProbeCallsMetered c (.settle call answer)) (h : settleCall c s call answer = .ok s') :
    ∃ cost : WireCost, cost.Metered ∧ 0 ≤ cost.amount ∧
      settleBudget c s call.reservationId cost = .ok s' := by
  unfold settleCall at h
  simp only at h
  split at h
  · rename_i s'' hsettled
    cases h
    simp only [bind_ok, orThrow_ok] at hsettled
    obtain ⟨raw, rfl, cost, hcost, hsettle⟩ := hsettled
    obtain ⟨hm, hprobe⟩ := hop cost hcost
    exact ⟨cost, hm, acceptCost_nonneg hcost hprobe, hsettle⟩
  · exact ⟨_, call.estimate.metered, call.estimate.nonneg, h⟩

theorem step_refines {s : BudgetStore} (hs : Sound s) (op : BudgetOp) (hop : ProbeCallsMetered c op) :
    Refines s (step c s op) ∧ Metered (step c s op) := by
  cases op with
  | account id limits =>
    exact ⟨initializeBudget_refines hs.toMetered id limits,
      initializeBudget_metered hs.toMetered id limits⟩
  | reserve call id =>
    refine transact_induction (P := fun s' => Refines s s' ∧ Metered s') ⟨.refl s, hs.toMetered⟩
      fun s' h => ?_
    exact ⟨reserveBudget_refines hs.toMetered call.estimate.metered call.estimate.nonneg h,
      reserveBudget_metered hs.toMetered call.estimate.metered h⟩
  | settle call answer =>
    refine transact_induction (P := fun s' => Refines s s' ∧ Metered s') ⟨.refl s, hs.toMetered⟩
      fun s' h => ?_
    obtain ⟨cost, hm, hnonneg, hsettle⟩ := settleCall_ok hop h
    exact ⟨settleBudget_refines hs.toMetered hs.balanced hm hnonneg hsettle,
      settleBudget_metered hs.toMetered hm hsettle⟩

theorem sound_step {s : BudgetStore} (hs : Sound s) (op : BudgetOp) (hop : ProbeCallsMetered c op) :
    Sound (step c s op) :=
  ⟨(step_refines hs op hop).2, (step_refines hs op hop).1.balanced hs.balanced⟩

/-- The reservation is on the books as SETTLED. -/
def Settled (s : BudgetStore) (reservationId : String) : Prop :=
  ∃ r ∈ s.reservations.rows, r.reservationId = reservationId ∧ r.status = .settled

theorem settled_of_settleBudget {s s' : BudgetStore} {rid : String} {actual : WireCost}
    (h : settleBudget c s rid actual = .ok s') :
    ¬ Settled s rid ∧ Settled s' rid ∧ ∀ other, Settled s other → Settled s' other := by
  obtain ⟨r, hr, row, -, rfl, hstatus, -, -, -, hres⟩ := settleBudget_ok h
  have hself : Settled s' r.reservationId :=
    ⟨{ r with status := .settled, actual := some actual },
      by rw [hres, Table.mem_set]; exact Or.inl ⟨rfl, r, hr, rfl⟩, rfl, rfl⟩
  refine ⟨?_, hself, ?_⟩
  · rintro ⟨r', hr', hid, hst⟩
    rw [s.reservations.eq_of_key hr' hr hid, hstatus] at hst; cases hst
  · rintro _ ⟨r', hr', rfl, hst⟩
    by_cases hid : r'.reservationId = r.reservationId
    · rw [hid]; exact hself
    · exact ⟨r', by rw [hres, Table.mem_set]; exact Or.inr ⟨hr', hid⟩, rfl, hst⟩

theorem settled_of_settleCall {s s' : BudgetStore} {call : RemoteCall}
    {answer : Option (Option Json)} (h : settleCall c s call answer = .ok s') :
    ¬ Settled s call.reservationId ∧ Settled s' call.reservationId ∧
      ∀ other, Settled s other → Settled s' other := by
  unfold settleCall at h
  simp only at h
  split at h
  · rename_i s'' hsettled
    cases h
    simp only [bind_ok, orThrow_ok] at hsettled
    obtain ⟨raw, rfl, cost, -, hsettle⟩ := hsettled
    exact settled_of_settleBudget hsettle
  · exact settled_of_settleBudget h

theorem settled_step {s : BudgetStore} (op : BudgetOp) (rid : String) (h : Settled s rid) :
    Settled (step c s op) rid := by
  cases op with
  | account id limits => exact h
  | reserve call id =>
    refine transact_induction (P := (Settled · rid)) h fun s' hok => ?_
    obtain ⟨row, -, -, -, -, -, hrows⟩ := reserveBudget_ok hok
    obtain ⟨r, hr, hid, hst⟩ := h
    exact ⟨r, by rw [hrows]; exact List.mem_append_left _ hr, hid, hst⟩
  | settle call answer =>
    exact transact_induction (P := (Settled · rid)) h fun s' hok => (settled_of_settleCall hok).2.2 rid h

theorem settledBy_fresh {s : BudgetStore} {op : BudgetOp} {rid : String}
    (h : settledBy c s op = some rid) : ¬ Settled s rid ∧ Settled (step c s op) rid := by
  cases op with
  | account id limits => cases h
  | reserve call id => cases h
  | settle call answer =>
    simp only [settledBy] at h
    split at h
    · rename_i s' hok
      cases h
      obtain ⟨hnot, hyes, -⟩ := settled_of_settleCall hok
      exact ⟨hnot, by simpa only [step, hok, transact] using hyes⟩
    · cases h

/-! ### The books of a whole run -/

/-- The store after the operations, from an empty database. -/
def runOps (c : Coercions) (ops : List BudgetOp) : BudgetStore := Runs.run (step c) empty ops

/-- The reservations the run settled, in order, one entry per settlement. -/
def settlements (c : Coercions) (ops : List BudgetOp) : List String :=
  Runs.emitted (step c) (settledBy c) empty ops

/-- The books are right: the totals of every account are numbers, are the sums of its reservation
    rows, and stay within its limit. -/
def BooksRight (s : BudgetStore) : Prop :=
  ∀ row ∈ s.accounts.rows, row.limits.Metered ∧ row.used.Metered ∧ row.reserved.Metered ∧ ∀ key,
    0 ≤ row.used.amount key ∧
    row.used.amount key + row.reserved.amount key ≤ row.limits.amount key ∧
    row.reserved.amount key = (openEstimates s row.id key).sum ∧
    row.used.amount key = (settledCosts s row.id key).sum

theorem sound_run (ops : List BudgetOp)
    (h : Runs.Along (step c) (fun _ op => ProbeCallsMetered c op) empty ops) :
    Sound (runOps c ops) :=
  Runs.run_invariant (I := Sound) (fun _ op hs hop => sound_step hs op hop) ops empty sound_empty h

def sampleAccount : AccountId := ⟨"TASK-1", "EPOCH-1", .model⟩

def sampleLimits : Quota where
  cost := ⟨10, 10000, 10000000, 1000000, some (.num 3)⟩
  metered := rfl
  nonneg key := by cases key <;> (show (0 : ℚ) ≤ _; decide)

def sampleCall : RemoteCall := ⟨"BRES-1", "call-1", remoteQuota .verify {}⟩

/-- A well-formed failure envelope that declares the given `probeCalls`. -/
def sampleAnswer (probeCalls : ℚ) : Json := .obj
  [("protocolVersion", .num 2), ("requestId", .str "call-1"), ("status", .str "ERROR"),
   ("error", .obj [("code", .str "STALE_REF")]),
   ("cost", .obj [("remoteCalls", .num 1), ("nodes", .num 1), ("bytes", .num 512),
     ("wallTimeMs", .num 40), ("probeCalls", .num probeCalls)])]

def sampleRun (probeCalls : ℚ) : List BudgetOp :=
  [.account sampleAccount sampleLimits, .reserve sampleCall sampleAccount,
   .settle sampleCall (some (some (sampleAnswer probeCalls)))]

end HuntWarden.RemoteTool
