import HuntWarden.Lib.Runs
import HuntWarden.Storage.Usage
import HuntWarden.Lib.Js
import Mathlib.Algebra.Order.BigOperators.Group.List
import Mathlib.Algebra.Order.Group.Int
import Mathlib.Algebra.BigOperators.Group.Multiset.Basic
import Mathlib.Algebra.Order.Ring.Cast
import Mathlib.Tactic.Linarith
import Mathlib.Tactic.NormNum
import Mathlib.Tactic.Ring

/-! The evidence counter. `collect` is charged what it may bring before it is sent, and refunded when its
    answer says how large the artifact is; `probe` is charged what its answer says. Only then is the
    artifact fetched and checked: the size that is refunded by is the helper's word. Several calls
    interleave, and any of them can be lost at any point. -/

namespace HuntWarden.EvidenceBytes

open Outcome

inductive EvidenceVerb where
  | collect | probe
  deriving DecidableEq, Repr

/-- A call that waits for its answer. -/
structure EvidenceCall where
  verb : EvidenceVerb
  taskId : String
  epochId : String
  toolCallId : String
  maxBytes : ℕ
  deriving DecidableEq, Repr

/-- A call whose artifact is being fetched. -/
structure Transfer where
  call : EvidenceCall
  artifact : Json

/-- An artifact that is kept as evidence. -/
structure StoredArtifact where
  evidenceId : String
  taskId : String
  epochId : String
  toolCallId : String
  size : ℕ
  deriving DecidableEq, Repr

structure EvidenceSystem where
  usage : UsageStore
  calls : List EvidenceCall
  transfers : List Transfer
  stored : Table StoredArtifact.evidenceId

namespace EvidenceSystem

def empty : EvidenceSystem := ⟨.empty, [], [], .empty⟩

end EvidenceSystem

def evidenceCounter (taskId epochId : String) : CounterId := ⟨taskId, epochId, "EVIDENCE_BYTES"⟩

def EvidenceCall.counter (call : EvidenceCall) : CounterId := evidenceCounter call.taskId call.epochId

def StoredArtifact.counter (stored : StoredArtifact) : CounterId :=
  evidenceCounter stored.taskId stored.epochId

variable (c : Coercions)

/-- `Number(response.artifact.size)`, as the arithmetic on it reads it. -/
def sizeNumber (artifact : Json) : Option ℚ := (artifact.get? "size").bind (Js.toNumber c)

/-- `collect`'s account with an answer. -/
def refundCollect (usage : UsageStore) (call : EvidenceCall) (artifact : Json) :
    Except Thrown UsageStore := do
  require (!(artifact.get? "size").any (Js.gt c · (.num call.maxBytes)))
    (securityError .evidenceCollection "Artifact 大小超过 collect 授权上限")
  usage.refundUsage call.counter ((sizeNumber c artifact).map fun size => call.maxBytes - size)

/-- What an answer with an artifact does to the counter. -/
def settle (usage : UsageStore) (call : EvidenceCall) (artifact : Json) : Except Thrown UsageStore :=
  match call.verb with
  | .collect => refundCollect c usage call artifact
  | .probe => usage.consumeUsage call.counter ((artifact.get? "size").bind Json.asNumber?)

/-- `MAX_ARTIFACT_BYTES` -/
def maxArtifactBytes : ℤ := 100 * 1024 * 1024

/-- The size, as `validateRemoteArtifactMetadata` lets it pass. -/
def downloadSize? (artifact : Json) : Option ℕ :=
  ((safeAmount? ((artifact.get? "size").bind Json.asNumber?)).filter (· ≤ maxArtifactBytes)).map
    Int.toNat

variable (evidenceId : String → String)

/-- `evidenceSeed` -/
def evidenceSeed (call : EvidenceCall) : String :=
  s!"{call.taskId}:{call.epochId}:{call.toolCallId}"

/-- `putStream`. `accepted` says whether the rest of the artifact's description is in order, `received` how
    many bytes of it came, none when the transfer failed. A call that has evidence brings no other. -/
def putStream (stored : Table StoredArtifact.evidenceId) (transfer : Transfer) (accepted : Bool)
    (received : Option ℕ) : Table StoredArtifact.evidenceId :=
  let call := transfer.call
  if stored.rows.any (fun row => row.taskId = call.taskId && row.toolCallId = call.toolCallId) then stored
  else
    match (downloadSize? transfer.artifact).filter fun size => accepted && received = some size with
    | some size => stored.put
        ⟨evidenceId (evidenceSeed call), call.taskId, call.epochId, call.toolCallId, size⟩
    | none => stored

inductive EvidenceOp where
  | initializeUsageCounter (id : CounterId) (limit : Option ℚ)
  /-- Any other tool's consumption. -/
  | consumeUsage (id : CounterId) (amount : Option ℚ)
  | send (call : EvidenceCall)
  /-- The end of a call's request: an artifact of the answer, or none. -/
  | answer (position : ℕ) (artifact : Option Json)
  | transferred (position : ℕ) (accepted : Bool) (received : Option ℕ)
  /-- Everything that was under way is lost. -/
  | restart

/-- The charge of a call before it is sent. -/
def charge (usage : UsageStore) (call : EvidenceCall) : Except Thrown UsageStore :=
  match call.verb with
  | .collect => usage.consumeUsage call.counter (some call.maxBytes)
  | .probe => .ok usage

/-- What comes of an answer: the counters, and the artifact to fetch. -/
def answered (s : EvidenceSystem) (call : EvidenceCall) (artifact : Option Json) :
    UsageStore × List Transfer :=
  match artifact.filter Js.truthy with
  | none => (s.usage, [])
  | some artifact =>
    match settle c s.usage call artifact with
    | .ok usage => (usage, [⟨call, artifact⟩])
    | .error _ => (s.usage, [])

def step (s : EvidenceSystem) : EvidenceOp → EvidenceSystem
  | .initializeUsageCounter id limit =>
    { s with usage := transact s.usage (s.usage.initializeUsageCounter id limit) }
  | .consumeUsage id amount => { s with usage := transact s.usage (s.usage.consumeUsage id amount) }
  | .send call =>
    match charge s.usage call with
    | .ok usage => { s with usage, calls := s.calls ++ [call] }
    | .error _ => s
  | .answer position artifact =>
    match s.calls[position]? with
    | none => s
    | some call =>
      let (usage, transfers) := answered c s call artifact
      { s with usage, calls := s.calls.eraseIdx position, transfers := s.transfers ++ transfers }
  | .transferred position accepted received =>
    match s.transfers[position]? with
    | none => s
    | some transfer => { s with
        transfers := s.transfers.eraseIdx position
        stored := putStream evidenceId s.stored transfer accepted received }
  | .restart => { s with calls := [], transfers := [] }

def run (ops : List EvidenceOp) : EvidenceSystem := Runs.run (step c evidenceId) .empty ops

/-- What a `collect` consumed, and what it was refunded. -/
structure Refund where
  consumed : ℚ
  refunded : ℚ

/-- The refund that an operation makes. -/
def refundOf (s : EvidenceSystem) : EvidenceOp → Option Refund
  | .answer position artifact => do
    let call ← s.calls[position]?
    let artifact ← artifact.filter Js.truthy
    if call.verb = .collect ∧ (settle c s.usage call artifact).toOption.isSome then
      return ⟨call.maxBytes, call.maxBytes - (← sizeNumber c artifact)⟩
    else none
  | _ => none

/-! ### What is held against a counter -/

/-- A call holds what it was charged. -/
def callCharge (id : CounterId) (call : EvidenceCall) : ℤ :=
  if call.counter = id ∧ call.verb = .collect then call.maxBytes else 0

/-- A transfer holds the size that it was settled by. -/
def transferCharge (id : CounterId) (transfer : Transfer) : ℤ :=
  if transfer.call.counter = id then ((sizeNumber c transfer.artifact).elim 0 (·.num)) else 0

def storedCharge (id : CounterId) (stored : StoredArtifact) : ℤ :=
  if stored.counter = id then stored.size else 0

/-- The bytes of the artifacts that are kept under a counter. -/
def storedTotal (s : EvidenceSystem) (id : CounterId) : ℤ := (s.stored.rows.map (storedCharge id)).sum

def due (s : EvidenceSystem) (id : CounterId) : ℤ :=
  (s.calls.map (callCharge id)).sum + (s.transfers.map (transferCharge c id)).sum + storedTotal s id

/-- No `collect` is answered with a size below zero that the counter could still be refunded by. -/
def SizesRefundable (s : EvidenceSystem) : EvidenceOp → Prop
  | .answer position (some artifact) => ∀ call, s.calls[position]? = some call → call.verb = .collect →
      Js.truthy artifact = true → ∀ n : ℤ, sizeNumber c artifact = some (n : ℚ) → n < 0 →
        9007199254740991 < call.maxBytes - n
  | _ => True

/-- What the counters promise: they stay within their limits, no `collect` is refunded more than it
    consumed, and the artifacts that are kept were paid for. -/
structure Accounted (s : EvidenceSystem) (refunds : List Refund) : Prop where
  bounded : s.usage.Bounded
  within : ∀ refund ∈ refunds, refund.refunded ≤ refund.consumed
  covered : ∀ id, storedTotal s id ≤ s.usage.used id

/-- Every counter covers what is held against it. -/
structure Held (s : EvidenceSystem) : Prop where
  bounded : s.usage.Bounded
  sizes : ∀ transfer ∈ s.transfers, ∃ n : ℤ, sizeNumber c transfer.artifact = some (n : ℚ) ∧ 0 ≤ n
  covers : ∀ id, due c s id ≤ s.usage.used id

/-- A `collect` that waits for its answer has a counter. -/
def Counted (s : EvidenceSystem) : Prop :=
  ∀ call ∈ s.calls, call.verb = .collect → (s.usage.get? call.counter).isSome

/-! ### Sums -/

variable {c evidenceId} {s s' : EvidenceSystem}

theorem sum_eraseIdx {α : Type} (f : α → ℤ) : ∀ {xs : List α} {n : ℕ} {a : α}, xs[n]? = some a →
    (xs.map f).sum = f a + ((xs.eraseIdx n).map f).sum
  | [], _, _, h => nomatch h
  | x :: xs, 0, a, h => by
    obtain rfl : x = a := Option.some.inj h
    rfl
  | x :: xs, n + 1, a, h => by
    have hrest : (xs.map f).sum = f a + ((xs.eraseIdx n).map f).sum := sum_eraseIdx f h
    rw [List.map_cons, List.sum_cons, hrest, List.eraseIdx_cons_succ, List.map_cons, List.sum_cons]
    omega

theorem sum_put_le {ρ κ : Type} [DecidableEq κ] {key : ρ → κ} {f : ρ → ℤ} (hf : ∀ x, 0 ≤ f x)
    (t : Table key) (r : ρ) : ((t.put r).rows.map f).sum ≤ (t.rows.map f).sum + f r := by
  by_cases h : ∃ x ∈ t.rows, key x = key r
  · obtain ⟨x, hx, hk⟩ := h
    obtain ⟨rest, hrows, hset⟩ := Table.rows_set_multiset hx hk.symm
    have hput : (t.put r).rows = (t.set r).rows := by
      rw [Table.put, Table.insertOrIgnore,
        Table.insert?_eq_none.2 ⟨r, Table.mem_set.2 (Or.inl ⟨rfl, x, hx, hk⟩), rfl⟩]
      rfl
    have hsum : ∀ {xs : List ρ} {a : ρ}, (xs : Multiset ρ) = a ::ₘ rest →
        (xs.map f).sum = f a + (rest.map f).sum := by
      intro xs a hxs
      rw [← Multiset.sum_coe, ← Multiset.map_coe, hxs, Multiset.map_cons, Multiset.sum_cons]
    rw [hput, hsum hset, hsum hrows]
    have := hf x
    omega
  · have hset : (t.set r).rows = t.rows := by
      rw [Table.set, Table.rows_mapRows]
      refine (List.map_congr_left fun x hx => ?_).trans (List.map_id _)
      exact if_neg fun hk => h ⟨x, hx, hk⟩
    rw [Table.put, Table.insertOrIgnore]
    cases hinsert : (t.set r).insert? r with
    | none =>
      obtain ⟨x, hx, hk⟩ := Table.insert?_eq_none.1 hinsert
      exact absurd ⟨x, hset ▸ hx, hk⟩ h
    | some t' =>
      rw [Option.getD_some, (Table.insert?_eq_some hinsert).2, hset, List.map_append, List.sum_append,
        List.map_singleton, List.sum_singleton]

theorem callCharge_nonneg (id : CounterId) (call : EvidenceCall) : 0 ≤ callCharge id call := by
  rw [callCharge]
  split <;> omega

theorem storedCharge_nonneg (id : CounterId) (stored : StoredArtifact) : 0 ≤ storedCharge id stored := by
  rw [storedCharge]
  split <;> omega

theorem Held.transferCharge_nonneg (h : Held c s) (id : CounterId) {transfer : Transfer}
    (hmem : transfer ∈ s.transfers) : 0 ≤ transferCharge c id transfer := by
  obtain ⟨n, hn, hnonneg⟩ := h.sizes transfer hmem
  rw [transferCharge, hn]
  split
  · exact (Rat.num_intCast n).symm ▸ hnonneg
  · exact Int.le_refl 0

/-! ### Reading a size -/

theorem gt_num (v : Json) (m : ℚ) :
    Js.gt c v (.num m) = (Js.toNumber c v).any fun size => decide (m < size) := by
  cases v with
  | null | bool | num => rfl
  | str text =>
    dsimp only [Js.gt, Js.lt, Js.toPrimitive, Js.toNumber]
    cases c.stringToNumber text <;> rfl
  | arr items =>
    dsimp only [Js.gt, Js.lt, Js.toPrimitive, Js.toNumber]
    cases c.stringToNumber (c.objectToString (.arr items)) <;> rfl
  | obj fields =>
    dsimp only [Js.gt, Js.lt, Js.toPrimitive, Js.toNumber]
    cases c.stringToNumber (c.objectToString (.obj fields)) <;> rfl

/-- A size that is a number is read as that number. -/
theorem sizeNumber_of_number {artifact : Json} {q : ℚ}
    (h : (artifact.get? "size").bind Json.asNumber? = some q) : sizeNumber c artifact = some q := by
  obtain ⟨v, hv, hnumber⟩ := Option.bind_eq_some_iff.1 h
  rw [sizeNumber, hv, Option.bind_some]
  cases v with
  | num q' => exact hnumber
  | _ => cases hnumber

/-- A refund leaves what the size says of the charge. -/
theorem refundCollect_ok {usage usage' : UsageStore} {call : EvidenceCall} {artifact : Json}
    (h : refundCollect c usage call artifact = .ok usage') : ∃ n : ℤ,
      sizeNumber c artifact = some (n : ℚ) ∧ n ≤ call.maxBytes ∧
      call.maxBytes - n ≤ 9007199254740991 ∧
      usage.refundUsage call.counter (some ((call.maxBytes - n : ℤ) : ℚ)) = .ok usage' := by
  obtain ⟨_, -, h⟩ := bind_ok.1 h
  obtain ⟨m, hm, hrest⟩ := bind_ok.1 h
  obtain ⟨hamount, hnonneg, hle⟩ := UsageStore.safeAmount?_eq_some.1 (orThrow_ok.1 hm)
  obtain ⟨size, hsize, hq⟩ := Option.map_eq_some_iff.1 hamount
  have hinteger : size = ((call.maxBytes - m : ℤ) : ℚ) := by
    push_cast
    rw [← hq]
    ring
  refine ⟨call.maxBytes - m, by rw [hsize, hinteger], by omega, by omega, ?_⟩
  rw [Int.sub_sub_self, ← hamount]
  exact h

/-- The counter of a charged call lets a size be refunded by that is small enough. -/
theorem refundCollect_total {usage : UsageStore} {call : EvidenceCall} {artifact : Json} {n : ℤ}
    (hcounter : (usage.get? call.counter).isSome) (hsize : sizeNumber c artifact = some (n : ℚ))
    (hle : n ≤ call.maxBytes) (hsafe : call.maxBytes - n ≤ 9007199254740991) :
    ∃ usage', refundCollect c usage call artifact = .ok usage' := by
  refine bind_total ⟨(), require_ok.2 ?_⟩ fun _ _ => ?_
  · cases hget : artifact.get? "size" with
    | none => rfl
    | some v =>
      rw [sizeNumber, hget, Option.bind_some] at hsize
      rw [Option.any_some, gt_num, hsize, Option.any_some, Bool.not_eq_true', decide_eq_false_iff_not]
      exact not_lt.2 (by exact_mod_cast hle)
  · have hamount : (sizeNumber c artifact).map (fun size => (call.maxBytes : ℚ) - size) =
        some ((call.maxBytes - n : ℤ) : ℚ) := by
      rw [hsize, Option.map_some]
      push_cast
      rfl
    rw [hamount]
    obtain ⟨row, hrow⟩ := Option.isSome_iff_exists.1 hcounter
    refine bind_total ⟨_, orThrow_ok.2 (UsageStore.safeAmount?_eq_some.2 ⟨rfl, by omega, hsafe⟩)⟩
      fun _ _ => bind_total ⟨row, orThrow_ok.2 hrow⟩ fun _ _ => ⟨_, rfl⟩

/-! ### One step -/

theorem Held.onUsage (h : Held c s) {usage : UsageStore} (hbounded : usage.Bounded)
    (hused : ∀ id, s.usage.used id ≤ usage.used id) : Held c { s with usage } :=
  ⟨hbounded, h.sizes, fun id => (h.covers id).trans (hused id)⟩

theorem held_send (h : Held c s) (call : EvidenceCall) : Held c (step c evidenceId s (.send call)) := by
  rw [step]
  cases hcharge : charge s.usage call with
  | error error => exact h
  | ok usage =>
    have hdue : ∀ id, due c { s with usage, calls := s.calls ++ [call] } id =
        due c s id + callCharge id call := by
      intro id
      simp only [due, storedTotal, List.map_append, List.sum_append, List.map_singleton,
        List.sum_singleton]
      omega
    rw [charge] at hcharge
    cases hverb : call.verb with
    | probe =>
      rw [hverb] at hcharge
      cases hcharge
      have hnone : ∀ id, callCharge id call = 0 := fun id =>
        if_neg fun hcollect => absurd (hverb.symm.trans hcollect.2) (by decide)
      refine ⟨h.bounded, h.sizes, fun id => ?_⟩
      dsimp only
      rw [hdue, hnone, Int.add_zero]
      exact h.covers id
    | collect =>
      rw [hverb] at hcharge
      obtain ⟨n, hn, -, -, hused⟩ := UsageStore.used_consumeUsage hcharge
      have hbytes : n = call.maxBytes := by
        have hcast : (call.maxBytes : ℚ) = (n : ℚ) := Option.some.inj hn
        exact_mod_cast hcast.symm
      refine ⟨h.bounded.consumeUsage hcharge, h.sizes, fun id => ?_⟩
      rw [hdue, hused, callCharge]
      have hcovers := h.covers id
      by_cases hid : id = call.counter
      · subst hid
        rw [if_pos rfl, if_pos ⟨rfl, hverb⟩]
        omega
      · rw [if_neg hid, if_neg fun hcounter => hid hcounter.1.symm]
        omega

/-- What an answer leaves is covered by what the call was charged. -/
theorem answered_covers (h : Held c s) {position : ℕ} {call : EvidenceCall}
    (hcall : s.calls[position]? = some call) {artifact : Option Json}
    (hop : SizesRefundable c s (.answer position artifact)) :
    (answered c s call artifact).1.Bounded ∧
    (∀ transfer ∈ (answered c s call artifact).2,
      ∃ n : ℤ, sizeNumber c transfer.artifact = some (n : ℚ) ∧ 0 ≤ n) ∧
    ∀ id, due c s id - callCharge id call +
      ((answered c s call artifact).2.map (transferCharge c id)).sum ≤
        (answered c s call artifact).1.used id := by
  have hnothing : s.usage.Bounded ∧
      (∀ transfer ∈ ([] : List Transfer),
        ∃ n : ℤ, sizeNumber c transfer.artifact = some (n : ℚ) ∧ 0 ≤ n) ∧
      ∀ id, due c s id - callCharge id call + (([] : List Transfer).map (transferCharge c id)).sum ≤
        s.usage.used id := by
    refine ⟨h.bounded, fun _ hmem => absurd hmem List.not_mem_nil, fun id => ?_⟩
    have hcovers := h.covers id
    have hcharge := callCharge_nonneg id call
    rw [List.map_nil, List.sum_nil]
    omega
  rw [answered]
  cases hartifact : artifact.filter Js.truthy with
  | none => exact hnothing
  | some found =>
    obtain ⟨rfl, htruthy⟩ := Option.filter_eq_some_iff.1 hartifact
    dsimp only
    cases hsettle : settle c s.usage call found with
    | error error => exact hnothing
    | ok usage =>
      dsimp only
      rw [settle] at hsettle
      cases hverb : call.verb with
      | probe =>
        rw [hverb] at hsettle
        obtain ⟨n, hn, hnonneg, -, hused⟩ := UsageStore.used_consumeUsage hsettle
        have hsize : sizeNumber c found = some (n : ℚ) := sizeNumber_of_number hn
        refine ⟨h.bounded.consumeUsage hsettle, fun transfer hmem => ?_, fun id => ?_⟩
        · rw [List.mem_singleton.1 hmem]
          exact ⟨n, hsize, hnonneg⟩
        · have hcovers := h.covers id
          have hcharge := callCharge_nonneg id call
          rw [hused, List.map_singleton, List.sum_singleton, transferCharge, hsize]
          by_cases hid : id = call.counter
          · subst hid
            rw [if_pos rfl, if_pos rfl, Option.elim_some, Rat.num_intCast]
            omega
          · rw [if_neg hid, if_neg (Ne.symm hid)]
            omega
      | collect =>
        rw [hverb] at hsettle
        obtain ⟨n, hsize, hle, hsafe, hrefund⟩ := refundCollect_ok hsettle
        obtain ⟨m, hm, -, hused⟩ := UsageStore.used_refundUsage hrefund
        have hrefunded : m = call.maxBytes - n := by
          have hcast : ((call.maxBytes - n : ℤ) : ℚ) = (m : ℚ) := Option.some.inj hm
          exact_mod_cast hcast.symm
        have hnonneg : 0 ≤ n := by
          by_contra hneg
          have := hop call hcall hverb htruthy n hsize (Int.not_le.1 hneg)
          omega
        refine ⟨h.bounded.refundUsage hrefund, fun transfer hmem => ?_, fun id => ?_⟩
        · rw [List.mem_singleton.1 hmem]
          exact ⟨n, hsize, hnonneg⟩
        · have hcovers := h.covers id
          rw [hused, List.map_singleton, List.sum_singleton, transferCharge, hsize, callCharge]
          by_cases hid : id = call.counter
          · subst hid
            rw [if_pos rfl, if_pos rfl, if_pos ⟨rfl, hverb⟩, Option.elim_some, Rat.num_intCast]
            omega
          · rw [if_neg hid, if_neg (Ne.symm hid), if_neg fun hcounter => hid hcounter.1.symm]
            omega

theorem held_answer (h : Held c s) {position : ℕ} {artifact : Option Json}
    (hop : SizesRefundable c s (.answer position artifact)) :
    Held c (step c evidenceId s (.answer position artifact)) := by
  rw [step]
  cases hcall : s.calls[position]? with
  | none => exact h
  | some call =>
    obtain ⟨hbounded, hsizes, hcovers⟩ := answered_covers h hcall hop
    refine ⟨hbounded, fun transfer hmem => ?_, fun id => ?_⟩
    · exact (List.mem_append.1 hmem).elim (h.sizes transfer) (hsizes transfer)
    · have hsum := sum_eraseIdx (callCharge id) hcall
      have hid := hcovers id
      simp only [due, storedTotal, List.map_append, List.sum_append] at hid ⊢
      omega

/-- What is kept of a transfer is at most what it was settled by. -/
theorem storedTotal_putStream (h : Held c s) {transfer : Transfer} (hmem : transfer ∈ s.transfers)
    (accepted : Bool) (received : Option ℕ) (id : CounterId) :
    ((putStream evidenceId s.stored transfer accepted received).rows.map (storedCharge id)).sum ≤
      storedTotal s id + transferCharge c id transfer := by
  have hcharge := h.transferCharge_nonneg id hmem
  rw [putStream]
  split
  · rw [storedTotal]
    omega
  · cases hsize : (downloadSize? transfer.artifact).filter
        fun size => accepted && received = some size with
    | none =>
      dsimp only
      rw [storedTotal]
      omega
    | some size =>
      dsimp only
      refine (sum_put_le (storedCharge_nonneg id) s.stored _).trans ?_
      have hdownload := (Option.filter_eq_some_iff.1 hsize).1
      obtain ⟨n, hn, hnat⟩ := Option.map_eq_some_iff.1 hdownload
      obtain ⟨hnumber, hnonneg, -⟩ :=
        UsageStore.safeAmount?_eq_some.1 (Option.filter_eq_some_iff.1 hn).1
      have hclaimed : sizeNumber c transfer.artifact = some (n : ℚ) := sizeNumber_of_number hnumber
      have hsame : storedCharge id ⟨evidenceId (evidenceSeed transfer.call), transfer.call.taskId,
          transfer.call.epochId, transfer.call.toolCallId, size⟩ = transferCharge c id transfer := by
        rw [storedCharge, transferCharge, hclaimed, Option.elim_some, Rat.num_intCast, ← hnat,
          Int.toNat_of_nonneg hnonneg]
        rfl
      rw [hsame, storedTotal]

theorem held_transferred (h : Held c s) (position : ℕ) (accepted : Bool) (received : Option ℕ) :
    Held c (step c evidenceId s (.transferred position accepted received)) := by
  rw [step]
  cases htransfer : s.transfers[position]? with
  | none => exact h
  | some transfer =>
    refine ⟨h.bounded, fun other hmem => h.sizes other (List.mem_of_mem_eraseIdx hmem), fun id => ?_⟩
    have hsum := sum_eraseIdx (transferCharge c id) htransfer
    have hstored := @storedTotal_putStream c evidenceId s h transfer
      (List.mem_of_getElem? htransfer) accepted received id
    have hcovers := h.covers id
    simp only [due] at hcovers ⊢
    rw [show storedTotal { s with
        transfers := s.transfers.eraseIdx position
        stored := putStream evidenceId s.stored transfer accepted received } id =
      ((putStream evidenceId s.stored transfer accepted received).rows.map (storedCharge id)).sum from rfl]
    omega

theorem Held.outstanding_nonneg (h : Held c s) (id : CounterId) :
    0 ≤ (s.calls.map (callCharge id)).sum + (s.transfers.map (transferCharge c id)).sum := by
  refine Int.add_nonneg (List.sum_nonneg fun n hn => ?_) (List.sum_nonneg fun n hn => ?_)
  · obtain ⟨call, -, rfl⟩ := List.mem_map.1 hn
    exact callCharge_nonneg id call
  · obtain ⟨transfer, hmem, rfl⟩ := List.mem_map.1 hn
    exact h.transferCharge_nonneg id hmem

theorem Held.storedTotal_le (h : Held c s) (id : CounterId) : storedTotal s id ≤ s.usage.used id := by
  have hcovers := h.covers id
  have houtstanding := h.outstanding_nonneg id
  rw [due] at hcovers
  omega

theorem held_restart (h : Held c s) : Held c (step c evidenceId s .restart) := by
  rw [step]
  refine ⟨h.bounded, fun _ hmem => absurd hmem List.not_mem_nil, fun id => ?_⟩
  have hstored := h.storedTotal_le id
  simp only [due, storedTotal, List.map_nil, List.sum_nil] at hstored ⊢
  omega

theorem held_step (h : Held c s) (op : EvidenceOp) (hop : SizesRefundable c s op) :
    Held c (step c evidenceId s op) := by
  cases op with
  | initializeUsageCounter id limit =>
    refine transact_induction (P := fun usage => Held c { s with usage }) h fun usage husage => ?_
    exact h.onUsage (h.bounded.initializeUsageCounter husage) fun other =>
      Int.le_of_eq (UsageStore.used_initializeUsageCounter husage other).symm
  | consumeUsage id amount =>
    refine transact_induction (P := fun usage => Held c { s with usage }) h fun usage husage => ?_
    refine h.onUsage (h.bounded.consumeUsage husage) fun other => ?_
    obtain ⟨n, -, hn, -, hused⟩ := UsageStore.used_consumeUsage husage
    rw [hused]
    split
    · rename_i hid
      rw [hid]
      omega
    · exact Int.le_refl _
  | send call => exact held_send h call
  | answer position artifact => exact held_answer h hop
  | transferred position accepted received => exact held_transferred h position accepted received
  | restart => exact held_restart h

/-! ### What holds whatever the answers say -/

theorem bounded_answered (h : s.usage.Bounded) (call : EvidenceCall) (artifact : Option Json) :
    (answered c s call artifact).1.Bounded := by
  rw [answered]
  split
  · exact h
  · split
    · rename_i usage hsettle
      rw [settle] at hsettle
      split at hsettle
      · obtain ⟨n, -, -, -, hrefund⟩ := refundCollect_ok hsettle
        exact h.refundUsage hrefund
      · exact h.consumeUsage hsettle
    · exact h

theorem bounded_step (h : s.usage.Bounded) (op : EvidenceOp) :
    (step c evidenceId s op).usage.Bounded := by
  cases op with
  | initializeUsageCounter id limit =>
    exact transact_induction h fun usage husage => h.initializeUsageCounter husage
  | consumeUsage id amount => exact transact_induction h fun usage husage => h.consumeUsage husage
  | send call =>
    rw [step]
    cases hcharge : charge s.usage call with
    | error error => exact h
    | ok usage =>
      rw [charge] at hcharge
      split at hcharge
      · exact h.consumeUsage hcharge
      · cases hcharge
        exact h
  | answer position artifact =>
    rw [step]
    cases hcall : s.calls[position]? with
    | none => exact h
    | some call => exact bounded_answered h call artifact
  | transferred position accepted received =>
    rw [step]
    cases htransfer : s.transfers[position]? with
    | none => exact h
    | some transfer => exact h
  | restart => exact h

/-! ### Every call under way has its counter -/

theorem isSome_answered (call : EvidenceCall) (artifact : Option Json) (id : CounterId)
    (h : (s.usage.get? id).isSome) : ((answered c s call artifact).1.get? id).isSome := by
  rw [answered]
  split
  · exact h
  · split
    · rename_i usage hsettle
      rw [settle] at hsettle
      split at hsettle
      · obtain ⟨n, -, -, -, hrefund⟩ := refundCollect_ok hsettle
        exact UsageStore.isSome_refundUsage hrefund id h
      · exact UsageStore.isSome_consumeUsage hsettle id h
    · exact h

theorem counted_step (h : Counted s) (op : EvidenceOp) : Counted (step c evidenceId s op) := by
  cases op with
  | initializeUsageCounter id limit =>
    refine transact_induction (P := fun usage => Counted { s with usage }) h fun usage husage => ?_
    exact fun call hcall hverb =>
      UsageStore.isSome_initializeUsageCounter husage _ (h call hcall hverb)
  | consumeUsage id amount =>
    refine transact_induction (P := fun usage => Counted { s with usage }) h fun usage husage => ?_
    exact fun call hcall hverb => UsageStore.isSome_consumeUsage husage _ (h call hcall hverb)
  | send call =>
    rw [step]
    cases hcharge : charge s.usage call with
    | error error => exact h
    | ok usage =>
      rw [charge] at hcharge
      intro other hother hverb
      rcases List.mem_append.1 hother with hmem | hmem
      · have hcounter := h other hmem hverb
        split at hcharge
        · exact UsageStore.isSome_consumeUsage hcharge _ hcounter
        · cases hcharge
          exact hcounter
      · rw [List.mem_singleton.1 hmem] at hverb ⊢
        rw [hverb] at hcharge
        obtain ⟨n, row, -, -, hrow, -, rfl⟩ := UsageStore.consumeUsage_ok hcharge
        exact UsageStore.isSome_set _ _ (by rw [hrow]; rfl)
  | answer position artifact =>
    rw [step]
    cases hcall : s.calls[position]? with
    | none => exact h
    | some call => exact fun other hother hverb =>
        isSome_answered call artifact _ (h other (List.mem_of_mem_eraseIdx hother) hverb)
  | transferred position accepted received =>
    rw [step]
    cases htransfer : s.transfers[position]? with
    | none => exact h
    | some transfer => exact h
  | restart => exact fun _ hcall => absurd hcall List.not_mem_nil

/-! ### Refunds -/

/-- A refund stays within what was consumed exactly when the size allowed it. -/
theorem within_iff (h : Counted s) (op : EvidenceOp) :
    (∀ refund ∈ refundOf c s op, refund.refunded ≤ refund.consumed) ↔ SizesRefundable c s op := by
  cases op with
  | answer position artifact =>
    cases artifact with
    | none =>
      refine iff_of_true (fun refund hrefund => ?_) trivial
      obtain ⟨call, -, hrest⟩ := Option.bind_eq_some_iff.1 hrefund
      cases hrest
    | some artifact =>
      rw [SizesRefundable]
      constructor
      · intro hwithin call hcall hverb htruthy n hsize hneg
        by_contra hsafe
        have hcounter := h call (List.mem_of_getElem? hcall) hverb
        obtain ⟨usage, husage⟩ :=
          refundCollect_total hcounter hsize (by omega) (Int.not_lt.1 hsafe)
        have hemitted : refundOf c s (.answer position (some artifact)) =
            some ⟨call.maxBytes, call.maxBytes - n⟩ := by
          have hsettle : settle c s.usage call artifact = .ok usage := by rw [settle, hverb, husage]
          rw [refundOf, hcall, Option.filter_some_pos htruthy]
          simp only [Option.bind_eq_bind, Option.bind_some]
          rw [if_pos ⟨hverb, by rw [hsettle]; rfl⟩, hsize]
          rfl
        have := hwithin _ hemitted
        have hle : (0 : ℚ) ≤ n := by linarith
        exact absurd (by exact_mod_cast hle) (Int.not_le.2 hneg)
      · intro hsizes refund hrefund
        obtain ⟨call, hcall, hrest⟩ := Option.bind_eq_some_iff.1 hrefund
        obtain ⟨found, hfound, hrest⟩ := Option.bind_eq_some_iff.1 hrest
        obtain ⟨heq, htruthy⟩ := Option.filter_eq_some_iff.1 hfound
        obtain rfl := Option.some.inj heq
        split at hrest
        · rename_i hcollect
          obtain ⟨hverb, hsome⟩ := hcollect
          cases hsettle : settle c s.usage call artifact with
          | error error =>
            rw [hsettle] at hsome
            cases hsome
          | ok usage =>
            rw [settle, hverb] at hsettle
            obtain ⟨n, hsize, -, hsafe, -⟩ := refundCollect_ok hsettle
            rw [hsize] at hrest
            obtain rfl := Option.some.inj hrest
            have hnonneg : 0 ≤ n := by
              by_contra hneg
              have := hsizes call hcall hverb htruthy n hsize (Int.not_le.1 hneg)
              omega
            have hcast : (0 : ℚ) ≤ n := by exact_mod_cast hnonneg
            show (call.maxBytes : ℚ) - n ≤ call.maxBytes
            linarith
        · cases hrest
  | _ => exact iff_of_true (fun _ hrefund => nomatch hrefund) trivial

/-! ### Runs -/

/-- The refunds of a run. -/
def refunds (c : Coercions) (evidenceId : String → String) (ops : List EvidenceOp) : List Refund :=
  Runs.emitted (step c evidenceId) (refundOf c) .empty ops

theorem within_emitted {P : Refund → Prop} : ∀ (ops : List EvidenceOp) (s : EvidenceSystem),
    (∀ refund ∈ Runs.emitted (step c evidenceId) (refundOf c) s ops, P refund) ↔
      Runs.Along (step c evidenceId) (fun s op => ∀ refund ∈ refundOf c s op, P refund) s ops
  | [], s => by simp [Runs.emitted, Runs.Along]
  | op :: ops, s => by
    rw [Runs.emitted, List.forall_mem_append, within_emitted ops, Runs.Along]
    simp only [Option.mem_toList]
    rfl

def sampleArtifact (size : ℤ) : Json :=
  .obj [("token", .str "0000000000000000000000000000000000000000000000000000000000000000"),
    ("sha256", .str "0000000000000000000000000000000000000000000000000000000000000000"),
    ("size", .num size), ("complete", .bool true), ("expiresAt", .str "2026-01-01T00:00:00.000Z")]

/-- An artifact of ten bytes is kept; the next call, for five, is told a size of minus ten. -/
def negativeSize : List EvidenceOp :=
  [.initializeUsageCounter (evidenceCounter "TASK" "EPOCH") (some 100),
    .send ⟨.collect, "TASK", "EPOCH", "CALL-1", 10⟩, .answer 0 (some (sampleArtifact 10)),
    .transferred 0 true (some 10),
    .send ⟨.collect, "TASK", "EPOCH", "CALL-2", 5⟩, .answer 0 (some (sampleArtifact (-10)))]

end HuntWarden.EvidenceBytes
