import HuntWarden.Common.Errors
import HuntWarden.Lib.Js
import HuntWarden.Lib.Outcome
import Mathlib.Tactic.Linarith

/-! The envelope a host helper answers with. `parseWireResponse` accepts or rejects it, and
    `assertCostWithinReservation` holds the declared cost against the reservation. Of the five
    resource keys the envelope check reads four: `probeCalls` is optional and passes unchecked, so it
    stays raw JSON here and every operator that meets it is JavaScript's. -/

namespace HuntWarden

/-- The resources a budget is kept in (`budgetKeys`). -/
inductive BudgetKey where
  | remoteCalls | nodes | bytes | wallTimeMs | probeCalls
  deriving DecidableEq, Repr

namespace BudgetKey

def all : List BudgetKey := [.remoteCalls, .nodes, .bytes, .wallTimeMs, .probeCalls]

theorem mem_all (key : BudgetKey) : key ∈ all := by cases key <;> simp [all]

def name : BudgetKey → String
  | .remoteCalls => "remoteCalls"
  | .nodes => "nodes"
  | .bytes => "bytes"
  | .wallTimeMs => "wallTimeMs"
  | .probeCalls => "probeCalls"

end BudgetKey

structure WireCost where
  remoteCalls : ℚ
  nodes : ℚ
  bytes : ℚ
  wallTimeMs : ℚ
  probeCalls : Option Json := none
  deriving DecidableEq, Repr

namespace WireCost

/-- `cost[key]`. -/
def get (cost : WireCost) : BudgetKey → Option Json
  | .remoteCalls => some (.num cost.remoteCalls)
  | .nodes => some (.num cost.nodes)
  | .bytes => some (.num cost.bytes)
  | .wallTimeMs => some (.num cost.wallTimeMs)
  | .probeCalls => cost.probeCalls

/-- The cost as a vector of numbers; a `probeCalls` that is no number counts nothing. -/
def amount (cost : WireCost) (key : BudgetKey) : ℚ :=
  (Js.numeric? (Js.orZero (cost.get key))).getD 0

/-- `probeCalls` is a number, or something arithmetic reads as one. -/
def Metered (cost : WireCost) : Prop := (Js.numeric? (Js.orZero cost.probeCalls)).isSome

instance (cost : WireCost) : Decidable cost.Metered := inferInstanceAs (Decidable (_ = true))

theorem metered_of_num {cost : WireCost} {q : ℚ} (h : cost.probeCalls = some (.num q)) :
    cost.Metered := by
  rw [Metered, h]; rfl

theorem amount_of_num {cost : WireCost} {q : ℚ} (h : cost.probeCalls = some (.num q)) :
    cost.amount .probeCalls = q := by
  rw [amount, get, h]; rfl

theorem numeric_get {cost : WireCost} (h : cost.Metered) (key : BudgetKey) :
    Js.numeric? (Js.orZero (cost.get key)) = some (cost.amount key) := by
  cases key with
  | probeCalls =>
    obtain ⟨q, hq⟩ := Option.isSome_iff_exists.1 h
    simp only [amount, get, hq, Option.getD_some]
  | _ => rfl

end WireCost

namespace Wire

open Outcome

def errorCodes : List String :=
  ["INVALID_ARGUMENT", "PERMISSION_DENIED", "UNSUPPORTED_CAPABILITY", "STALE_REF", "EPOCH_MISMATCH",
   "SOURCE_CHANGED", "BUDGET_EXHAUSTED", "DEADLINE_EXCEEDED", "OUTPUT_LIMIT_EXCEEDED",
   "EVIDENCE_COLLECTION_FAILED", "PROBE_FAILED", "TARGET_UNAVAILABLE", "INTERNAL_ERROR"]

/-- `COVERAGE_GAP_CODES`. -/
def gapCodes : List String :=
  ["PERMISSION_DENIED", "CAPABILITY_UNAVAILABLE", "DEADLINE", "NODE_LIMIT", "BYTE_LIMIT",
   "OUTPUT_LIMIT", "SOURCE_CHANGED", "FIELD_UNAVAILABLE", "COLLECTOR_ERROR"]

/-- `Number.isFinite(value) && Number(value) >= 0`. -/
def finiteNonneg : Option Json → Option ℚ
  | some (.num q) => if 0 ≤ q then some q else none
  | _ => none

/-- `Number.isSafeInteger(value) && Number(value) >= 0`. -/
def safeCount (value : Option Json) : Bool :=
  match value with
  | some (.num q) => (Json.num q).isSafeInteger && decide (0 ≤ q)
  | _ => false

def isCost (value : Json) : Option WireCost := do
  guard value.isRecord
  return {
    remoteCalls := ← finiteNonneg (value.get? "remoteCalls")
    nodes := ← finiteNonneg (value.get? "nodes")
    bytes := ← finiteNonneg (value.get? "bytes")
    wallTimeMs := ← finiteNonneg (value.get? "wallTimeMs")
    probeCalls := value.get? "probeCalls" }

inductive Status where
  | success | partialResult | error
  deriving DecidableEq, Repr

/-- An accepted envelope, with the two fields the budget reads of it. -/
structure Response where
  status : Status
  cost : WireCost
  envelope : Json
  deriving DecidableEq, Repr

def unsupported (message : String) : Thrown := securityError .unsupportedEnvironment message

def gapAccepted (gap : Json) : Bool :=
  gap.isRecord && ((gap.get? "code").bind Json.asString?).any (· ∈ gapCodes) &&
    ((gap.get? "resumable").bind Json.asBool?).isSome

/-- The `scan` progress of an enumeration page, checked against the page it came with. -/
def scanAccepted (value scan : Json) (objects : List Json) : Bool :=
  scan.isRecord && ((scan.get? "sourceGeneration").bind Json.asString?).isSome &&
    ["scannedCount", "matchedCount", "returnedCount", "nextOffset"].all (fun key => safeCount (scan.get? key)) &&
    (match scan.get? "upperBound" with
      | none => true
      | some upper => upper.isSafeInteger && decide (upper.asNumber?.getD 0 ≥
          ((scan.get? "nextOffset").bind Json.asNumber?).getD 0)) &&
    ((scan.get? "complete").bind Json.asBool?).isSome &&
    decide (scan.get? "returnedCount" = some (.num objects.length)) &&
    decide (scan.get? "complete" = some (.bool (value.get? "cursor").isNone))

/-- The checks of a `SUCCESS` or `PARTIAL` envelope. -/
def checkCollections (value : Json) (status : Status) : Except Thrown Unit := do
  let missing := unsupported "Helper v2 成功 Envelope 缺少集合字段"
  let objects ← orThrow ((value.get? "objects").bind Json.asArray?) missing
  let _ ← orThrow ((value.get? "edges").bind Json.asArray?) missing
  let gaps ← orThrow ((value.get? "gaps").bind Json.asArray?) missing
  require (gaps.all gapAccepted) (unsupported "Helper v2 返回非法 CoverageGap")
  require ((value.get? "scan").all (scanAccepted value · objects))
    (unsupported "Helper v2 返回非法 scan 进度")
  require (status != .partialResult || !gaps.isEmpty) (unsupported "PARTIAL 必须声明 CoverageGap")

/-- What an envelope of the given status still has to pass. -/
def checkStatus (value : Json) : Except Thrown Status :=
  match value.get? "status" with
  | some (.str "ERROR") => do
    require ((value.get? "error").any fun error =>
        error.isRecord && ((error.get? "code").bind Json.asString?).any (· ∈ errorCodes))
      (unsupported "Helper v2 返回未知错误码")
    return .error
  | some (.str "SUCCESS") => do checkCollections value .success; return .success
  | some (.str "PARTIAL") => do checkCollections value .partialResult; return .partialResult
  | _ => throw (unsupported "Helper v2 返回未知状态")

/-- `raw` is the parsed answer, `none` when it is no JSON. -/
def parseWireResponse (raw : Option Json) (expectedRequestId : String) : Except Thrown Response := do
  let value ← orThrow raw (unsupported "Helper v2 返回无效 JSON")
  require (value.isRecord && value.get? "protocolVersion" = some (.num 2) &&
      value.get? "requestId" = some (.str expectedRequestId))
    (unsupported "Helper v2 Envelope 身份不匹配")
  let cost ← orThrow ((value.get? "cost").bind isCost) (unsupported "Helper v2 Envelope 缺少合法 cost")
  let status ← checkStatus value
  return ⟨status, cost, value⟩

variable (c : Coercions)

/-- `(actual[key] ?? 0) > (bound[key] ?? 0)`. -/
def exceeds (actual bound : WireCost) (key : BudgetKey) : Bool :=
  Js.gt c (Js.orZero (actual.get key)) (Js.orZero (bound.get key))

def assertCostWithinReservation (actual reserved : WireCost) : Except Thrown Unit :=
  match BudgetKey.all.find? (exceeds c actual reserved) with
  | none => .ok ()
  | some key => .error (.security {
      code := .internalError
      message := s!"Helper 实际成本超过预算预留: {key.name}"
      details := [("actual", Js.orZero (actual.get key)), ("reserved", Js.orZero (reserved.get key))] })

variable {c}

theorem exceeds_iff {actual bound : WireCost} (ha : actual.Metered) (hb : bound.Metered)
    (key : BudgetKey) : exceeds c actual bound key = true ↔ bound.amount key < actual.amount key := by
  rw [exceeds, Js.gt_numeric (WireCost.numeric_get ha key) (WireCost.numeric_get hb key),
    decide_eq_true_iff]

theorem finiteNonneg_eq_some {value : Option Json} {q : ℚ} (h : finiteNonneg value = some q) :
    0 ≤ q := by
  unfold finiteNonneg at h
  split at h
  · split at h <;> simp_all
  · cases h

/-- The four checked keys of an accepted cost are nonnegative. -/
theorem isCost_nonneg {value : Json} {cost : WireCost} (h : isCost value = some cost) :
    0 ≤ cost.remoteCalls ∧ 0 ≤ cost.nodes ∧ 0 ≤ cost.bytes ∧ 0 ≤ cost.wallTimeMs := by
  simp only [isCost, Option.bind_eq_bind, Option.bind_eq_some_iff, Option.pure_def,
    Option.some.injEq] at h
  obtain ⟨_, _, _, h1, _, h2, _, h3, _, h4, rfl⟩ := h
  exact ⟨finiteNonneg_eq_some h1, finiteNonneg_eq_some h2, finiteNonneg_eq_some h3,
    finiteNonneg_eq_some h4⟩

/-- The cost of an accepted answer passed `isCost`. -/
theorem parseWireResponse_cost {raw : Option Json} {requestId : String} {r : Response}
    (h : parseWireResponse raw requestId = .ok r) :
    ∃ value, raw = some value ∧ (value.get? "cost").bind isCost = some r.cost := by
  simp only [parseWireResponse, bind_ok, orThrow_ok, require_ok, pure_ok] at h
  obtain ⟨value, hraw, _, _, cost, hcost, status, _, rfl⟩ := h
  exact ⟨value, hraw, hcost⟩

end Wire

end HuntWarden
