import HuntWarden.Common.Errors
import HuntWarden.Lib.Outcome
import HuntWarden.Lib.Table
import Mathlib.Algebra.Order.Ring.Rat
import Mathlib.Data.Rat.Defs

/-! The usage counters of the runtime store. A counter has a limit and what was used of it; consuming is
    one conditional update, refunding one that stops at zero. -/

namespace HuntWarden

open Outcome

structure CounterId where
  taskId : String
  epochId : String
  kind : String
  deriving DecidableEq, Repr

/-- A row of `usage_counters_v2`. -/
structure UsageCounter where
  id : CounterId
  limit : ℤ
  used : ℤ
  deriving DecidableEq, Repr

abbrev UsageStore := Table UsageCounter.id

/-- `Number.isSafeInteger(value)`, with the integer; `none` is `NaN`. -/
def safeInteger? (value : Option ℚ) : Option ℤ :=
  (value.filter fun q => q.den = 1 ∧ q.num.natAbs ≤ 9007199254740991).map (·.num)

/-- `Number.isSafeInteger(value) && value >= 0` -/
def safeAmount? (value : Option ℚ) : Option ℤ := (safeInteger? value).filter (0 ≤ ·)

namespace UsageStore

def initializeUsageCounter (s : UsageStore) (id : CounterId) (limit : Option ℚ) :
    Except Thrown UsageStore := do
  let limit ← orThrow (safeAmount? limit) (invalidArgument "Usage Counter limit 非法")
  return s.insertOrIgnore ⟨id, limit, 0⟩

def remainingUsage (s : UsageStore) (id : CounterId) : Except Thrown ℤ := do
  let row ← orThrow (s.get? id)
    (securityError .budgetExceeded s!"Usage Counter 尚未初始化: {id.kind}")
  return max 0 (row.limit - row.used)

def consumeUsage (s : UsageStore) (id : CounterId) (amount : Option ℚ) : Except Thrown UsageStore := do
  let amount ← orThrow (safeAmount? amount) (invalidArgument "Usage Counter amount 非法")
  let row ← orThrow ((s.get? id).filter fun row => row.used + amount ≤ row.limit)
    (securityError .budgetExceeded s!"预算不足: {id.kind}")
  return s.set { row with used := row.used + amount }

def refundUsage (s : UsageStore) (id : CounterId) (amount : Option ℚ) : Except Thrown UsageStore := do
  let amount ← orThrow (safeAmount? amount) (invalidArgument "Usage Counter refund amount 非法")
  let row ← orThrow (s.get? id)
    (securityError .internalError s!"Usage Counter 不存在: {id.kind}")
  return s.set { row with used := max 0 (row.used - amount) }

/-- What is used of a counter, 0 while there is none. -/
def used (s : UsageStore) (id : CounterId) : ℤ := (s.get? id).elim 0 (·.used)

/-- The limit of a counter, 0 while there is none. -/
def limit (s : UsageStore) (id : CounterId) : ℤ := (s.get? id).elim 0 (·.limit)

/-- Every counter is between zero and its limit. -/
def Bounded (s : UsageStore) : Prop := ∀ row ∈ s.rows, 0 ≤ row.used ∧ row.used ≤ row.limit

/-! ### What the statements do -/

variable {s s' : UsageStore} {id : CounterId} {amount : Option ℚ}

theorem safeAmount?_eq_some {n : ℤ} :
    safeAmount? amount = some n ↔ amount = some (n : ℚ) ∧ 0 ≤ n ∧ n ≤ 9007199254740991 := by
  rw [safeAmount?, safeInteger?]
  constructor
  · intro h
    obtain ⟨hmap, hnonneg⟩ := Option.filter_eq_some_iff.1 h
    obtain ⟨q, hq, rfl⟩ := Option.map_eq_some_iff.1 hmap
    obtain ⟨rfl, hsafe⟩ := Option.filter_eq_some_iff.1 hq
    obtain ⟨hden, habs⟩ := of_decide_eq_true hsafe
    have hnum := of_decide_eq_true hnonneg
    refine ⟨?_, hnum, by omega⟩
    rw [Rat.coe_int_num_of_den_eq_one hden]
  · rintro ⟨rfl, hnonneg, hle⟩
    have habs : n.natAbs ≤ 9007199254740991 := by omega
    simp [Option.filter, Rat.num_intCast, Rat.den_intCast, habs, hnonneg]

theorem consumeUsage_ok (h : s.consumeUsage id amount = .ok s') : ∃ (n : ℤ) (row : UsageCounter),
    amount = some (n : ℚ) ∧ 0 ≤ n ∧ s.get? id = some row ∧ row.used + n ≤ row.limit ∧
      s' = s.set { row with used := row.used + n } := by
  obtain ⟨n, hn, h⟩ := bind_ok.1 h
  obtain ⟨hamount, hnonneg, -⟩ := safeAmount?_eq_some.1 (orThrow_ok.1 hn)
  obtain ⟨row, hrow, h⟩ := bind_ok.1 h
  obtain ⟨hget, hfits⟩ := Option.filter_eq_some_iff.1 (orThrow_ok.1 hrow)
  exact ⟨n, row, hamount, hnonneg, hget, of_decide_eq_true hfits, (pure_ok.1 h).symm⟩

theorem refundUsage_ok (h : s.refundUsage id amount = .ok s') : ∃ (n : ℤ) (row : UsageCounter),
    amount = some (n : ℚ) ∧ 0 ≤ n ∧ s.get? id = some row ∧
      s' = s.set { row with used := max 0 (row.used - n) } := by
  obtain ⟨n, hn, h⟩ := bind_ok.1 h
  obtain ⟨hamount, hnonneg, -⟩ := safeAmount?_eq_some.1 (orThrow_ok.1 hn)
  obtain ⟨row, hrow, h⟩ := bind_ok.1 h
  exact ⟨n, row, hamount, hnonneg, orThrow_ok.1 hrow, (pure_ok.1 h).symm⟩

theorem initializeUsageCounter_ok (h : s.initializeUsageCounter id amount = .ok s') :
    ∃ limit : ℤ, 0 ≤ limit ∧ s' = s.insertOrIgnore ⟨id, limit, 0⟩ := by
  obtain ⟨limit, hlimit, h⟩ := bind_ok.1 h
  exact ⟨limit, (safeAmount?_eq_some.1 (orThrow_ok.1 hlimit)).2.1, (pure_ok.1 h).symm⟩

/-! ### Counters stay within their limits -/

theorem bounded_empty : Bounded .empty := fun _ h => absurd h List.not_mem_nil

theorem Bounded.set {row : UsageCounter} (hs : s.Bounded) (hrow : 0 ≤ row.used ∧ row.used ≤ row.limit) :
    UsageStore.Bounded (s.set row) := by
  intro row' h
  rcases Table.mem_set.1 h with ⟨rfl, -⟩ | ⟨hmem, -⟩
  · exact hrow
  · exact hs row' hmem

theorem Bounded.get? {row : UsageCounter} (hs : s.Bounded) (h : s.get? id = some row) :
    0 ≤ row.used ∧ row.used ≤ row.limit :=
  hs row (Table.get?_eq_some.1 h).1

theorem Bounded.initializeUsageCounter (hs : s.Bounded)
    (h : s.initializeUsageCounter id amount = .ok s') : s'.Bounded := by
  obtain ⟨limit, hlimit, rfl⟩ := initializeUsageCounter_ok h
  intro row hrow
  rcases Table.mem_insertOrIgnore hrow with hmem | ⟨rfl, -⟩
  · exact hs row hmem
  · exact ⟨Int.le_refl 0, hlimit⟩

theorem Bounded.consumeUsage (hs : s.Bounded) (h : s.consumeUsage id amount = .ok s') :
    s'.Bounded := by
  obtain ⟨n, row, -, hn, hrow, hfits, rfl⟩ := consumeUsage_ok h
  exact hs.set ⟨Int.add_nonneg (hs.get? hrow).1 hn, hfits⟩

theorem Bounded.refundUsage (hs : s.Bounded) (h : s.refundUsage id amount = .ok s') : s'.Bounded := by
  obtain ⟨n, row, -, hn, hrow, rfl⟩ := refundUsage_ok h
  obtain ⟨hnonneg, hle⟩ := hs.get? hrow
  refine hs.set ⟨Int.le_max_left _ _, ?_⟩
  show max 0 (row.used - n) ≤ row.limit
  omega

theorem Bounded.used_le (hs : s.Bounded) (id : CounterId) : 0 ≤ s.used id ∧ s.used id ≤ s.limit id := by
  rw [used, limit]
  cases h : s.get? id with
  | none => exact ⟨Int.le_refl 0, Int.le_refl 0⟩
  | some row => exact hs.get? h

/-! ### What is used afterwards -/

theorem used_of_get? {row : UsageCounter} (h : s.get? id = some row) : s.used id = row.used := by
  rw [used, h]
  rfl

theorem used_set {row : UsageCounter} (hrow : s.get? id = some row) (n : ℤ) (other : CounterId) :
    used (s.set { row with used := n }) other = if other = id then n else s.used other := by
  obtain ⟨hmem, rfl⟩ := Table.get?_eq_some.1 hrow
  by_cases hother : other = row.id
  · subst hother
    rw [if_pos rfl]
    have hset : Table.get? (s.set { row with used := n }) row.id = some { row with used := n } :=
      Table.get?_set_self ⟨row, hmem, rfl⟩
    exact used_of_get? hset
  · have hset : Table.get? (s.set { row with used := n }) other = s.get? other :=
      Table.get?_set_of_ne hother
    rw [if_neg hother, used, used, hset]

theorem used_consumeUsage (h : s.consumeUsage id amount = .ok s') : ∃ n : ℤ,
    amount = some (n : ℚ) ∧ 0 ≤ n ∧ s.used id + n ≤ s.limit id ∧
      ∀ other, s'.used other = if other = id then s.used id + n else s.used other := by
  obtain ⟨n, row, hamount, hn, hrow, hfits, rfl⟩ := consumeUsage_ok h
  refine ⟨n, hamount, hn, ?_, fun other => ?_⟩
  · rw [used_of_get? hrow, limit, hrow]
    exact hfits
  · rw [used_set hrow, used_of_get? hrow]

theorem used_refundUsage (h : s.refundUsage id amount = .ok s') : ∃ n : ℤ,
    amount = some (n : ℚ) ∧ 0 ≤ n ∧
      ∀ other, s'.used other = if other = id then max 0 (s.used id - n) else s.used other := by
  obtain ⟨n, row, hamount, hn, hrow, rfl⟩ := refundUsage_ok h
  refine ⟨n, hamount, hn, fun other => ?_⟩
  rw [used_set hrow, used_of_get? hrow]

theorem used_initializeUsageCounter (h : s.initializeUsageCounter id amount = .ok s')
    (other : CounterId) : s'.used other = s.used other := by
  obtain ⟨limit, -, rfl⟩ := initializeUsageCounter_ok h
  rw [used, used]
  cases hget : s.get? other with
  | some row =>
    obtain ⟨hmem, hid⟩ := Table.get?_eq_some.1 hget
    rw [Table.get?_eq_some.2 ⟨Table.mem_insertOrIgnore_of_mem hmem, hid⟩]
  | none =>
    cases hget' : Table.get? (s.insertOrIgnore ⟨id, limit, 0⟩) other with
    | none => rfl
    | some row =>
      obtain ⟨hmem, hid⟩ := Table.get?_eq_some.1 hget'
      rcases Table.mem_insertOrIgnore hmem with hmem | ⟨rfl, -⟩
      · exact absurd hid (Table.get?_eq_none.1 hget row hmem)
      · rfl

/-! ### No counter is removed -/

theorem isSome_get? : (s.get? id).isSome ↔ ∃ row ∈ s.rows, row.id = id := by
  rw [Option.isSome_iff_exists]
  exact exists_congr fun row => Table.get?_eq_some

theorem isSome_set (row' : UsageCounter) (other : CounterId) (h : (s.get? other).isSome) :
    (Table.get? (s.set row') other).isSome := by
  obtain ⟨kept, hmem, rfl⟩ := isSome_get?.1 h
  refine isSome_get?.2 ?_
  by_cases hkey : kept.id = row'.id
  · exact ⟨row', Table.mem_set.2 (Or.inl ⟨rfl, kept, hmem, hkey⟩), hkey.symm⟩
  · exact ⟨kept, Table.mem_set.2 (Or.inr ⟨hmem, hkey⟩), rfl⟩

theorem isSome_consumeUsage (h : s.consumeUsage id amount = .ok s') (other : CounterId)
    (hother : (s.get? other).isSome) : (s'.get? other).isSome := by
  obtain ⟨n, row, -, -, hrow, -, rfl⟩ := consumeUsage_ok h
  exact isSome_set _ other hother

theorem isSome_refundUsage (h : s.refundUsage id amount = .ok s') (other : CounterId)
    (hother : (s.get? other).isSome) : (s'.get? other).isSome := by
  obtain ⟨n, row, -, -, hrow, rfl⟩ := refundUsage_ok h
  exact isSome_set _ other hother

theorem isSome_initializeUsageCounter (h : s.initializeUsageCounter id amount = .ok s')
    (other : CounterId) (hother : (s.get? other).isSome) : (s'.get? other).isSome := by
  obtain ⟨limit, -, rfl⟩ := initializeUsageCounter_ok h
  obtain ⟨row, hmem, hrow⟩ := isSome_get?.1 hother
  exact isSome_get?.2 ⟨row, Table.mem_insertOrIgnore_of_mem hmem, hrow⟩

end UsageStore

end HuntWarden
