import HuntWarden.Lib.Ledger
import HuntWarden.Lib.Table
import HuntWarden.Protocol.Wire
import Mathlib.Algebra.BigOperators.Pi
import Mathlib.Algebra.Order.Pi

/-! The budget tables of the runtime store. An account holds limits, used and reserved costs; a
    reservation holds its estimate and, once settled, the actual cost. `ledgerOf` reads one account
    and its reservations as an abstract `Ledger`, and each successful write is then one `Step` of
    that ledger (`reserveBudget_refines`, `settleBudget_refines`). -/

namespace HuntWarden

open Outcome Wire

inductive BudgetOwner where
  | preset | model | discovery
  deriving DecidableEq, Repr

structure AccountId where
  taskId : String
  epochId : String
  owner : BudgetOwner
  deriving DecidableEq, Repr

/-- A row of `budget_accounts_v2`. -/
structure BudgetAccount where
  id : AccountId
  limits : WireCost
  used : WireCost
  reserved : WireCost
  deriving DecidableEq, Repr

inductive ReservationStatus where
  | reserved | settled
  deriving DecidableEq, Repr

/-- A row of `budget_reservations_v2`. -/
structure Reservation where
  reservationId : String
  account : AccountId
  status : ReservationStatus
  estimate : WireCost
  actual : Option WireCost
  deriving DecidableEq, Repr

structure BudgetStore where
  accounts : Table BudgetAccount.id
  reservations : Table Reservation.reservationId

namespace BudgetStore

def empty : BudgetStore := ⟨.empty, .empty⟩

/-- A cost whose every key is a number, none of them negative: what the configuration allows as
    limits and the tools declare as estimates. -/
structure Quota where
  cost : WireCost
  metered : cost.Metered
  nonneg : 0 ≤ cost.amount

def zeroCost : WireCost := ⟨0, 0, 0, 0, some (.num 0)⟩

variable (c : Coercions)

def addCost (left right : WireCost) : WireCost where
  remoteCalls := left.remoteCalls + right.remoteCalls
  nodes := left.nodes + right.nodes
  bytes := left.bytes + right.bytes
  wallTimeMs := left.wallTimeMs + right.wallTimeMs
  probeCalls := some (Js.add c (Js.orZero left.probeCalls) (Js.orZero right.probeCalls))

def subtractCost (left right : WireCost) : WireCost where
  remoteCalls := max 0 (left.remoteCalls - right.remoteCalls)
  nodes := max 0 (left.nodes - right.nodes)
  bytes := max 0 (left.bytes - right.bytes)
  wallTimeMs := max 0 (left.wallTimeMs - right.wallTimeMs)
  probeCalls := some (Js.subClamped c (Js.orZero left.probeCalls) (Js.orZero right.probeCalls))

def initializeBudget (s : BudgetStore) (id : AccountId) (limits : WireCost) : BudgetStore :=
  { s with accounts := s.accounts.insertOrIgnore ⟨id, limits, zeroCost, zeroCost⟩ }

/-- `(used[key] ?? 0) + (reserved[key] ?? 0) + (estimate[key] ?? 0) > (limits[key] ?? 0)`. -/
def overdraws (row : BudgetAccount) (estimate : WireCost) (key : BudgetKey) : Bool :=
  Js.gt c
    (Js.add c (Js.add c (Js.orZero (row.used.get key)) (Js.orZero (row.reserved.get key)))
      (Js.orZero (estimate.get key)))
    (Js.orZero (row.limits.get key))

/-- The first key in `budgetKeys` order that fails a check, as the error that names it. -/
def refuse (fails : BudgetKey → Bool) (error : BudgetKey → Thrown) : Except Thrown Unit :=
  match BudgetKey.all.find? fails with
  | none => .ok ()
  | some key => .error (error key)

def reserveBudget (s : BudgetStore) (reservationId : String) (id : AccountId) (estimate : WireCost) :
    Except Thrown BudgetStore := do
  let row ← orThrow (s.accounts.get? id) (securityError .budgetExceeded "预算账户尚未初始化")
  refuse (overdraws c row estimate)
    fun key => securityError .budgetExceeded s!"预算不足: {key.name}"
  let reservations ← orThrow
    (s.reservations.insert? ⟨reservationId, id, .reserved, estimate, none⟩)
    (uniqueConstraint "budget_reservations_v2.reservation_id")
  return {
    accounts := s.accounts.set { row with reserved := addCost c row.reserved estimate }
    reservations }

def settleBudget (s : BudgetStore) (reservationId : String) (actual : WireCost) :
    Except Thrown BudgetStore := do
  let unknown := invalidArgument "未知或已结算预算预留"
  let reservation ← orThrow (s.reservations.get? reservationId) unknown
  require (reservation.status == .reserved) unknown
  refuse (exceeds c actual reservation.estimate)
    fun key => securityError .internalError s!"实际成本超过预留: {key.name}"
  let row ← orThrow (s.accounts.get? reservation.account)
    (.native "Cannot read properties of undefined (reading 'reserved_json')")
  return {
    accounts := s.accounts.set { row with
      used := addCost c row.used actual
      reserved := subtractCost c row.reserved reservation.estimate }
    reservations := s.reservations.set
      { reservation with status := .settled, actual := some actual } }

/-! ### What the arithmetic does to amounts -/

variable {c}

theorem probeCalls_addCost {l r : WireCost} (hl : l.Metered) (hr : r.Metered) :
    (addCost c l r).probeCalls = some (.num (l.amount .probeCalls + r.amount .probeCalls)) :=
  congrArg some (Js.add_numeric (WireCost.numeric_get hl .probeCalls)
    (WireCost.numeric_get hr .probeCalls))

theorem metered_addCost {l r : WireCost} (hl : l.Metered) (hr : r.Metered) :
    (addCost c l r).Metered :=
  WireCost.metered_of_num (probeCalls_addCost hl hr)

theorem amount_addCost {l r : WireCost} (hl : l.Metered) (hr : r.Metered) :
    (addCost c l r).amount = l.amount + r.amount := by
  funext key
  cases key with
  | probeCalls => exact WireCost.amount_of_num (probeCalls_addCost hl hr)
  | _ => rfl

theorem probeCalls_subtractCost {l r : WireCost} (hl : l.Metered) (hr : r.Metered) :
    (subtractCost c l r).probeCalls =
      some (.num (max 0 (l.amount .probeCalls - r.amount .probeCalls))) :=
  congrArg some (Js.subClamped_numeric (WireCost.numeric_get hl .probeCalls)
    (WireCost.numeric_get hr .probeCalls))

theorem metered_subtractCost {l r : WireCost} (hl : l.Metered) (hr : r.Metered) :
    (subtractCost c l r).Metered :=
  WireCost.metered_of_num (probeCalls_subtractCost hl hr)

/-- Above zero the clamp of `subtractCost` does nothing. -/
theorem amount_subtractCost {l r : WireCost} (hl : l.Metered) (hr : r.Metered)
    (hle : r.amount ≤ l.amount) : (subtractCost c l r).amount = l.amount - r.amount := by
  funext key
  have hkey : max 0 (l.amount key - r.amount key) = l.amount key - r.amount key :=
    max_eq_right (sub_nonneg.2 (hle key))
  cases key with
  | probeCalls => exact (WireCost.amount_of_num (probeCalls_subtractCost hl hr)).trans hkey
  | _ => exact hkey

theorem overdraws_iff {row : BudgetAccount} {estimate : WireCost} (hu : row.used.Metered)
    (hr : row.reserved.Metered) (hl : row.limits.Metered) (he : estimate.Metered)
    (key : BudgetKey) : overdraws c row estimate key = true ↔
      row.limits.amount key < row.used.amount key + row.reserved.amount key + estimate.amount key := by
  have hur := Js.add_numeric (c := c) (WireCost.numeric_get hu key) (WireCost.numeric_get hr key)
  have hsum := Js.add_numeric (c := c)
    (a := .num (row.used.amount key + row.reserved.amount key)) rfl (WireCost.numeric_get he key)
  rw [overdraws, hur, hsum, Js.gt_numeric rfl (WireCost.numeric_get hl key), decide_eq_true_iff]

theorem refuse_ok {fails : BudgetKey → Bool} {error : BudgetKey → Thrown} {u : Unit} :
    refuse fails error = .ok u ↔ ∀ key, fails key = false := by
  unfold refuse
  cases h : BudgetKey.all.find? fails with
  | none =>
    simp only [true_iff]
    exact fun key => by simpa using List.find?_eq_none.1 h key (BudgetKey.mem_all key)
  | some key =>
    simp only [reduceCtorEq, false_iff]
    exact fun hall => by simpa [hall key] using List.find?_some h

/-! ### What each successful write does -/

theorem reserveBudget_ok {s s' : BudgetStore} {rid : String} {id : AccountId} {estimate : WireCost}
    (h : reserveBudget c s rid id estimate = .ok s') :
    ∃ row ∈ s.accounts.rows, row.id = id ∧ (∀ key, overdraws c row estimate key = false) ∧
      (∀ r ∈ s.reservations.rows, r.reservationId ≠ rid) ∧
      s'.accounts = s.accounts.set { row with reserved := addCost c row.reserved estimate } ∧
      s'.reservations.rows = s.reservations.rows ++ [⟨rid, id, .reserved, estimate, none⟩] := by
  simp only [reserveBudget, bind_ok, orThrow_ok, refuse_ok, pure_ok] at h
  obtain ⟨row, hrow, _, hfits, reservations, hins, rfl⟩ := h
  obtain ⟨hmem, hid⟩ := Table.get?_eq_some.1 hrow
  obtain ⟨hfresh, hrows⟩ := Table.insert?_eq_some hins
  exact ⟨row, hmem, hid, hfits, hfresh, rfl, hrows⟩

theorem settleBudget_ok {s s' : BudgetStore} {rid : String} {actual : WireCost}
    (h : settleBudget c s rid actual = .ok s') :
    ∃ r ∈ s.reservations.rows, ∃ row ∈ s.accounts.rows,
      r.reservationId = rid ∧ r.status = .reserved ∧ row.id = r.account ∧
      (∀ key, exceeds c actual r.estimate key = false) ∧
      s'.accounts = s.accounts.set { row with
        used := addCost c row.used actual, reserved := subtractCost c row.reserved r.estimate } ∧
      s'.reservations = s.reservations.set { r with status := .settled, actual := some actual } := by
  simp only [settleBudget, bind_ok, orThrow_ok, require_ok, refuse_ok, pure_ok] at h
  obtain ⟨r, hr, _, hstatus, _, hwithin, row, hrow, rfl⟩ := h
  obtain ⟨hmem, hid⟩ := Table.get?_eq_some.1 hr
  obtain ⟨hmem', hid'⟩ := Table.get?_eq_some.1 hrow
  exact ⟨r, hmem, row, hmem', hid, by simpa using hstatus, hid', hwithin, rfl, rfl⟩

/-! ### An account as a ledger -/

def heldEntry (id : AccountId) (r : Reservation) : Option (String × (BudgetKey → ℚ)) :=
  if r.account = id ∧ r.status = .reserved then some (r.reservationId, r.estimate.amount) else none

def settledEntry (id : AccountId) (r : Reservation) : Option (String × (BudgetKey → ℚ)) :=
  if r.account = id ∧ r.status = .settled then
    r.actual.map fun actual => (r.reservationId, actual.amount)
  else none

/-- The open reservations of an account, with their estimates. -/
def heldEntries (id : AccountId) (rows : Multiset Reservation) : Multiset (String × (BudgetKey → ℚ)) :=
  rows.filterMap (heldEntry id)

/-- The settled reservations of an account, with their actual costs. -/
def settledEntries (id : AccountId) (rows : Multiset Reservation) :
    Multiset (String × (BudgetKey → ℚ)) :=
  rows.filterMap (settledEntry id)

theorem heldEntries_cons {id : AccountId} {r : Reservation} (rows : Multiset Reservation)
    (hid : r.account = id) (hstatus : r.status = .reserved) :
    heldEntries id (r ::ₘ rows) = (r.reservationId, r.estimate.amount) ::ₘ heldEntries id rows :=
  Multiset.filterMap_cons_some _ _ _ (if_pos ⟨hid, hstatus⟩)

theorem heldEntries_cons_other {id : AccountId} {r : Reservation} (rows : Multiset Reservation)
    (h : ¬(r.account = id ∧ r.status = .reserved)) :
    heldEntries id (r ::ₘ rows) = heldEntries id rows :=
  Multiset.filterMap_cons_none _ _ (if_neg h)

theorem settledEntries_cons {id : AccountId} {r : Reservation} {actual : WireCost}
    (rows : Multiset Reservation) (hid : r.account = id) (hstatus : r.status = .settled)
    (hactual : r.actual = some actual) :
    settledEntries id (r ::ₘ rows) = (r.reservationId, actual.amount) ::ₘ settledEntries id rows :=
  Multiset.filterMap_cons_some _ _ _ (by rw [settledEntry, if_pos ⟨hid, hstatus⟩, hactual]; rfl)

theorem settledEntries_cons_other {id : AccountId} {r : Reservation} (rows : Multiset Reservation)
    (h : ¬(r.account = id ∧ r.status = .settled)) :
    settledEntries id (r ::ₘ rows) = settledEntries id rows :=
  Multiset.filterMap_cons_none _ _ (if_neg h)

def ledgerOf (s : BudgetStore) (row : BudgetAccount) : Ledger String (BudgetKey → ℚ) where
  limit := row.limits.amount
  used := row.used.amount
  reserved := row.reserved.amount
  held := heldEntries row.id s.reservations.rows
  settled := settledEntries row.id s.reservations.rows

/-- Every number the store does arithmetic with is one, and no reservation lacks its account. -/
structure Metered (s : BudgetStore) : Prop where
  account : ∀ row ∈ s.accounts.rows, row.limits.Metered ∧ row.used.Metered ∧ row.reserved.Metered
  estimate : ∀ r ∈ s.reservations.rows, r.estimate.Metered
  actual : ∀ r ∈ s.reservations.rows, r.status = .settled → ∃ cost, r.actual = some cost
  hasAccount : ∀ r ∈ s.reservations.rows, ∃ row ∈ s.accounts.rows, row.id = r.account

theorem id_notMem_ledger {s : BudgetStore} {row : BudgetAccount} {rid : String}
    (h : ∀ r ∈ s.reservations.rows, r.reservationId ≠ rid) :
    rid ∉ ((ledgerOf s row).held + (ledgerOf s row).settled).map Prod.fst := by
  simp only [ledgerOf, heldEntries, settledEntries, Multiset.mem_map, Multiset.mem_add,
    Multiset.mem_filterMap,
    Multiset.mem_coe, not_exists, not_and]
  rintro ⟨id, v⟩ (⟨r, hr, he⟩ | ⟨r, hr, he⟩) rfl
  · simp only [heldEntry] at he
    split at he <;> simp_all
  · simp only [settledEntry] at he
    split at he
    · obtain ⟨cost, _, he⟩ := Option.map_eq_some_iff.1 he
      cases he; exact h r hr rfl
    · cases he

/-- A write moves the ledger of one account and creates at most a fresh one. -/
structure Refines (s s' : BudgetStore) : Prop where
  kept : ∀ row ∈ s.accounts.rows, ∃ row' ∈ s'.accounts.rows,
    row'.id = row.id ∧ Ledger.Moves (ledgerOf s row) (ledgerOf s' row')
  origin : ∀ row' ∈ s'.accounts.rows, (∃ row ∈ s.accounts.rows, row.id = row'.id) ∨
    0 ≤ row'.limits.amount ∧ ledgerOf s' row' = Ledger.opening row'.limits.amount

theorem Refines.refl (s : BudgetStore) : Refines s s :=
  ⟨fun row h => ⟨row, h, rfl, .refl⟩, fun row h => Or.inl ⟨row, h, rfl⟩⟩

/-- Rewriting the row of one account, whose ledger steps, and touching no other ledger. -/
theorem refines_set {s s' : BudgetStore} {row row' : BudgetAccount} (hrow : row ∈ s.accounts.rows)
    (hacc : s'.accounts = s.accounts.set row') (hid : row'.id = row.id)
    (hstep : Ledger.Step (ledgerOf s row) (ledgerOf s' row'))
    (hother : ∀ x ∈ s.accounts.rows, x.id ≠ row.id → ledgerOf s' x = ledgerOf s x) :
    Refines s s' := by
  have hself : row' ∈ s'.accounts.rows := by
    rw [hacc, Table.mem_set]; exact Or.inl ⟨rfl, row, hrow, hid.symm⟩
  refine ⟨fun x hx => ?_, fun x hx => Or.inl ?_⟩
  · by_cases hxid : x.id = row.id
    · obtain rfl := s.accounts.eq_of_key hx hrow hxid
      exact ⟨row', hself, hid, .single hstep⟩
    · refine ⟨x, ?_, rfl, ?_⟩
      · rw [hacc, Table.mem_set]; exact Or.inr ⟨hx, hid ▸ hxid⟩
      · rw [hother x hx hxid]
  · rw [hacc, Table.mem_set] at hx
    rcases hx with ⟨rfl, _⟩ | ⟨hx, _⟩
    · exact ⟨row, hrow, hid.symm⟩
    · exact ⟨x, hx, rfl⟩

theorem reserveBudget_refines {s s' : BudgetStore} {rid : String} {id : AccountId}
    {estimate : WireCost} (hm : Metered s) (he : estimate.Metered) (hnonneg : 0 ≤ estimate.amount)
    (h : reserveBudget c s rid id estimate = .ok s') : Refines s s' := by
  obtain ⟨row, hrow, rfl, hfits, hfresh, hacc, hrows⟩ := reserveBudget_ok h
  obtain ⟨hlimits, hused, hreserved⟩ := hm.account row hrow
  have hrows' : (s'.reservations.rows : Multiset Reservation) =
      ⟨rid, row.id, .reserved, estimate, none⟩ ::ₘ (s.reservations.rows : Multiset Reservation) := by
    rw [hrows, Multiset.cons_coe, Multiset.coe_eq_coe]
    exact List.perm_append_singleton _ _
  refine refines_set hrow hacc rfl ?_ fun x _ hx => ?_
  · have hfits' : (ledgerOf s row).used + (ledgerOf s row).reserved + estimate.amount ≤
        (ledgerOf s row).limit := fun key => not_lt.1 fun hlt => by
      simpa [hfits key] using (overdraws_iff (c := c) hused hreserved hlimits he key).2 hlt
    have hledger : ledgerOf s' { row with reserved := addCost c row.reserved estimate } =
        { ledgerOf s row with
          reserved := row.reserved.amount + estimate.amount
          held := (rid, estimate.amount) ::ₘ (ledgerOf s row).held } := by
      rw [ledgerOf, hrows', amount_addCost hreserved he, heldEntries_cons _ (by rfl) (by rfl),
        settledEntries_cons_other _ (by simp)]
      rfl
    rw [hledger]
    exact .reserve rid estimate.amount (id_notMem_ledger hfresh) hnonneg hfits'
  · rw [ledgerOf, hrows', heldEntries_cons_other _ fun h => hx h.1.symm,
      settledEntries_cons_other _ fun h => hx h.1.symm]
    rfl

theorem settleBudget_refines {s s' : BudgetStore} {rid : String} {actual : WireCost}
    (hm : Metered s) (hle : ∀ row ∈ s.accounts.rows, (ledgerOf s row).Balanced)
    (ha : actual.Metered) (hnonneg : 0 ≤ actual.amount)
    (h : settleBudget c s rid actual = .ok s') : Refines s s' := by
  obtain ⟨r, hr, row, hrow, rfl, hstatus, hid, hwithin, hacc, hres⟩ := settleBudget_ok h
  obtain ⟨hlimits, hused, hreserved⟩ := hm.account row hrow
  have hestimate := hm.estimate r hr
  obtain ⟨rest, hrows, hrows'⟩ := s.reservations.rows_set_multiset hr
    (show ({ r with status := .settled, actual := some actual } : Reservation).reservationId = _
      from rfl)
  rw [← hres] at hrows'
  have hheld : (ledgerOf s row).held =
      (r.reservationId, r.estimate.amount) ::ₘ heldEntries row.id rest := by
    rw [ledgerOf, hrows]; exact heldEntries_cons _ hid.symm hstatus
  have hsettled : (ledgerOf s row).settled = settledEntries row.id rest := by
    rw [ledgerOf, hrows]; exact settledEntries_cons_other _ (by simp [hstatus])
  have hwithin' : actual.amount ≤ r.estimate.amount := fun key => not_lt.1 fun hlt => by
    simpa [hwithin key] using (exceeds_iff (c := c) ha hestimate key).2 hlt
  have hcovered : r.estimate.amount ≤ row.reserved.amount := by
    have hb := hle row hrow
    have hsum : row.reserved.amount = ((ledgerOf s row).held.map Prod.snd).sum := hb.reserved_eq
    rw [hsum]
    refine Multiset.single_le_sum (fun v hv => ?_) _ (Multiset.mem_map.2 ⟨_, by
      rw [hheld]; exact Multiset.mem_cons_self _ _, rfl⟩)
    obtain ⟨entry, hentry, rfl⟩ := Multiset.mem_map.1 hv
    exact hb.held_nonneg entry hentry
  refine refines_set hrow hacc rfl ?_ fun x _ hx => ?_
  · have hledger : ledgerOf s' { row with
          used := addCost c row.used actual, reserved := subtractCost c row.reserved r.estimate } =
        { ledgerOf s row with
          used := row.used.amount + actual.amount
          reserved := row.reserved.amount - r.estimate.amount
          held := heldEntries row.id rest
          settled := (r.reservationId, actual.amount) ::ₘ (ledgerOf s row).settled } := by
      rw [hsettled, ledgerOf, hrows', amount_addCost hused ha,
        amount_subtractCost hreserved hestimate hcovered,
        heldEntries_cons_other _ (by simp), settledEntries_cons _ (by exact hid.symm) (by rfl) (by rfl)]
      rfl
    rw [hledger]
    exact .settle r.reservationId r.estimate.amount actual.amount _ hheld hnonneg hwithin'
  · have hne : r.account ≠ x.id := fun h => hx (h.symm.trans hid.symm)
    rw [ledgerOf, hrows', heldEntries_cons_other _ (by exact fun h => hne h.1),
      settledEntries_cons_other _ (by exact fun h => hne h.1), ledgerOf, hrows,
      heldEntries_cons_other _ fun h => hne h.1, settledEntries_cons_other _ fun h => hne h.1]

/-! ### The entries of an account, read off the reservation rows -/

/-- The estimates of the reservations of an account that are still RESERVED. -/
def openEstimates (s : BudgetStore) (id : AccountId) (key : BudgetKey) : List ℚ :=
  (s.reservations.rows.filter fun r => r.account = id ∧ r.status = .reserved).map
    fun r => r.estimate.amount key

/-- The actual costs of the reservations of an account that are SETTLED. -/
def settledCosts (s : BudgetStore) (id : AccountId) (key : BudgetKey) : List ℚ :=
  (s.reservations.rows.filter fun r => r.account = id ∧ r.status = .settled).filterMap
    fun r => r.actual.map fun actual => actual.amount key

theorem sum_heldEntries (id : AccountId) (key : BudgetKey) : ∀ rows : List Reservation,
    ((heldEntries id (rows : Multiset Reservation)).map Prod.snd).sum key =
      ((rows.filter fun r => r.account = id ∧ r.status = .reserved).map
        fun r => r.estimate.amount key).sum
  | [] => by simp [heldEntries]
  | r :: rows => by
      rw [← Multiset.cons_coe]
      by_cases h : r.account = id ∧ r.status = .reserved
      · rw [heldEntries_cons _ h.1 h.2, Multiset.map_cons, Multiset.sum_cons, Pi.add_apply,
          sum_heldEntries id key rows, List.filter_cons_of_pos (by simpa using h)]
        rfl
      · rw [heldEntries_cons_other _ h, sum_heldEntries id key rows,
          List.filter_cons_of_neg (by simpa using h)]

theorem sum_settledEntries (id : AccountId) (key : BudgetKey) : ∀ rows : List Reservation,
    ((settledEntries id (rows : Multiset Reservation)).map Prod.snd).sum key =
      ((rows.filter fun r => r.account = id ∧ r.status = .settled).filterMap
        fun r => r.actual.map fun actual => actual.amount key).sum
  | [] => by simp [settledEntries]
  | r :: rows => by
      rw [← Multiset.cons_coe]
      by_cases h : r.account = id ∧ r.status = .settled
      · rw [List.filter_cons_of_pos (by simpa using h)]
        cases hactual : r.actual with
        | none =>
          rw [show settledEntries id (r ::ₘ ↑rows) = settledEntries id ↑rows from
            Multiset.filterMap_cons_none _ _ (by rw [settledEntry, if_pos h, hactual]; rfl),
            sum_settledEntries id key rows, List.filterMap_cons_none (by rw [hactual]; rfl)]
        | some actual =>
          rw [settledEntries_cons _ h.1 h.2 hactual, Multiset.map_cons, Multiset.sum_cons,
            Pi.add_apply, sum_settledEntries id key rows,
            List.filterMap_cons_some (by rw [hactual]; rfl)]
          rfl
      · rw [settledEntries_cons_other _ h, sum_settledEntries id key rows,
          List.filter_cons_of_neg (by simpa using h)]

/-! ### The invariant -/

/-- What holds in every store the budget operations build. -/
structure Sound (s : BudgetStore) : Prop extends Metered s where
  balanced : ∀ row ∈ s.accounts.rows, (ledgerOf s row).Balanced

/-- A sound store's totals are the sums of its reservation rows, within the limit of each key. -/
theorem Sound.totals {s : BudgetStore} (h : Sound s) {row : BudgetAccount}
    (hrow : row ∈ s.accounts.rows) (key : BudgetKey) :
    0 ≤ row.used.amount key ∧
      row.used.amount key + row.reserved.amount key ≤ row.limits.amount key ∧
      row.reserved.amount key = (openEstimates s row.id key).sum ∧
      row.used.amount key = (settledCosts s row.id key).sum := by
  have hb := h.balanced row hrow
  refine ⟨hb.used_nonneg key, hb.within_limit key, ?_, ?_⟩
  · exact (congrFun hb.reserved_eq key).trans (sum_heldEntries row.id key s.reservations.rows)
  · exact (congrFun hb.used_eq key).trans (sum_settledEntries row.id key s.reservations.rows)

theorem sound_empty : Sound empty where
  account := by simp [empty]
  estimate := by simp [empty]
  actual := by simp [empty]
  hasAccount := by simp [empty]
  balanced := by simp [empty]

/-- Balance travels along a refinement: account ids are unique, so each row of `s'` is the image of
    its own row of `s`, or fresh. -/
theorem Refines.balanced {s s' : BudgetStore} (h : Refines s s')
    (hb : ∀ row ∈ s.accounts.rows, (ledgerOf s row).Balanced) :
    ∀ row' ∈ s'.accounts.rows, (ledgerOf s' row').Balanced := by
  intro row' hrow'
  rcases h.origin row' hrow' with ⟨row, hrow, hid⟩ | ⟨hlimit, hopening⟩
  · obtain ⟨row'', hrow'', hid'', hmove⟩ := h.kept row hrow
    obtain rfl := s'.accounts.eq_of_key hrow'' hrow' (hid''.trans hid)
    exact hmove.balanced (hb row hrow)
  · rw [hopening]; exact Ledger.balanced_opening hlimit

/-- Along a refinement no account disappears and no `used` falls. -/
def UsedGrows (s s' : BudgetStore) : Prop :=
  ∀ row ∈ s.accounts.rows, ∃ row' ∈ s'.accounts.rows,
    row'.id = row.id ∧ row.used.amount ≤ row'.used.amount

theorem UsedGrows.refl (s : BudgetStore) : UsedGrows s s := fun row h => ⟨row, h, rfl, le_refl _⟩

theorem UsedGrows.trans {s₁ s₂ s₃ : BudgetStore} (h : UsedGrows s₁ s₂) (h' : UsedGrows s₂ s₃) :
    UsedGrows s₁ s₃ := by
  intro row hrow
  obtain ⟨row', hrow', hid, hle⟩ := h row hrow
  obtain ⟨row'', hrow'', hid', hle'⟩ := h' row' hrow'
  exact ⟨row'', hrow'', hid'.trans hid, hle.trans hle'⟩

theorem Refines.usedGrows {s s' : BudgetStore} (h : Refines s s') : UsedGrows s s' := by
  intro row hrow
  obtain ⟨row', hrow', hid, hmove⟩ := h.kept row hrow
  exact ⟨row', hrow', hid, hmove.used_le⟩

theorem metered_zeroCost : zeroCost.Metered := rfl

theorem amount_zeroCost : zeroCost.amount = 0 := by funext key; cases key <;> rfl

theorem initializeBudget_refines {s : BudgetStore} (hm : Metered s) (id : AccountId)
    (limits : Quota) : Refines s (initializeBudget s id limits.cost) := by
  refine ⟨fun row hrow => ⟨row, Table.mem_insertOrIgnore_of_mem hrow, rfl, .refl⟩, fun row hrow => ?_⟩
  rcases Table.mem_insertOrIgnore hrow with hrow | ⟨rfl, hfresh⟩
  · exact Or.inl ⟨row, hrow, rfl⟩
  · refine Or.inr ⟨limits.nonneg, ?_⟩
    have hnone : ∀ r ∈ s.reservations.rows, r.account ≠ id := fun r hr hid => by
      obtain ⟨row, hrow, hrid⟩ := hm.hasAccount r hr
      exact hfresh row hrow (hrid.trans hid)
    have hheld : heldEntries id (s.reservations.rows : Multiset Reservation) = 0 :=
      Multiset.eq_zero_of_forall_notMem fun entry he => by
        obtain ⟨r, hr, he⟩ := (Multiset.mem_filterMap _ _).1 he
        rw [heldEntry, if_neg fun h => hnone r hr h.1] at he; cases he
    have hsettled : settledEntries id (s.reservations.rows : Multiset Reservation) = 0 :=
      Multiset.eq_zero_of_forall_notMem fun entry he => by
        obtain ⟨r, hr, he⟩ := (Multiset.mem_filterMap _ _).1 he
        rw [settledEntry, if_neg fun h => hnone r hr h.1] at he; cases he
    simp only [ledgerOf, initializeBudget, hheld, hsettled, amount_zeroCost, Ledger.opening]

theorem initializeBudget_metered {s : BudgetStore} (hm : Metered s) (id : AccountId)
    (limits : Quota) : Metered (initializeBudget s id limits.cost) where
  account row hrow := by
    rcases Table.mem_insertOrIgnore hrow with hrow | ⟨rfl, _⟩
    · exact hm.account row hrow
    · exact ⟨limits.metered, metered_zeroCost, metered_zeroCost⟩
  estimate := hm.estimate
  actual := hm.actual
  hasAccount r hr := by
    obtain ⟨row, hrow, hid⟩ := hm.hasAccount r hr
    exact ⟨row, Table.mem_insertOrIgnore_of_mem hrow, hid⟩

/-- Setting one account row keeps every account that reservations refer to. -/
theorem exists_account_set {t : Table BudgetAccount.id} {row row' : BudgetAccount} {id : AccountId}
    (hrow : row ∈ t.rows) (hid : row'.id = row.id) (h : ∃ x ∈ t.rows, x.id = id) :
    ∃ x ∈ (t.set row').rows, x.id = id := by
  obtain ⟨x, hx, rfl⟩ := h
  by_cases hxid : x.id = row'.id
  · exact ⟨row', Table.mem_set.2 (Or.inl ⟨rfl, row, hrow, hid.symm⟩), hxid.symm⟩
  · exact ⟨x, Table.mem_set.2 (Or.inr ⟨hx, hxid⟩), rfl⟩

theorem reserveBudget_metered {s s' : BudgetStore} {rid : String} {id : AccountId}
    {estimate : WireCost} (hm : Metered s) (he : estimate.Metered)
    (h : reserveBudget c s rid id estimate = .ok s') : Metered s' := by
  obtain ⟨row, hrow, rfl, -, -, hacc, hrows⟩ := reserveBudget_ok h
  obtain ⟨hlimits, hused, hreserved⟩ := hm.account row hrow
  have hmem : ∀ r ∈ s'.reservations.rows, r ∈ s.reservations.rows ∨
      r = ⟨rid, row.id, .reserved, estimate, none⟩ := by simp [hrows]
  refine ⟨fun x hx => ?_, fun r hr => ?_, fun r hr hst => ?_, fun r hr => ?_⟩
  · rw [hacc, Table.mem_set] at hx
    rcases hx with ⟨rfl, _⟩ | ⟨hx, _⟩
    · exact ⟨hlimits, hused, metered_addCost hreserved he⟩
    · exact hm.account x hx
  · rcases hmem r hr with hr | rfl
    · exact hm.estimate r hr
    · exact he
  · rcases hmem r hr with hr | rfl
    · exact hm.actual r hr hst
    · cases hst
  · rw [hacc]
    refine exists_account_set hrow rfl ?_
    rcases hmem r hr with hr | rfl
    · exact hm.hasAccount r hr
    · exact ⟨row, hrow, rfl⟩

theorem settleBudget_metered {s s' : BudgetStore} {rid : String} {actual : WireCost}
    (hm : Metered s) (ha : actual.Metered) (h : settleBudget c s rid actual = .ok s') :
    Metered s' := by
  obtain ⟨r, hr, row, hrow, rfl, -, hid, -, hacc, hres⟩ := settleBudget_ok h
  obtain ⟨hlimits, hused, hreserved⟩ := hm.account row hrow
  have hestimate := hm.estimate r hr
  have hmem : ∀ x ∈ s'.reservations.rows, x ∈ s.reservations.rows ∨
      x = { r with status := .settled, actual := some actual } := fun x hx => by
    rw [hres, Table.mem_set] at hx
    exact hx.elim (fun h => Or.inr h.1) fun h => Or.inl h.1
  refine ⟨fun x hx => ?_, fun x hx => ?_, fun x hx hst => ?_, fun x hx => ?_⟩
  · rw [hacc, Table.mem_set] at hx
    rcases hx with ⟨rfl, _⟩ | ⟨hx, _⟩
    · exact ⟨hlimits, metered_addCost hused ha, metered_subtractCost hreserved hestimate⟩
    · exact hm.account x hx
  · rcases hmem x hx with hx | rfl
    · exact hm.estimate x hx
    · exact hestimate
  · rcases hmem x hx with hx | rfl
    · exact hm.actual x hx hst
    · exact ⟨actual, rfl⟩
  · rw [hacc]
    refine exists_account_set hrow rfl ?_
    rcases hmem x hx with hx | rfl
    · exact hm.hasAccount x hx
    · exact ⟨row, hrow, hid⟩

end BudgetStore

end HuntWarden
