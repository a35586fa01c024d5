import Mathlib.Algebra.Order.BigOperators.Group.Multiset
import Mathlib.Algebra.Order.Group.Defs
import Mathlib.Data.Multiset.Basic
import Mathlib.Logic.Relation
import Mathlib.Tactic.Abel

/-! A reserve-and-settle ledger, over any ordered additive group of amounts. An amount is reserved
    against a limit before it is spent; settling returns the reservation and books what was spent in
    its place. Every reachable ledger is `Balanced`: what it holds and what it has used are exactly
    the sums of its open and its settled entries, and together they stay within the limit. -/

namespace HuntWarden

/-- One account: its limit, the two running totals, and the entries the totals stand for. -/
structure Ledger (ι V : Type) where
  limit : V
  used : V
  reserved : V
  held : Multiset (ι × V)
  settled : Multiset (ι × V)

namespace Ledger

variable {ι V : Type} [AddCommGroup V] [PartialOrder V]

def opening (limit : V) : Ledger ι V := ⟨limit, 0, 0, 0, 0⟩

/-- The two moves of an account. -/
inductive Step : Ledger ι V → Ledger ι V → Prop
  | reserve {l : Ledger ι V} (id : ι) (estimate : V)
      (fresh : id ∉ (l.held + l.settled).map Prod.fst)
      (nonneg : 0 ≤ estimate) (fits : l.used + l.reserved + estimate ≤ l.limit) :
      Step l { l with reserved := l.reserved + estimate, held := (id, estimate) ::ₘ l.held }
  | settle {l : Ledger ι V} (id : ι) (estimate actual : V) (rest : Multiset (ι × V))
      (isHeld : l.held = (id, estimate) ::ₘ rest)
      (nonneg : 0 ≤ actual) (within : actual ≤ estimate) :
      Step l { l with used := l.used + actual, reserved := l.reserved - estimate, held := rest,
                      settled := (id, actual) ::ₘ l.settled }

structure Balanced (l : Ledger ι V) : Prop where
  used_nonneg : 0 ≤ l.used
  within_limit : l.used + l.reserved ≤ l.limit
  reserved_eq : l.reserved = (l.held.map Prod.snd).sum
  used_eq : l.used = (l.settled.map Prod.snd).sum
  held_nonneg : ∀ entry ∈ l.held, 0 ≤ entry.2
  once : ((l.held + l.settled).map Prod.fst).Nodup

theorem balanced_opening {limit : V} (h : 0 ≤ limit) : Balanced (opening limit : Ledger ι V) where
  used_nonneg := le_refl _
  within_limit := by simpa [opening] using h
  reserved_eq := by simp [opening]
  used_eq := by simp [opening]
  held_nonneg := by simp [opening]
  once := by simp [opening]

variable [IsOrderedAddMonoid V]

theorem Step.used_le {l l' : Ledger ι V} (h : Step l l') : l.used ≤ l'.used := by
  cases h with
  | reserve => exact le_refl _
  | settle _ _ _ _ _ nonneg => exact le_add_of_nonneg_right nonneg

theorem Step.balanced {l l' : Ledger ι V} (h : Step l l') (hb : Balanced l) : Balanced l' := by
  cases h with
  | reserve id estimate fresh nonneg fits =>
    refine ⟨hb.used_nonneg, ?_, ?_, hb.used_eq, ?_, ?_⟩
    · rw [← add_assoc]; exact fits
    · simp only [Multiset.map_cons, Multiset.sum_cons]; rw [← hb.reserved_eq, add_comm]
    · simp only [Multiset.mem_cons]
      rintro entry (rfl | hentry)
      · exact nonneg
      · exact hb.held_nonneg entry hentry
    · simp only [Multiset.cons_add, Multiset.map_cons, Multiset.nodup_cons]
      exact ⟨fresh, hb.once⟩
  | settle id estimate actual rest isHeld nonneg within =>
    have hreserved : l.reserved - estimate = (rest.map Prod.snd).sum := by
      rw [hb.reserved_eq, isHeld]; simp
    refine ⟨add_nonneg hb.used_nonneg nonneg, ?_, hreserved, ?_, ?_, ?_⟩
    · calc l.used + actual + (l.reserved - estimate)
          = l.used + l.reserved + (actual - estimate) := by abel
        _ ≤ l.used + l.reserved + 0 := add_le_add_right (sub_nonpos.2 within) _
        _ = l.used + l.reserved := add_zero _
        _ ≤ l.limit := hb.within_limit
    · simp only [Multiset.map_cons, Multiset.sum_cons]; rw [← hb.used_eq, add_comm]
    · exact fun entry hentry =>
        hb.held_nonneg entry (by rw [isHeld]; exact Multiset.mem_cons_of_mem hentry)
    · have honce := hb.once
      rw [isHeld] at honce
      simpa [Multiset.add_cons] using honce

/-- A move, or no move at all. -/
abbrev Moves : Ledger ι V → Ledger ι V → Prop := Relation.ReflGen Step

theorem Moves.balanced {l l' : Ledger ι V} (h : Moves l l') (hb : Balanced l) : Balanced l' := by
  cases h with
  | refl => exact hb
  | single h => exact h.balanced hb

theorem Moves.used_le {l l' : Ledger ι V} (h : Moves l l') : l.used ≤ l'.used := by
  cases h with
  | refl => exact le_refl _
  | single h => exact h.used_le

end Ledger

end HuntWarden
