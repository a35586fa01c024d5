import Mathlib.Data.List.Basic
import Mathlib.Data.Set.Basic

/-! A list that is scanned in batches. A watermark says how far the scan has come, and an item below it is
    due again as long as it is late and not settled. The scan drains, its watermark rising all the way,
    exactly when every late item that is due settles once it is taken, and the first batch does not end
    below the watermark. -/

namespace HuntWarden

open Classical

/-- What is scanned: the items in order, those that may come late, and those that settle when taken. -/
structure Source (α : Type) where
  seq : α → ℕ
  items : List α
  late : α → Prop
  settles : α → Prop
  top : ℕ
  size : ℕ
  sorted : items.Pairwise fun a b => seq a < seq b
  bounded : ∀ a ∈ items, seq a ≤ top
  size_pos : 0 < size

structure Scan (α : Type) where
  watermark : ℕ
  settled : Set α

namespace Scan

theorem le_min_sub_one {n a b : ℕ} (ha : 0 < a) (hb : 0 < b) : n ≤ min a b - 1 ↔ n < a ∧ n < b := by
  omega

noncomputable section

variable {α : Type} (src : Source α) (s : Scan α)

/-- An item is due above the watermark, or late and not settled. -/
def Due (a : α) : Prop := s.watermark < src.seq a ∨ (src.late a ∧ a ∉ s.settled)

def due : List α := src.items.filter fun a => decide (Due src s a)

def batch : List α := (due src s).take src.size

/-- One call: the batch is taken, and the watermark is put where it ends. -/
def next : Scan α where
  watermark := match (batch src s).getLast? with
    | some a => src.seq a
    | none => max s.watermark src.top
  settled := { a | a ∈ s.settled ∨ (a ∈ batch src s ∧ src.settles a) }

/-- The due items below the watermark. -/
def overdue : List α := (due src s).filter fun a => decide (src.seq a < s.watermark)

/-- Every late item that is due settles, and the first batch does not end below the watermark: nothing is
    due, or fewer items than a batch holds are overdue and another one is due. -/
structure Drainable : Prop where
  settling : ∀ a ∈ due src s, src.late a → a ∉ s.settled → src.settles a
  forward : due src s = [] ∨
    ((overdue src s).length < src.size ∧ ∃ a ∈ due src s, s.watermark ≤ src.seq a)

variable {src s}

/-! ### Sorted lists -/

theorem le_getElem_iff {seq : α → ℕ} {w : ℕ} : ∀ {l : List α} {n : ℕ},
    l.Pairwise (fun a b => seq a < seq b) → ∀ hn : n < l.length,
      w ≤ seq l[n] ↔ (l.filter fun a => decide (seq a < w)).length ≤ n := by
  intro l
  induction l with
  | nil => intro n _ hn; cases hn
  | cons a rest ih =>
    intro n hsorted hn
    rw [List.pairwise_cons] at hsorted
    by_cases ha : seq a < w
    · have hcons : (a :: rest).filter (fun a => decide (seq a < w)) =
          a :: rest.filter fun a => decide (seq a < w) := List.filter_cons_of_pos (decide_eq_true ha)
      rw [hcons, List.length_cons]
      cases n with
      | zero => exact iff_of_false (by simpa using ha) (by simp)
      | succ n =>
        rw [List.getElem_cons_succ, ih hsorted.2, Nat.succ_le_succ_iff]
    · have hnone : (a :: rest).filter (fun a => decide (seq a < w)) = [] := by
        refine List.filter_eq_nil_iff.2 fun b hb => ?_
        rw [decide_eq_true_eq]
        rcases List.mem_cons.1 hb with rfl | hb
        · exact ha
        · have := hsorted.1 b hb
          omega
      rw [hnone, List.length_nil]
      refine iff_of_true ?_ (Nat.zero_le n)
      cases n with
      | zero => simpa using ha
      | succ n =>
        have hmem := hsorted.1 _ (List.getElem_mem (Nat.lt_of_succ_lt_succ hn))
        rw [List.getElem_cons_succ]
        omega

/-- What is left of a sorted list is what lies above the end of the part taken. -/
theorem drop_eq_filter {seq : α → ℕ} {l : List α} (hsorted : l.Pairwise fun a b => seq a < seq b)
    {n : ℕ} {x : α} (hx : (l.take n).getLast? = some x) :
    l.drop n = l.filter fun a => decide (seq x < seq a) := by
  obtain ⟨init, htake⟩ := List.getLast?_eq_some_iff.1 hx
  have hsplit : l = l.take n ++ l.drop n := (List.take_append_drop n l).symm
  rw [hsplit, List.pairwise_append] at hsorted
  obtain ⟨hinit, -, hacross⟩ := hsorted
  have hxmem : x ∈ l.take n := List.mem_of_getLast? hx
  have hleft : (l.take n).filter (fun a => decide (seq x < seq a)) = [] := by
    refine List.filter_eq_nil_iff.2 fun a ha => ?_
    rw [decide_eq_true_eq, not_lt]
    rw [htake] at ha hinit
    rcases List.mem_append.1 ha with ha | ha
    · exact ((List.pairwise_append.1 hinit).2.2 a ha x (List.mem_singleton_self x)).le
    · rw [List.mem_singleton.1 ha]
  have hright : (l.drop n).filter (fun a => decide (seq x < seq a)) = l.drop n :=
    List.filter_eq_self.2 fun a ha => decide_eq_true (hacross x hxmem a ha)
  conv_rhs => rw [hsplit]
  rw [List.filter_append, hleft, hright, List.nil_append]

/-! ### One call -/

theorem mem_due {a : α} : a ∈ due src s ↔ a ∈ src.items ∧ Due src s a := by
  rw [due, List.mem_filter, decide_eq_true_eq]

/-- What a test that decides `Due` leaves of the items. -/
theorem due_eq_filter {p : α → Bool} (h : ∀ a ∈ src.items, Due src s a ↔ p a = true) :
    due src s = src.items.filter p := by
  refine List.filter_congr fun a ha => ?_
  rw [Bool.eq_iff_iff, decide_eq_true_eq, h a ha]

theorem overdue_eq_filter {p : α → Bool} (h : ∀ a, src.seq a < s.watermark ↔ p a = true) :
    overdue src s = (due src s).filter p := by
  refine List.filter_congr fun a _ => ?_
  rw [Bool.eq_iff_iff, decide_eq_true_eq, h a]

theorem due_sorted : (due src s).Pairwise fun a b => src.seq a < src.seq b :=
  src.sorted.filter _

theorem batch_eq_nil : (batch src s).getLast? = none ↔ due src s = [] := by
  rw [List.getLast?_eq_none_iff, batch, List.take_eq_nil_iff]
  have := src.size_pos
  constructor
  · rintro (h | h)
    · omega
    · exact h
  · exact Or.inr

/-- The batch does not end below the watermark. -/
theorem le_batch_getLast {x : α} (hx : (batch src s).getLast? = some x) :
    s.watermark ≤ src.seq x ↔
      (overdue src s).length < src.size ∧ ∃ a ∈ due src s, s.watermark ≤ src.seq a := by
  have hne : due src s ≠ [] := fun h => by
    rw [batch_eq_nil.2 h] at hx
    cases hx
  have hlen : 0 < (due src s).length := List.length_pos_iff.2 hne
  have hpos := src.size_pos
  have hcount : ∀ {n : ℕ} (hn : n < (due src s).length),
      s.watermark ≤ src.seq (due src s)[n] ↔ (overdue src s).length ≤ n := fun hn =>
    le_getElem_iff due_sorted hn
  have hlast : min src.size (due src s).length - 1 < (due src s).length := by omega
  have hxeq : x = (due src s)[min src.size (due src s).length - 1] := by
    rw [batch, List.getLast?_eq_getElem?, List.length_take, List.getElem?_take_of_lt (by omega),
      List.getElem?_eq_getElem hlast] at hx
    exact (Option.some.inj hx).symm
  have hother : (∃ a ∈ due src s, s.watermark ≤ src.seq a) ↔
      (overdue src s).length < (due src s).length := by
    constructor
    · rintro ⟨a, ha, hle⟩
      obtain ⟨n, hn, rfl⟩ := List.mem_iff_getElem.1 ha
      have := (hcount hn).1 hle
      omega
    · intro hlt
      exact ⟨_, List.getElem_mem hlt, (hcount hlt).2 le_rfl⟩
  rw [hxeq, hcount hlast, hother]
  exact le_min_sub_one hpos hlen

/-- The watermark does not fall with a call. -/
theorem le_next_watermark : s.watermark ≤ (next src s).watermark ↔
    due src s = [] ∨
      ((overdue src s).length < src.size ∧ ∃ a ∈ due src s, s.watermark ≤ src.seq a) := by
  rw [next]
  cases hx : (batch src s).getLast? with
  | none => simp [batch_eq_nil.1 hx]
  | some x =>
    have hne : due src s ≠ [] := fun h => by
      rw [batch_eq_nil.2 h] at hx
      cases hx
    simp only [hne, false_or]
    exact le_batch_getLast hx

/-- After a call the rest is due, and nothing but the rest. -/
theorem due_next (h : Drainable src s) : due src (next src s) = (due src s).drop src.size := by
  cases hx : (batch src s).getLast? with
  | none =>
    have hnil := batch_eq_nil.1 hx
    have hwatermark : (next src s).watermark = max s.watermark src.top := by rw [next, hx]
    rw [hnil, List.drop_nil, due, List.filter_eq_nil_iff]
    intro a ha hdue
    rcases of_decide_eq_true hdue with habove | ⟨hlate, hsettled⟩
    · have := src.bounded a ha
      omega
    · have hmem : a ∈ due src s := mem_due.2 ⟨ha, Or.inr ⟨hlate, fun hs => hsettled (Or.inl hs)⟩⟩
      rw [hnil] at hmem
      cases hmem
  | some x =>
    have hwatermark : (next src s).watermark = src.seq x := by rw [next, hx]
    have hle : s.watermark ≤ src.seq x := by
      have hnext := le_next_watermark.2 h.forward
      rwa [hwatermark] at hnext
    rw [drop_eq_filter due_sorted hx, due, due, List.filter_filter]
    refine List.filter_congr fun a ha => ?_
    rw [← Bool.decide_and, decide_eq_decide, Due, hwatermark]
    constructor
    · rintro (habove | ⟨hlate, hsettled⟩)
      · exact ⟨habove, Or.inl (lt_of_le_of_lt hle habove)⟩
      · have hdue : Due src s a := Or.inr ⟨hlate, fun hs => hsettled (Or.inl hs)⟩
        refine ⟨?_, hdue⟩
        by_contra hbelow
        have hmem : a ∈ due src s := mem_due.2 ⟨ha, hdue⟩
        have hbatch : a ∈ batch src s := by
          rw [← List.take_append_drop src.size (due src s), List.mem_append] at hmem
          rcases hmem with hmem | hmem
          · exact hmem
          · rw [drop_eq_filter due_sorted hx, List.mem_filter, decide_eq_true_eq] at hmem
            exact absurd hmem.2 hbelow
        exact hsettled (Or.inr ⟨hbatch, h.settling a hmem hlate fun hs => hsettled (Or.inl hs)⟩)
    · rintro ⟨habove, -⟩
      exact Or.inl habove

theorem drainable_next (h : Drainable src s) : Drainable src (next src s) := by
  have hrest := due_next h
  refine ⟨fun a ha hlate hsettled => ?_, ?_⟩
  · rw [hrest] at ha
    exact h.settling a (List.mem_of_mem_drop ha) hlate fun hs => hsettled (Or.inl hs)
  · cases hx : (batch src s).getLast? with
    | none =>
      rw [hrest, batch_eq_nil.1 hx, List.drop_nil]
      exact Or.inl rfl
    | some x =>
      have hwatermark : (next src s).watermark = src.seq x := by rw [next, hx]
      have habove : ∀ a ∈ due src (next src s), (next src s).watermark < src.seq a := by
        intro a ha
        rw [hrest, drop_eq_filter due_sorted hx, List.mem_filter, decide_eq_true_eq] at ha
        rw [hwatermark]
        exact ha.2
      cases hdue : due src (next src s) with
      | nil => exact Or.inl rfl
      | cons a rest =>
        rw [hdue] at habove
        refine Or.inr ⟨?_, a, List.mem_cons_self, (habove a List.mem_cons_self).le⟩
        have hnone : overdue src (next src s) = [] := by
          rw [overdue, hdue, List.filter_eq_nil_iff]
          intro b hb
          rw [decide_eq_true_eq]
          have := habove b hb
          omega
        rw [hnone]
        exact src.size_pos

/-! ### Call after call -/

/-- Over repeated calls the watermark never falls; once as many batches as hold the due items have been
    taken, the calls find everything taken and nothing is due any more, for ever; and each due item is in
    one of these batches. -/
structure Drains (src : Source α) (trace : ℕ → Scan α) : Prop where
  monotone : ∀ n, (trace n).watermark ≤ (trace (n + 1)).watermark
  complete : ∀ n, (due src (trace 0)).length ≤ (n + 1) * src.size →
    (due src (trace n)).length ≤ src.size
  drained : ∀ n, (due src (trace 0)).length ≤ n * src.size → due src (trace n) = []
  taken : ∀ a ∈ due src (trace 0), ∃ n, n * src.size < (due src (trace 0)).length ∧
    a ∈ batch src (trace n)

variable {trace : ℕ → Scan α}

theorem drainable_trace (htrace : ∀ n, trace (n + 1) = next src (trace n))
    (h : Drainable src (trace 0)) (n : ℕ) :
    Drainable src (trace n) ∧ due src (trace n) = (due src (trace 0)).drop (n * src.size) := by
  induction n with
  | zero => exact ⟨h, by simp⟩
  | succ n ih =>
    rw [htrace n]
    refine ⟨drainable_next ih.1, ?_⟩
    rw [due_next ih.1, ih.2, List.drop_drop, Nat.succ_mul]

/-- A late item that does not settle stays due. -/
theorem stuck_trace (htrace : ∀ n, trace (n + 1) = next src (trace n)) {a : α} (hitem : a ∈ src.items)
    (hlate : src.late a) (hunsettled : a ∉ (trace 0).settled) (hstuck : ¬ src.settles a) (n : ℕ) :
    a ∈ due src (trace n) := by
  have hnever : ∀ n, a ∉ (trace n).settled := by
    intro n
    induction n with
    | zero => exact hunsettled
    | succ n ih =>
      rw [htrace n]
      rintro (h | ⟨-, h⟩)
      · exact ih h
      · exact hstuck h
  exact mem_due.2 ⟨hitem, Or.inr ⟨hlate, hnever n⟩⟩

theorem drains_iff_drainable (htrace : ∀ n, trace (n + 1) = next src (trace n)) :
    Drains src trace ↔ Drainable src (trace 0) := by
  constructor
  · intro h
    refine ⟨fun a ha hlate hsettled => ?_, ?_⟩
    · by_contra hstuck
      have hstays := stuck_trace htrace (mem_due.1 ha).1 hlate hsettled hstuck (due src (trace 0)).length
      rw [h.drained _ (Nat.le_mul_of_pos_right _ src.size_pos)] at hstays
      cases hstays
    · have hfirst := h.monotone 0
      rw [htrace 0] at hfirst
      exact le_next_watermark.1 hfirst
  · intro h
    have hdue := fun n => (drainable_trace htrace h n).2
    refine ⟨fun n => ?_, fun n hn => ?_, fun n hn => ?_, fun a ha => ?_⟩
    · rw [htrace n]
      exact le_next_watermark.2 (drainable_trace htrace h n).1.forward
    · rw [hdue n, List.length_drop]
      rw [Nat.succ_mul] at hn
      omega
    · rw [hdue n]
      exact List.drop_eq_nil_of_le hn
    · obtain ⟨i, hi, rfl⟩ := List.mem_iff_getElem.1 ha
      have hdiv : i / src.size * src.size ≤ i := Nat.div_mul_le_self i src.size
      have hmod : i < (i / src.size + 1) * src.size := by
        rw [Nat.mul_comm]
        exact Nat.lt_mul_div_succ i src.size_pos
      refine ⟨i / src.size, by omega, ?_⟩
      rw [batch, hdue, List.mem_iff_getElem]
      rw [Nat.succ_mul] at hmod
      refine ⟨i - i / src.size * src.size, ?_, ?_⟩
      · rw [List.length_take, List.length_drop]
        omega
      · rw [List.getElem_take, List.getElem_drop]
        congr 1
        omega

end

end Scan

end HuntWarden
