import Mathlib.Algebra.GroupWithZero.Nat
import Mathlib.Data.List.Nodup
import Mathlib.Data.List.Sort

/-! A sorted list read in pages. The order is a comparison whose ties the members of the list never
    reach, so that sorting has one result, whatever order the rows come in and whenever they are
    filtered. A position is found again by the last key shown or by the keys left over. -/

namespace HuntWarden.Paging

variable {α κ : Type}

/-! ### Sorting by a comparison -/

/-- The rows in the order of the comparison. -/
def sortBy (order : α → α → Ordering) (rows : List α) : List α :=
  rows.insertionSort fun a b => (order a b).isLE

/-- The comparison tells the members of the list apart. -/
def Separates (order : α → α → Ordering) (rows : List α) : Prop :=
  ∀ a ∈ rows, ∀ b ∈ rows, order a b = .eq → a = b

section Sorting

variable {c : α → α → Ordering} {rows rows' : List α}

theorem perm_sortBy : (sortBy c rows).Perm rows := List.perm_insertionSort _ _

@[simp] theorem mem_sortBy {a : α} : a ∈ sortBy c rows ↔ a ∈ rows := perm_sortBy.mem_iff

@[simp] theorem length_sortBy : (sortBy c rows).length = rows.length := perm_sortBy.length_eq

theorem Separates.subset (h : Separates c rows) (hsub : rows' ⊆ rows) :
    Separates c rows' :=
  fun a ha b hb => h a (hsub ha) b (hsub hb)

/-- A key that the comparison falls back on separates rows of different keys. -/
theorem separates_of_key {key : α → κ} (hkey : ∀ a b, c a b = .eq → key a = key b)
    (hnodup : (rows.map key).Nodup) : Separates c rows :=
  fun _ ha _ hb heq => List.inj_on_of_nodup_map hnodup ha hb (hkey _ _ heq)

theorem pair_sortBy {a b : α} (h : [a, b].Sublist rows) (hle : (c a b).isLE) :
    [a, b].Sublist (sortBy c rows) := List.pair_sublist_insertionSort hle h

variable [Std.TransCmp c]

theorem pairwise_sortBy : (sortBy c rows).Pairwise fun a b => (c a b).isLE := by
  have htotal : Std.Total fun a b : α => ((c a b).isLE : Prop) := ⟨fun a b => by
    rcases h : (c a b).isLE with _ | _
    · have hswap : c b a = (c a b).swap := Std.OrientedCmp.eq_swap
      rw [hswap]
      cases ho : c a b <;> simp_all
    · exact Or.inl rfl⟩
  have htrans : IsTrans α fun a b => ((c a b).isLE : Prop) :=
    ⟨fun _ _ _ => Std.TransCmp.isLE_trans⟩
  exact List.pairwise_insertionSort _ rows

/-- Sorting leaves the rows that are level with one row in their order. -/
theorem filter_level_sortBy (a : α) :
    (sortBy c rows).filter (fun b => c a b = .eq) = rows.filter fun b => c a b = .eq := by
  have hlevel : (rows.filter fun b => decide (c a b = .eq)).Pairwise fun b b' => (c b b').isLE := by
    refine List.pairwise_of_forall_mem_list fun b hb b' hb' => ?_
    have hab : c a b = .eq := by simpa using (List.mem_filter.1 hb).2
    have hab' : c a b' = .eq := by simpa using (List.mem_filter.1 hb').2
    have hba : c b a = .eq := Std.OrientedCmp.eq_comm.1 hab
    exact Std.TransCmp.isLE_trans (Ordering.isLE_of_eq_eq hba) (Ordering.isLE_of_eq_eq hab')
  have hsub := (List.sublist_insertionSort hlevel List.filter_sublist).filter fun b => decide (c a b = .eq)
  rw [List.filter_filter] at hsub
  simp only [Bool.and_self] at hsub
  exact (hsub.eq_of_length (perm_sortBy.filter _).length_eq.symm).symm

/-- Two level rows stand in their old order. -/
theorem pair_of_sortBy {a b : α} (h : [a, b].Sublist (sortBy c rows)) (heq : c a b = .eq) :
    [a, b].Sublist rows := by
  have hpair := h.filter fun b => decide (c a b = .eq)
  rw [filter_level_sortBy] at hpair
  have hself : c a a = .eq := Std.ReflCmp.compare_self
  rw [List.filter_cons_of_pos (by simpa using hself), List.filter_cons_of_pos (by simpa using heq)] at hpair
  exact hpair.trans List.filter_sublist

theorem eq_of_isLE {a b : α} (hsep : Separates c rows) (ha : a ∈ rows) (hb : b ∈ rows)
    (hab : (c a b).isLE) (hba : (c b a).isLE) : a = b := by
  refine hsep a ha b hb (Ordering.eq_eq_of_isLE_of_isLE_swap hab ?_)
  rw [← Std.OrientedCmp.eq_swap]
  exact hba

/-- The only way to write the rows in c. -/
theorem sortBy_eq (hsep : Separates c rows) (hperm : rows.Perm rows')
    (hsorted : rows'.Pairwise fun a b => (c a b).isLE) : sortBy c rows = rows' := by
  refine (perm_sortBy.trans hperm).eq_of_pairwise ?_ pairwise_sortBy hsorted
  intro a b ha hb hab hba
  exact eq_of_isLE hsep (mem_sortBy.1 ha) (hperm.mem_iff.2 hb) hab hba

/-- Rows listed strictly in order are what sorting makes of them. -/
theorem sortBy_eq_of_strict (hperm : rows.Perm rows')
    (hstrict : rows'.Pairwise fun a b => c a b = .lt) : sortBy c rows = rows' := by
  have hsep : Separates c rows' := by
    have hoff : ∀ ⦃a⦄, a ∈ rows' → ∀ ⦃b⦄, b ∈ rows' → (c a b = .eq → a = b) := by
      refine List.Pairwise.forall_of_forall_of_flip (fun _ _ _ => rfl) ?_ ?_
      · refine hstrict.imp fun hlt heq => ?_
        rw [hlt] at heq
        cases heq
      · refine hstrict.imp fun {a b} hlt heq => ?_
        have hswap : c a b = (c b a).swap := Std.OrientedCmp.eq_swap
        rw [hlt, heq] at hswap
        cases hswap
    exact fun a ha b hb => hoff ha hb
  refine sortBy_eq (hsep.subset hperm.subset) hperm (hstrict.imp ?_)
  intro a b hlt
  rw [hlt]
  rfl

theorem sortBy_congr (hsep : Separates c rows) (hperm : rows.Perm rows') :
    sortBy c rows = sortBy c rows' :=
  sortBy_eq hsep (hperm.trans perm_sortBy.symm) pairwise_sortBy

theorem filter_sortBy (hsep : Separates c rows) (p : α → Bool) :
    (sortBy c rows).filter p = sortBy c (rows.filter p) := by
  refine (sortBy_eq (hsep.subset (List.filter_subset_self rows)) ?_ ?_).symm
  · exact (perm_sortBy.filter p).symm
  · exact pairwise_sortBy.filter p

/-- Distinct rows come out strictly one after the other. -/
theorem strict_sortBy (hsep : Separates c rows) (hnodup : rows.Nodup) :
    (sortBy c rows).Pairwise fun a b => c a b = .lt := by
  have hne : (sortBy c rows).Pairwise (· ≠ ·) := perm_sortBy.nodup_iff.2 hnodup
  refine (pairwise_sortBy.and hne).imp_of_mem ?_
  rintro a b ha hb ⟨hle, hab⟩
  cases ho : c a b with
  | lt => rfl
  | eq => exact absurd (hsep a (mem_sortBy.1 ha) b (mem_sortBy.1 hb) ho) hab
  | gt => rw [ho] at hle; cases hle

end Sorting

/-! ### Positions -/

/-- The rows past a position are those with a greater key than the last one before it. -/
theorem filter_past {key : α → ℕ} : ∀ {rows : List α} {k : ℕ} {last : α},
    rows.Pairwise (fun a b => key a < key b) → (rows.take k).getLast? = some last →
    rows.filter (fun a => key last < key a) = rows.drop k
  | [], k, _, _, h => by simp at h
  | _ :: _, 0, _, _, h => by simp at h
  | a :: rows, k + 1, last, hsorted, h => by
      obtain ⟨ha, hrest⟩ := List.pairwise_cons.1 hsorted
      rw [List.take_succ_cons, List.getLast?_cons] at h
      rw [List.drop_succ_cons]
      cases hl : (rows.take k).getLast? with
      | none =>
        rw [hl] at h
        cases h
        have hk : rows.take k = [] := List.getLast?_eq_none_iff.1 hl
        have hdrop : rows.drop k = rows := by
          rcases List.take_eq_nil_iff.1 hk with rfl | rfl <;> simp
        rw [List.filter_cons_of_neg (by simp), hdrop]
        exact List.filter_eq_self.2 fun b hb => decide_eq_true (ha b hb)
      | some last' =>
        rw [hl] at h
        obtain rfl : last' = last := by simpa using h
        have hmem : last' ∈ rows := List.mem_of_mem_take (List.mem_of_getLast? hl)
        rw [List.filter_cons_of_neg (by simpa using (ha last' hmem).le)]
        exact filter_past hrest hl

section Keys

variable [DecidableEq κ] {key : α → κ} {rows rows' : List α}

theorem find_key (hnodup : (rows.map key).Nodup) {k : κ} {a : α} :
    rows.find? (fun b => key b = k) = some a ↔ a ∈ rows ∧ key a = k := by
  constructor
  · intro h
    exact ⟨List.mem_of_find?_eq_some h, by simpa using List.find?_some h⟩
  · rintro ⟨ha, rfl⟩
    cases h : rows.find? (fun b => decide (key b = key a)) with
    | none => exact absurd (List.find?_eq_none.1 h a ha) (by simp)
    | some b =>
      have hb : key b = key a := by simpa using List.find?_some h
      rw [List.inj_on_of_nodup_map hnodup (List.mem_of_find?_eq_some h) ha hb]

/-- Looking up a key does not depend on the order of the rows. -/
theorem find_perm (hperm : rows.Perm rows') (hnodup : (rows.map key).Nodup) (k : κ) :
    rows.find? (fun a => key a = k) = rows'.find? fun a => key a = k := by
  ext a
  rw [find_key hnodup, find_key ((hperm.map key).nodup_iff.1 hnodup), hperm.mem_iff]

/-- Rows looked up by their keys are the rows. -/
theorem filterMap_find (hnodup : (rows.map key).Nodup) : ∀ {rest : List α}, rest ⊆ rows →
    (rest.map key).filterMap (fun k => rows.find? fun a => key a = k) = rest
  | [], _ => rfl
  | a :: rest, hsub => by
      obtain ⟨ha, hrest⟩ := List.cons_subset.1 hsub
      rw [List.map_cons, List.filterMap_cons, (find_key hnodup).2 ⟨ha, rfl⟩]
      exact congrArg (a :: ·) (filterMap_find hnodup hrest)

end Keys

/-! ### Pages -/

/-- The pages of the given limits from a position on, and the position left over, if any. -/
def readPages (rows : List α) : ℕ → List ℕ → List (List α) × Option ℕ
  | k, [] => ([], some k)
  | k, n :: limits =>
    if k + n < rows.length then
      ((rows.drop k).take n :: (readPages rows (k + n) limits).1, (readPages rows (k + n) limits).2)
    else ([(rows.drop k).take n], none)

/-- Nothing is lost or repeated between the pages. -/
theorem flatten_readPages (rows : List α) : ∀ (limits : List ℕ) (k : ℕ),
    (readPages rows k limits).1.flatten = (rows.drop k).take limits.sum
  | [], k => by simp [readPages]
  | n :: limits, k => by
      rw [readPages, List.sum_cons]
      by_cases h : k + n < rows.length
      · rw [if_pos h, List.flatten_cons, flatten_readPages rows limits (k + n), List.take_add,
          List.drop_drop]
      · rw [if_neg h, List.flatten_singleton, List.take_of_length_le, List.take_of_length_le]
        · rw [List.length_drop]; omega
        · rw [List.length_drop]; omega

/-- The pages come to an end exactly when the limits suffice. -/
theorem readPages_ends (rows : List α) : ∀ (limits : List ℕ) (k : ℕ), k < rows.length ∨ limits ≠ [] →
    ((readPages rows k limits).2 = none ↔ rows.length ≤ k + limits.sum)
  | [], k, hk => by simpa [readPages] using hk
  | n :: limits, k, _ => by
      rw [readPages, List.sum_cons]
      by_cases h : k + n < rows.length
      · rw [if_pos h, readPages_ends rows limits (k + n) (Or.inl h), Nat.add_assoc]
      · rw [if_neg h]
        simp only [true_iff]
        omega

end HuntWarden.Paging
