import HuntWarden.Lib.Outcome
import Mathlib.Data.List.Nodup
import Mathlib.Data.Nat.Find

/-! Rows that are to be told apart by a key which not all of them have yet. The missing keys are filled in
    by one update, a row after the other, and a unique index refuses a row as soon as another one has its
    key; or the rows beyond the first of each key are removed. -/

namespace HuntWarden.Backfill

variable {ε ρ κ : Type}

/-- No two rows with the same key. Rows without a key do not collide. -/
def Unique (key : ρ → Option κ) (rows : List ρ) : Prop := (rows.filterMap key).Nodup

instance [DecidableEq κ] (key : ρ → Option κ) (rows : List ρ) : Decidable (Unique key rows) :=
  inferInstanceAs (Decidable (rows.filterMap key).Nodup)

/-! ### An update, row by row -/

/-- What an update does to a row, and what its table asks of the new row among the others. -/
structure Update (ε ρ : Type) where
  set : ρ → Except ε ρ
  accepts : ρ → List ρ → Bool
  refused : ε

/-- `UPDATE … WHERE selected`: each new row is checked against the others as they are at that moment. -/
def Update.rows (u : Update ε ρ) (selected : ρ → Bool) : List ρ → List ρ → Except ε (List ρ)
  | done, [] => .ok done
  | done, r :: rest =>
    if selected r then do
      let r' ← u.set r
      Outcome.require (u.accepts r' (done ++ rest)) u.refused
      u.rows selected (done ++ [r']) rest
    else u.rows selected (done ++ [r]) rest

/-- The rows after an update whose new rows are known. -/
def updated (selected : ρ → Bool) (f : ρ → ρ) (r : ρ) : ρ := if selected r then f r else r

variable {u : Update ε ρ} {selected : ρ → Bool} {f : ρ → ρ}

theorem rows_eq_updated (hset : ∀ r r', selected r = true → u.set r = .ok r' → r' = f r) {done rest rows : List ρ}
    (h : u.rows selected done rest = .ok rows) : rows = done ++ rest.map (updated selected f) := by
  induction rest generalizing done with
  | nil => simpa [Update.rows] using h.symm
  | cons r rest ih =>
    rw [Update.rows] at h
    by_cases hr : selected r = true
    · rw [if_pos hr] at h
      obtain ⟨r', hset', h⟩ := Outcome.bind_ok.1 h
      obtain ⟨-, -, h⟩ := Outcome.bind_ok.1 h
      rw [ih h, hset r r' hr hset', List.map_cons, updated, if_pos hr, List.append_assoc]
      rfl
    · rw [if_neg hr] at h
      rw [ih h, List.map_cons, updated, if_neg hr, List.append_assoc]
      rfl

/-- An update that goes through has set every selected row. -/
theorem set_of_rows {done rest rows : List ρ} (h : u.rows selected done rest = .ok rows) :
    ∀ r ∈ rest, selected r = true → ∃ r', u.set r = .ok r' := by
  induction rest generalizing done with
  | nil => simp
  | cons r rest ih =>
    rintro x hx hsel
    rw [Update.rows] at h
    rcases List.mem_cons.1 hx with rfl | hx
    · rw [if_pos hsel] at h
      obtain ⟨r', hset, -⟩ := Outcome.bind_ok.1 h
      exact ⟨r', hset⟩
    · by_cases hr : selected r = true
      · rw [if_pos hr] at h
        obtain ⟨_, -, h⟩ := Outcome.bind_ok.1 h
        obtain ⟨_, -, h⟩ := Outcome.bind_ok.1 h
        exact ih h x hx hsel
      · rw [if_neg hr] at h
        exact ih h x hx hsel

/-- The update goes through when each new row is accepted between the rows already updated and the ones
    that are still to come. -/
theorem rows_total {done rest : List ρ} (hset : ∀ r ∈ rest, selected r = true → u.set r = .ok (f r))
    (haccepts : ∀ before r after, rest = before ++ r :: after → selected r = true →
      u.accepts (f r) (done ++ before.map (updated selected f) ++ after) = true) :
    u.rows selected done rest = .ok (done ++ rest.map (updated selected f)) := by
  induction rest generalizing done with
  | nil => simp [Update.rows]
  | cons r rest ih =>
    have hrest : u.rows selected (done ++ [updated selected f r]) rest =
        .ok (done ++ (r :: rest).map (updated selected f)) := by
      rw [ih (fun x hx => hset x (List.mem_cons_of_mem _ hx)), List.append_assoc]
      · rfl
      · rintro before x after rfl hx
        simpa using haccepts (r :: before) x after rfl hx
    rw [Update.rows]
    by_cases hr : selected r = true
    · have hacc := haccepts [] r rest rfl hr
      rw [List.map_nil, List.append_nil] at hacc
      rw [if_pos hr, hset r List.mem_cons_self hr]
      simp only [hacc, Outcome.require, if_true, bind, Except.bind]
      rwa [updated, if_pos hr] at hrest
    · rw [if_neg hr]
      rwa [updated, if_neg hr] at hrest

/-- Under a unique index the update of a row that keeps the keys apart is accepted: the new key is none of
    the final ones of the other rows, and the rows still to come have their final key or one that is no
    new key. -/
theorem key_apart {key : ρ → Option κ} {before after : List ρ} {r : ρ} {k : κ}
    (hunique : Unique key ((before ++ r :: after).map (updated selected f)))
    (hk : key (updated selected f r) = some k)
    (hafter : ∀ x ∈ after, key x = some k → key (updated selected f x) = some k) :
    ∀ x ∈ before.map (updated selected f) ++ after, key x ≠ some k := by
  rw [Unique, List.map_append, List.map_cons, List.filterMap_append, List.filterMap_cons, hk,
    List.nodup_middle, List.nodup_cons, List.mem_append, not_or] at hunique
  rintro x hx hxk
  rcases List.mem_append.1 hx with hx | hx
  · exact hunique.1.1 (List.mem_filterMap.2 ⟨x, hx, hxk⟩)
  · exact hunique.1.2 (List.mem_filterMap.2 ⟨_, List.mem_map_of_mem hx, hafter x hx hxk⟩)

/-- Rows that a unique index has accepted one by one are told apart by it. -/
theorem unique_rows {key : ρ → Option κ}
    (haccepts : ∀ r others, u.accepts r others = true → ∀ k, key r = some k → k ∉ others.filterMap key)
    {done rest rows : List ρ} (hunique : Unique key (done ++ rest))
    (h : u.rows selected done rest = .ok rows) : Unique key rows := by
  induction rest generalizing done with
  | nil =>
    rw [← Except.ok.inj h, ← List.append_nil done]
    exact hunique
  | cons r rest ih =>
    rw [Update.rows] at h
    by_cases hr : selected r = true
    · rw [if_pos hr] at h
      obtain ⟨r', -, h⟩ := Outcome.bind_ok.1 h
      obtain ⟨_, hacc, h⟩ := Outcome.bind_ok.1 h
      have hothers := haccepts r' _ (Outcome.require_ok.1 hacc)
      refine ih ?_ h
      have hrest : Unique key (done ++ rest) :=
        hunique.sublist (((List.sublist_cons_self r rest).append_left done).filterMap key)
      rw [Unique, List.append_assoc, List.filterMap_append, List.singleton_append, List.filterMap_cons]
      rw [Unique, List.filterMap_append] at hrest
      cases hkey : key r' with
      | none => exact hrest
      | some k =>
        rw [List.nodup_middle, List.nodup_cons, ← List.filterMap_append]
        exact ⟨hothers k hkey, List.filterMap_append ▸ hrest⟩
    · rw [if_neg hr] at h
      exact ih (by simpa using hunique) h

/-! ### The first row of each key -/

variable {γ : Type} [DecidableEq γ] (rank : ρ → ℕ) (group : ρ → γ)

/-- `… WHERE rowid IN (SELECT MIN(rowid) … GROUP BY …)`. -/
def firsts (rows : List ρ) : List ρ :=
  rows.filter fun r => decide (∀ x ∈ rows, group x = group r → rank r ≤ rank x)

variable {rank group}

theorem mem_firsts {rows : List ρ} {r : ρ} :
    r ∈ firsts rank group rows ↔ r ∈ rows ∧ ∀ x ∈ rows, group x = group r → rank r ≤ rank x := by
  rw [firsts, List.mem_filter, decide_eq_true_eq]

theorem firsts_sublist (rows : List ρ) : (firsts rank group rows).Sublist rows := List.filter_sublist

theorem nodup_firsts {rows : List ρ} (hrank : (rows.map rank).Nodup) :
    ((firsts rank group rows).map group).Nodup := by
  refine (List.nodup_map_iff_inj_on ((List.Nodup.of_map rank hrank).sublist (firsts_sublist rows))).2 ?_
  rintro r hr x hx heq
  obtain ⟨hr, hleast⟩ := mem_firsts.1 hr
  obtain ⟨hx, hleast'⟩ := mem_firsts.1 hx
  exact List.inj_on_of_nodup_map hrank hr hx (Nat.le_antisymm (hleast x hx heq.symm) (hleast' r hr heq))

/-- Every row has a first one of its key. -/
theorem exists_first {rows : List ρ} {r : ρ} (hr : r ∈ rows) :
    ∃ x ∈ firsts rank group rows, group x = group r := by
  classical
  have hsome : ∃ n, ∃ x ∈ rows, group x = group r ∧ rank x = n := ⟨rank r, r, hr, rfl, rfl⟩
  obtain ⟨x, hx, hgroup, hrank⟩ := Nat.find_spec hsome
  refine ⟨x, mem_firsts.2 ⟨hx, fun y hy hy' => ?_⟩, hgroup⟩
  rw [hrank]
  exact Nat.find_min' hsome ⟨y, hy, hy'.trans hgroup, rfl⟩

theorem firsts_eq_self {rows : List ρ} (h : (rows.map group).Nodup) : firsts rank group rows = rows := by
  refine List.filter_eq_self.2 fun r hr => ?_
  rw [decide_eq_true_eq]
  rintro x hx heq
  exact (List.inj_on_of_nodup_map h hx hr heq ▸ le_rfl : rank r ≤ rank x)

end HuntWarden.Backfill
