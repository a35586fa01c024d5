import Mathlib.Data.Nat.Notation
import Mathlib.Data.List.Basic

/-! Bisection for the largest number with a property. Each probe decides on which side the search goes on,
    as if the numbers with the property came first; so the largest one is found exactly where no probe on
    the way to it says otherwise. -/

namespace HuntWarden.Bisect

variable {fits : ℕ → Bool}

/-- The number in the middle of those from `low` on below `stop`. -/
def middle (low stop : ℕ) : ℕ := (low + (stop - 1)) / 2

theorem le_middle {low stop : ℕ} (h : low < stop) : low ≤ middle low stop := by
  rw [middle]
  omega

theorem middle_lt {low stop : ℕ} (h : low < stop) : middle low stop < stop := by
  rw [middle]
  omega

/-- The last probe that has the property, and `best` when there is none. -/
def search (fits : ℕ → Bool) (low stop : ℕ) (best : Option ℕ) : Option ℕ :=
  if low < stop then
    if fits (middle low stop) then search fits (middle low stop + 1) stop (some (middle low stop))
    else search fits low (middle low stop) best
  else best
termination_by stop - low
decreasing_by
  all_goals
    rename_i h _
    have := le_middle h
    have := middle_lt h
    omega

/-- The probes of a search that goes to the target. -/
def probes (target low stop : ℕ) : List ℕ :=
  if low < stop then
    middle low stop :: if middle low stop ≤ target then probes target (middle low stop + 1) stop
      else probes target low (middle low stop)
  else []
termination_by stop - low
decreasing_by
  all_goals
    rename_i h _
    have := le_middle h
    have := middle_lt h
    omega

theorem low_le_probe {target low stop m : ℕ} (h : m ∈ probes target low stop) : low ≤ m := by
  rw [probes] at h
  by_cases hlt : low < stop
  · have hle := le_middle hlt
    have hmiddle := middle_lt hlt
    rw [if_pos hlt] at h
    rcases List.mem_cons.1 h with rfl | h
    · exact hle
    · by_cases htarget : middle low stop ≤ target
      · rw [if_pos htarget] at h
        have := low_le_probe h
        omega
      · rw [if_neg htarget] at h
        exact low_le_probe h
  · rw [if_neg hlt] at h
    cases h
termination_by stop - low

/-- The largest number below `stop` that has the property. -/
structure Largest (fits : ℕ → Bool) (stop k : ℕ) : Prop where
  below : k < stop
  here : fits k = true
  later : ∀ m, k < m → m < stop → fits m = false

theorem search_mem {low stop r : ℕ} {best : Option ℕ} (h : search fits low stop best = some r) :
    best = some r ∨ low ≤ r ∧ r < stop ∧ fits r = true := by
  rw [search] at h
  by_cases hlt : low < stop
  · have hle := le_middle hlt
    have hmiddle := middle_lt hlt
    rw [if_pos hlt] at h
    by_cases hfits : fits (middle low stop) = true
    · rw [if_pos hfits] at h
      rcases search_mem h with hbest | ⟨hlow, hstop, hr⟩
      · obtain rfl := Option.some.inj hbest
        exact Or.inr ⟨hle, hmiddle, hfits⟩
      · exact Or.inr ⟨by omega, hstop, hr⟩
    · rw [if_neg hfits] at h
      rcases search_mem h with hbest | ⟨hlow, hstop, hr⟩
      · exact Or.inl hbest
      · exact Or.inr ⟨hlow, by omega, hr⟩
  · rw [if_neg hlt] at h
    exact Or.inl h
termination_by stop - low

/-- Where nothing has the property, the search ends with what it has. -/
theorem search_nothing {low stop : ℕ} {best : Option ℕ} (h : ∀ m, low ≤ m → m < stop → fits m = false) :
    search fits low stop best = best := by
  rw [search]
  by_cases hlt : low < stop
  · have hle := le_middle hlt
    have hmiddle := middle_lt hlt
    rw [if_pos hlt, if_neg (Bool.eq_false_iff.1 (h _ hle hmiddle))]
    exact search_nothing fun m hlow hstop => h m hlow (by omega)
  · exact if_neg hlt
termination_by stop - low

/-- The largest number is found exactly where the probes on the way to it, as far as it, have the property. -/
theorem search_eq_some_iff {low stop k : ℕ} {best : Option ℕ} (h : Largest fits stop k) (hlow : low ≤ k)
    (hbest : ∀ b ∈ best, b < low) :
    search fits low stop best = some k ↔ ∀ m ∈ probes k low stop, m ≤ k → fits m = true := by
  have hlt : low < stop := Nat.lt_of_le_of_lt hlow h.below
  have hle := le_middle hlt
  have hmiddle := middle_lt hlt
  rw [search, probes, if_pos hlt, if_pos hlt, List.forall_mem_cons]
  by_cases hfits : fits (middle low stop) = true
  · have hreach : middle low stop ≤ k := by
      by_contra hnot
      rw [h.later _ (Nat.lt_of_not_le hnot) hmiddle] at hfits
      cases hfits
    rw [if_pos hfits, if_pos hreach, and_iff_right fun _ => hfits]
    rcases Nat.lt_or_eq_of_le hreach with hbefore | heq
    · exact search_eq_some_iff h hbefore fun b hb => by
        obtain rfl := Option.mem_some_iff.1 hb
        exact Nat.lt_succ_self _
    · -- the target itself was probed
      rw [search_nothing fun m hm hstop => h.later m (by omega) hstop]
      refine iff_of_true (congrArg some heq) fun m hm hmk => ?_
      have hpast := low_le_probe hm
      omega
  · rw [if_neg hfits]
    by_cases hreach : middle low stop ≤ k
    · refine iff_of_false (fun hsearch => ?_) fun hall => hfits (hall.1 hreach)
      rcases search_mem hsearch with heq | ⟨-, hbelow, -⟩
      · exact absurd (hbest k heq) (Nat.not_lt.2 hlow)
      · omega
    · rw [if_neg hreach, and_iff_right fun hle => absurd hle hreach]
      refine search_eq_some_iff ⟨by omega, h.here, fun m hkm hm => h.later m hkm (by omega)⟩ hlow hbest
termination_by stop - low

end HuntWarden.Bisect
