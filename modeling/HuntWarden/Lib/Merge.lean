import Mathlib.Data.Nat.Notation
import Mathlib.Data.List.Nodup
import Mathlib.Data.List.Perm.Basic

/-! Several streams merged into one list that keeps the first item of each key. Of what is merged, the
    items of one key in different streams are copies of each other and the items of one key in one stream
    are not, so that a merge by the key is right exactly where no stream repeats a key. -/

namespace HuntWarden.Merge

variable {α κ κ' σ : Type} [DecidableEq κ] [DecidableEq κ'] [DecidableEq σ]

/-- The items whose key has not been seen. -/
def kept (key : α → κ) : List κ → List α → List α
  | _, [] => []
  | seen, x :: xs => if key x ∈ seen then kept key seen xs else x :: kept key (key x :: seen) xs

/-- The others. -/
def dropped (key : α → κ) : List κ → List α → List α
  | _, [] => []
  | seen, x :: xs =>
    if key x ∈ seen then x :: dropped key seen xs else dropped key (key x :: seen) xs

variable {key : α → κ} {source : α → σ} {p : α → Bool} {seen seen' : List κ} {xs ys : List α} {x : α}

theorem kept_perm (key : α → κ) : ∀ (xs : List α) (seen : List κ),
    (kept key seen xs ++ dropped key seen xs).Perm xs
  | [], _ => List.Perm.nil
  | x :: xs, seen => by
      rw [kept, dropped]
      split
      · exact List.perm_middle.trans ((kept_perm key xs seen).cons x)
      · exact (kept_perm key xs _).cons x

theorem kept_subset : kept key seen xs ⊆ xs := fun _ hx =>
  (kept_perm key xs seen).subset (List.mem_append_left _ hx)

theorem key_of_mem_kept : ∀ {xs : List α} {seen : List κ}, x ∈ kept key seen xs → key x ∉ seen
  | [], _, h => by cases h
  | y :: ys, seen, h => by
      rw [kept] at h
      split at h
      · exact key_of_mem_kept h
      · next hy =>
        rcases List.mem_cons.1 h with rfl | h
        · exact hy
        · exact fun hmem => key_of_mem_kept h (List.mem_cons_of_mem _ hmem)

/-- Every key is seen or kept. -/
theorem exists_kept : ∀ {xs : List α} {seen : List κ}, x ∈ xs →
    key x ∈ seen ∨ ∃ y ∈ kept key seen xs, key y = key x
  | y :: ys, seen, h => by
      rw [kept]
      split
      · next hy =>
        rcases List.mem_cons.1 h with rfl | h
        · exact Or.inl hy
        · exact exists_kept h
      · rcases List.mem_cons.1 h with rfl | h
        · exact Or.inr ⟨x, List.mem_cons_self, rfl⟩
        · have hrest : key x ∈ key y :: seen ∨ ∃ z ∈ kept key (key y :: seen) ys, key z = key x :=
            exists_kept h
          rcases hrest with hmem | ⟨z, hz, heq⟩
          · rcases List.mem_cons.1 hmem with heq | hmem
            · exact Or.inr ⟨y, List.mem_cons_self, heq.symm⟩
            · exact Or.inl hmem
          · exact Or.inr ⟨z, List.mem_cons_of_mem _ hz, heq⟩

/-- No key is kept twice. -/
theorem nodup_kept : ∀ {xs : List α} {seen : List κ}, ((kept key seen xs).map key).Nodup
  | [], _ => List.nodup_nil
  | y :: ys, seen => by
      rw [kept]
      split
      · exact nodup_kept
      · refine List.nodup_cons.2 ⟨fun hmem => ?_, nodup_kept⟩
        obtain ⟨z, hz, heq⟩ := List.mem_map.1 hmem
        exact key_of_mem_kept hz (heq ▸ List.mem_cons_self)

/-- What is kept is the first item of its key. -/
theorem mem_kept_iff : ∀ {xs : List α} {seen : List κ}, x ∈ kept key seen xs ↔
    key x ∉ seen ∧ ∃ before after, xs = before ++ x :: after ∧ ∀ y ∈ before, key y ≠ key x
  | [], seen => by
      constructor
      · rintro ⟨⟩
      · rintro ⟨-, before, after, hsplit, -⟩
        exact absurd hsplit.symm (List.append_ne_nil_of_right_ne_nil _ (List.cons_ne_nil _ _))
  | z :: zs, seen => by
      -- an item of the rest is the first of its key when the head has another key
      have hlater : key z ≠ key x → ((∃ before after, zs = before ++ x :: after ∧ ∀ y ∈ before, key y ≠ key x) ↔
          ∃ before after, z :: zs = before ++ x :: after ∧ ∀ y ∈ before, key y ≠ key x) := fun hz => by
        constructor
        · rintro ⟨before, after, rfl, hbefore⟩
          exact ⟨z :: before, after, rfl, List.forall_mem_cons.2 ⟨hz, hbefore⟩⟩
        · rintro ⟨before, after, hsplit, hbefore⟩
          cases before with
          | nil =>
            obtain ⟨rfl, -⟩ := List.cons.inj hsplit
            exact absurd rfl hz
          | cons y before =>
            exact ⟨before, after, (List.cons.inj hsplit).2, (List.forall_mem_cons.1 hbefore).2⟩
      rw [kept]
      by_cases hz : key z ∈ seen
      · rw [if_pos hz, mem_kept_iff]
        exact and_congr_right fun hx => hlater fun heq => hx (heq ▸ hz)
      · rw [if_neg hz, List.mem_cons, mem_kept_iff, List.mem_cons, not_or]
        constructor
        · rintro (rfl | ⟨⟨hne, hx⟩, hrest⟩)
          · exact ⟨hz, [], zs, rfl, List.forall_mem_nil _⟩
          · exact ⟨hx, (hlater fun heq => hne heq.symm).1 hrest⟩
        · rintro ⟨hx, hsplit⟩
          by_cases heq : key z = key x
          · obtain ⟨before, after, hlist, hbefore⟩ := hsplit
            cases before with
            | nil => exact Or.inl (List.cons.inj hlist).1.symm
            | cons y before =>
              obtain ⟨rfl, -⟩ := List.cons.inj hlist
              exact absurd heq ((List.forall_mem_cons.1 hbefore).1)
          · exact Or.inr ⟨⟨fun h => heq h.symm, hx⟩, (hlater heq).2 hsplit⟩

/-- Only the seen keys of the items matter. -/
theorem kept_congr : ∀ {xs : List α} {seen seen' : List κ}, (∀ x ∈ xs, key x ∈ seen ↔ key x ∈ seen') →
    kept key seen xs = kept key seen' xs
  | [], _, _, _ => rfl
  | y :: ys, seen, seen', h => by
      have hrest : ∀ x ∈ ys, key x ∈ seen ↔ key x ∈ seen' := fun x hx => h x (List.mem_cons_of_mem _ hx)
      rw [kept, kept]
      by_cases hy : key y ∈ seen
      · rw [if_pos hy, if_pos ((h y List.mem_cons_self).1 hy)]
        exact kept_congr hrest
      · rw [if_neg hy, if_neg fun hy' => hy ((h y List.mem_cons_self).2 hy')]
        refine congrArg (y :: ·) (kept_congr fun x hx => ?_)
        rw [List.mem_cons, List.mem_cons, hrest x hx]

theorem kept_append : ∀ (xs ys : List α) (seen : List κ),
    kept key seen (xs ++ ys) = kept key seen xs ++ kept key (xs.map key ++ seen) ys
  | [], _, _ => rfl
  | x :: xs, ys, seen => by
      rw [List.cons_append, kept, kept]
      split
      · next hx =>
        rw [kept_append]
        refine congrArg (_ ++ ·) (kept_congr fun y _ => ?_)
        rw [List.map_cons, List.cons_append, List.mem_cons]
        exact ⟨Or.inr, fun h => h.elim (fun heq => heq ▸ List.mem_append_right _ hx) id⟩
      · rw [kept_append, List.cons_append]
        refine congrArg (_ :: _ ++ ·) (kept_congr fun y _ => ?_)
        rw [List.map_cons, List.cons_append, List.mem_append, List.mem_cons, List.mem_cons, List.mem_append]
        exact or_left_comm

/-- The order of what comes before does not matter to the others. -/
theorem mem_kept_append_perm {before before' : List α} (hperm : before.Perm before') (hx : x ∉ before) :
    x ∈ kept key [] (before ++ xs) ↔ x ∈ kept key [] (before' ++ xs) := by
  have hx' : x ∉ before' := fun hmem => hx (hperm.mem_iff.2 hmem)
  have hkeys : kept key (before.map key ++ []) xs = kept key (before'.map key ++ []) xs :=
    kept_congr fun y _ => by rw [List.append_nil, List.append_nil, (hperm.map key).mem_iff]
  rw [kept_append, kept_append, List.mem_append, List.mem_append, hkeys,
    or_iff_right fun hmem => hx (kept_subset hmem), or_iff_right fun hmem => hx' (kept_subset hmem)]

/-- Items that come again change nothing. -/
theorem kept_filter : ∀ {xs : List α} {seen : List κ}, (∀ x ∈ xs, p x = false → key x ∈ seen) →
    kept key seen (xs.filter p) = kept key seen xs
  | [], _, _ => rfl
  | y :: ys, seen, h => by
      have hrest : ∀ x ∈ ys, p x = false → key x ∈ seen := fun x hx => h x (List.mem_cons_of_mem _ hx)
      rw [List.filter_cons]
      by_cases hy : p y = true
      · rw [if_pos hy, kept, kept]
        split
        · exact kept_filter hrest
        · exact congrArg (y :: ·) (kept_filter fun x hx hpx => List.mem_cons_of_mem _ (hrest x hx hpx))
      · rw [if_neg hy, kept, if_pos (h y List.mem_cons_self (Bool.eq_false_iff.2 hy))]
        exact kept_filter hrest

/-- What the key decides may be decided before or after the merge. -/
theorem filter_kept (hp : ∀ x y, key x = key y → p x = p y) : ∀ {xs : List α} {seen : List κ},
    (kept key seen xs).filter p = kept key seen (xs.filter p)
  | [], _ => rfl
  | y :: ys, seen => by
      rw [kept, List.filter_cons]
      by_cases hy : key y ∈ seen
      · rw [if_pos hy, filter_kept hp]
        split
        · rw [kept, if_pos hy]
        · rfl
      · rw [if_neg hy, List.filter_cons]
        by_cases hpy : p y = true
        · rw [if_pos hpy, if_pos hpy, kept, if_neg hy, filter_kept hp]
        · rw [if_neg hpy, if_neg hpy, filter_kept hp]
          refine kept_congr fun x hx => ?_
          rw [List.mem_cons, or_iff_right]
          intro heq
          exact hpy ((hp x y heq).symm.trans (List.mem_filter.1 hx).2)

/-- Two keys that tell the same items apart keep the same. -/
theorem kept_key_congr {key' : α → κ'} (h : ∀ x y, key x = key y ↔ key' x = key' y) :
    ∀ (xs known : List α), kept key (known.map key) xs = kept key' (known.map key') xs
  | [], _ => rfl
  | x :: xs, known => by
      have hmem : key x ∈ known.map key ↔ key' x ∈ known.map key' := by
        rw [List.mem_map, List.mem_map]
        exact exists_congr fun y => and_congr_right fun _ => h y x
      rw [kept, kept]
      exact if_congr hmem (kept_key_congr h xs known) (congrArg (x :: ·) (kept_key_congr h xs (x :: known)))

theorem kept_map {β : Type} (f : β → α) : ∀ (xs : List β) (seen : List κ),
    kept key seen (xs.map f) = (kept (fun x => key (f x)) seen xs).map f
  | [], _ => rfl
  | x :: xs, seen => by
      rw [List.map_cons, kept, kept]
      split
      · exact kept_map f xs seen
      · rw [List.map_cons, kept_map f xs]

/-- A stream read by one condition and again by another one: what comes again is left out. -/
theorem kept_reread (p q : α → Bool) (xs ys : List α) :
    kept key [] (xs.filter p ++ xs.filter q ++ ys) =
      kept key [] (xs.filter p ++ (xs.filter q).filter (fun x => !p x) ++ ys) := by
  rw [kept_append, kept_append, kept_append (_ ++ _), kept_append (List.filter p xs)]
  refine congrArg₂ (· ++ ·) (congrArg (_ ++ ·) (kept_filter fun x hx hpx => ?_).symm) (kept_congr fun y _ => ?_)
  · have hp : p x = true := by simpa using hpx
    exact List.mem_append_left _ (List.mem_map_of_mem (List.mem_filter.2 ⟨(List.mem_filter.1 hx).1, hp⟩))
  · rw [List.append_nil, List.append_nil, List.map_append, List.map_append, List.mem_append, List.mem_append]
    constructor
    · rintro (h | h)
      · exact Or.inl h
      · obtain ⟨x, hx, heq⟩ := List.mem_map.1 h
        by_cases hp : p x = true
        · exact Or.inl (List.mem_map.2 ⟨x, List.mem_filter.2 ⟨(List.mem_filter.1 hx).1, hp⟩, heq⟩)
        · exact Or.inr (List.mem_map.2 ⟨x, List.mem_filter.2 ⟨hx, by simpa using hp⟩, heq⟩)
    · rintro (h | h)
      · exact Or.inl h
      · obtain ⟨x, hx, heq⟩ := List.mem_map.1 h
        exact Or.inr (List.mem_map.2 ⟨x, (List.mem_filter.1 hx).1, heq⟩)

/-- Read by one condition and then by the other one alone, it is read by either. -/
theorem filter_or_perm (p q : α → Bool) : ∀ xs : List α,
    (xs.filter p ++ (xs.filter q).filter (fun x => !p x)).Perm (xs.filter fun x => p x || q x)
  | [] => List.Perm.nil
  | x :: xs => by
      have ih := filter_or_perm p q xs
      cases hp : p x <;> cases hq : q x
      · simpa [hp, hq] using ih
      · have hmiddle := List.perm_middle.trans (ih.cons x)
        simpa [hp, hq] using hmiddle
      · simpa [hp, hq] using ih
      · simpa [hp, hq] using ih

/-- As many are kept as there are keys. -/
theorem length_kept_congr (h : ∀ k, k ∈ xs.map key ↔ k ∈ ys.map key) :
    (kept key [] xs).length = (kept key [] ys).length := by
  have hkeys : ∀ (zs : List α) (k : κ), k ∈ (kept key [] zs).map key ↔ k ∈ zs.map key := fun zs k => by
    rw [List.mem_map, List.mem_map]
    constructor
    · rintro ⟨x, hx, heq⟩
      exact ⟨x, kept_subset hx, heq⟩
    · rintro ⟨x, hx, rfl⟩
      exact (exists_kept hx).resolve_left List.not_mem_nil
  have hperm : ((kept key [] xs).map key).Perm ((kept key [] ys).map key) :=
    (List.perm_ext_iff_of_nodup nodup_kept nodup_kept).2 fun k => by rw [hkeys, hkeys, h]
  have hlength := hperm.length_eq
  rwa [List.length_map, List.length_map] at hlength

/-! ### When a merge is right -/

/-- How often a stream has a key. -/
def occurrences (key : α → κ) (source : α → σ) (s : σ) (k : κ) (items : List α) : ℕ :=
  items.countP fun x => source x = s ∧ key x = k

/-- What is left out is a copy of an item of another stream, no key is rarer in the result than in one of
    the streams, and none is more frequent there than in all of them. -/
structure Faithful (key : α → κ) (source : α → σ) (items collected : List α) : Prop where
  copied : ∃ dropped, (collected ++ dropped).Perm items ∧
    ∀ x ∈ dropped, ∃ y ∈ collected, key y = key x ∧ source y ≠ source x
  repeated : ∀ s k, occurrences key source s k items ≤ collected.countP fun x => key x = k
  once : ∀ x ∈ collected, ∃ s, (collected.countP fun y => key y = key x) =
    occurrences key source s (key x) items

/-- No stream has a key twice. -/
def Unrepeated (key : α → κ) (source : α → σ) (items : List α) : Prop :=
  ∀ s k, occurrences key source s k items ≤ 1

theorem unrepeated_iff_nodup {items : List α} :
    Unrepeated key source items ↔ (items.map fun x => (source x, key x)).Nodup := by
  have hcount : ∀ s k, (items.map fun x => (source x, key x)).count (s, k) = occurrences key source s k items :=
    fun s k => by
      rw [List.count, List.countP_map, occurrences]
      refine List.countP_congr fun x _ => ?_
      simp
  rw [List.nodup_iff_count_le_one, Prod.forall]
  exact forall_congr' fun s => forall_congr' fun k => by rw [hcount]

instance (items : List α) : Decidable (Unrepeated key source items) :=
  decidable_of_iff _ unrepeated_iff_nodup.symm

theorem Faithful.perm {items items' collected : List α} (h : Faithful key source items collected)
    (hperm : items.Perm items') : Faithful key source items' collected where
  copied := by
    obtain ⟨dropped, hdropped, hcopied⟩ := h.copied
    exact ⟨dropped, hdropped.trans hperm, hcopied⟩
  repeated s k := by
    rw [occurrences, ← hperm.countP_eq]
    exact h.repeated s k
  once x hx := by
    obtain ⟨s, hs⟩ := h.once x hx
    refine ⟨s, ?_⟩
    rw [occurrences, ← hperm.countP_eq]
    exact hs

theorem Unrepeated.perm {items items' : List α} (h : Unrepeated key source items)
    (hperm : items.Perm items') : Unrepeated key source items' := fun s k => by
  rw [occurrences, ← hperm.countP_eq]
  exact h s k

theorem countP_kept_le (key : α → κ) (xs : List α) (k : κ) :
    ((kept key [] xs).countP fun x => key x = k) ≤ 1 := by
  have hcount : ((kept key [] xs).map key).count k ≤ 1 := List.nodup_iff_count_le_one.1 nodup_kept k
  rw [List.count, List.countP_map] at hcount
  exact Nat.le_trans (List.countP_mono_left fun x _ h => by simpa using h) hcount

theorem countP_kept_pos (h : x ∈ xs) : 0 < (kept key [] xs).countP fun y => key y = key x := by
  rcases @exists_kept _ _ _ key x xs [] h with hmem | ⟨y, hy, heq⟩
  · cases hmem
  · exact List.countP_pos_iff.2 ⟨y, hy, decide_eq_true heq⟩

/-- The merge that keeps the first item of each key is right exactly where no stream repeats a key. -/
theorem faithful_kept_iff (items : List α) :
    Faithful key source items (kept key [] items) ↔ Unrepeated key source items := by
  constructor
  · exact fun h s k => Nat.le_trans (h.repeated s k) (countP_kept_le key items k)
  · intro h
    refine ⟨⟨dropped key [] items, kept_perm key items [], fun x hx => ?_⟩, fun s k => ?_, fun x hx => ?_⟩
    · have hmem : x ∈ items := (kept_perm key items []).subset (List.mem_append_right _ hx)
      rcases @exists_kept _ _ _ key x items [] hmem with hnil | ⟨y, hy, heq⟩
      · cases hnil
      refine ⟨y, hy, heq, fun hsource => ?_⟩
      -- both would be items of one stream with one key
      have htwice : 2 ≤ occurrences key source (source x) (key x) items := by
        rw [occurrences, ← (kept_perm key items []).countP_eq, List.countP_append]
        have hkept := List.countP_pos_iff (p := fun z => decide (source z = source x ∧ key z = key x)).2
          ⟨y, hy, decide_eq_true ⟨hsource, heq⟩⟩
        have hdropped := List.countP_pos_iff (p := fun z => decide (source z = source x ∧ key z = key x)).2
          ⟨x, hx, decide_eq_true ⟨rfl, rfl⟩⟩
        omega
      exact absurd (h (source x) (key x)) (by omega)
    · by_cases hnone : occurrences key source s k items = 0
      · omega
      · obtain ⟨x, hx, hprop⟩ := List.countP_pos_iff.1 (Nat.pos_of_ne_zero hnone)
        obtain ⟨-, rfl⟩ := of_decide_eq_true hprop
        exact Nat.le_trans (h s (key x)) (countP_kept_pos hx)
    · have hmem : x ∈ items := kept_subset hx
      refine ⟨source x, Nat.le_antisymm ?_ ?_⟩
      · refine Nat.le_trans (countP_kept_le key items (key x)) ?_
        exact List.countP_pos_iff.2 ⟨x, hmem, decide_eq_true ⟨rfl, rfl⟩⟩
      · exact Nat.le_trans (h (source x) (key x)) (countP_kept_pos hmem)

/-- The same of the items in any order. -/
theorem faithful_perm_iff {items items' : List α} (hperm : items'.Perm items) :
    Faithful key source items (kept key [] items') ↔ Unrepeated key source items :=
  ⟨fun h => ((faithful_kept_iff items').1 (h.perm hperm.symm)).perm hperm,
    fun h => ((faithful_kept_iff items').2 (h.perm hperm.symm)).perm hperm⟩

end HuntWarden.Merge
