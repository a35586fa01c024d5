import HuntWarden.Lib.Outcome
import Mathlib.Algebra.GroupWithZero.Nat
import Mathlib.Algebra.BigOperators.Group.List.Basic
import Mathlib.Data.List.Nodup

/-! Chains of pages. Every request goes on where the cursor of the page before points, until a page has
    no cursor. What a cursor leaves to be read is a list, `rest`; a page serves the front of it. On a
    source that stays as it is, the pages put end to end are the whole source (`follow_exact`); on one
    that changes, an entry is served once as long as it does not cross a cursor (`follow_once`). -/

namespace HuntWarden.Chain

open Outcome

variable {ε κ α η μ π ι : Type}

/-! ### Scanning -/

/-- What a scan keeps of the entries it looks at. -/
def collect (look : ε → Except η (Option α)) : List ε → Except η (List α)
  | [] => .ok []
  | e :: es => do
    let found ← look e
    let rest ← collect look es
    return found.toList ++ rest

variable {look : ε → Except η (Option α)}

theorem collect_cons {e : ε} {es : List ε} {found : List α} :
    collect look (e :: es) = .ok found ↔
      ∃ first, look e = .ok first ∧ ∃ rest, collect look es = .ok rest ∧
        found = first.toList ++ rest := by
  rw [collect, bind_ok]
  refine exists_congr fun first => and_congr_right fun _ => ?_
  rw [bind_ok]
  refine exists_congr fun rest => and_congr_right fun _ => ?_
  rw [pure_ok, eq_comm]

theorem collect_append {es es' : List ε} {found : List α} :
    collect look (es ++ es') = .ok found ↔
      ∃ front back, collect look es = .ok front ∧ collect look es' = .ok back ∧
        found = front ++ back := by
  induction es generalizing found with
  | nil => simp [collect]
  | cons e es ih =>
    rw [List.cons_append, collect_cons]
    constructor
    · rintro ⟨first, hfirst, rest, hrest, rfl⟩
      obtain ⟨front, back, hfront, hback, rfl⟩ := ih.1 hrest
      refine ⟨first.toList ++ front, back, collect_cons.2 ⟨first, hfirst, front, hfront, rfl⟩, hback, ?_⟩
      rw [List.append_assoc]
    · rintro ⟨front, back, hfront, hback, rfl⟩
      obtain ⟨first, hfirst, rest, hrest, rfl⟩ := collect_cons.1 hfront
      refine ⟨first, hfirst, rest ++ back, ih.2 ⟨rest, back, hrest, hback, rfl⟩, ?_⟩
      rw [List.append_assoc]

theorem mem_collect {es : List ε} {found : List α} (h : collect look es = .ok found) {a : α} :
    a ∈ found ↔ ∃ e ∈ es, look e = .ok (some a) := by
  induction es generalizing found with
  | nil =>
    cases h
    simp
  | cons e es ih =>
    obtain ⟨first, hfirst, rest, hrest, rfl⟩ := collect_cons.1 h
    rw [List.mem_append, ih hrest, List.exists_mem_cons_iff, hfirst, Except.ok.injEq, Option.mem_toList]

theorem length_collect {es : List ε} {found : List α} (h : collect look es = .ok found) :
    found.length ≤ es.length := by
  induction es generalizing found with
  | nil =>
    cases h
    exact Nat.le_refl _
  | cons e es ih =>
    obtain ⟨first, -, rest, hrest, rfl⟩ := collect_cons.1 h
    have hle := ih hrest
    have hfirst : first.toList.length ≤ 1 := by cases first <;> simp
    rw [List.length_append, List.length_cons]
    omega

/-! ### Following the cursors -/

section Follow

variable (next : π → Option κ) (request : μ → Option κ → Except η π)

/-- One request for each moment, until a page has no cursor. -/
def follow : List μ → Option κ → Except η (List π)
  | [], _ => .ok []
  | m :: ms, c => request m c >>= fun p =>
    match next p with
    | none => .ok [p]
    | some c' => (follow ms (some c')).map (p :: ·)

/-- The chain has come to its end. -/
def Ended (pages : List π) : Prop := ∃ p ∈ pages.getLast?, next p = none

variable {next request}

theorem follow_cons {m : μ} {ms : List μ} {c : Option κ} {pages : List π} :
    follow next request (m :: ms) c = .ok pages ↔
      ∃ p, request m c = .ok p ∧
        ((next p = none ∧ pages = [p]) ∨
          ∃ c', next p = some c' ∧ ∃ rest, follow next request ms (some c') = .ok rest ∧
            pages = p :: rest) := by
  rw [follow, bind_ok]
  refine exists_congr fun p => and_congr_right fun _ => ?_
  cases hnext : next p with
  | none => simp [eq_comm]
  | some c' =>
    have hmap : (follow next request ms (some c')).map (p :: ·) = .ok pages ↔
        ∃ rest, follow next request ms (some c') = .ok rest ∧ pages = p :: rest := by
      generalize follow next request ms (some c') = tail
      cases tail <;> simp [Except.map, eq_comm]
    simpa using hmap

theorem ended_cons {p : π} {c' : κ} (h : next p = some c') {rest : List π} :
    Ended next (p :: rest) ↔ Ended next rest := by
  cases rest with
  | nil => simp [Ended, h]
  | cons q rest => rw [Ended, List.getLast?_cons_cons, Ended]

/-- Only the last page can be without a cursor. -/
theorem follow_cursors {ms : List μ} {c : Option κ} {pages : List π}
    (h : follow next request ms c = .ok pages) : ∀ p ∈ pages.dropLast, (next p).isSome := by
  induction ms generalizing c pages with
  | nil =>
    cases h
    simp
  | cons m ms ih =>
    obtain ⟨p, -, ⟨-, rfl⟩ | ⟨c', hc', rest, hrest, rfl⟩⟩ := follow_cons.1 h
    · simp
    · cases rest with
      | nil => simp
      | cons q rest =>
        rw [List.dropLast_cons_cons, List.forall_mem_cons]
        exact ⟨by rw [hc']; rfl, ih hrest⟩

/-- Every page is the answer to one of the requests. -/
theorem follow_mem {ms : List μ} {c : Option κ} {pages : List π}
    (h : follow next request ms c = .ok pages) : ∀ p ∈ pages, ∃ m ∈ ms, ∃ c, request m c = .ok p := by
  induction ms generalizing c pages with
  | nil =>
    cases h
    simp
  | cons m ms ih =>
    obtain ⟨p, hp, ⟨-, rfl⟩ | ⟨c', -, rest, hrest, rfl⟩⟩ := follow_cons.1 h
    · rw [List.forall_mem_singleton]
      exact ⟨m, List.mem_cons_self .., c, hp⟩
    · rw [List.forall_mem_cons]
      refine ⟨⟨m, List.mem_cons_self .., c, hp⟩, fun q hq => ?_⟩
      obtain ⟨m', hm', hq⟩ := ih hrest q hq
      exact ⟨m', List.mem_cons_of_mem _ hm', hq⟩

end Follow

/-! ### What a page serves -/

section Serves

variable {items : π → List α} {scanned : π → ℕ} {next : π → Option κ}

/-- The page visited the front of what its cursor left, and its own cursor leaves the remainder. -/
structure Serves (look : ε → Except η (Option α)) (rest : Option κ → List ε) (items : π → List α)
    (scanned : π → ℕ) (next : π → Option κ) (c : Option κ) (p : π) (visited : List ε) : Prop where
  found : collect look visited = .ok (items p)
  count : scanned p = visited.length
  whole : next p = none → rest c = visited
  front : ∀ c', next p = some c' → rest c = visited ++ rest (some c')

/-- A finished chain on a source that stays as it is has read all that its first cursor left. -/
theorem follow_exact {rest : Option κ → List ε} {m : μ} {request : μ → Option κ → Except η π} :
    ∀ {n : ℕ} {c : Option κ} {pages : List π},
      (∀ p ∈ pages, ∀ c, request m c = .ok p →
        ∃ visited, Serves look rest items scanned next c p visited) →
      follow next request (List.replicate n m) c = .ok pages → Ended next pages →
        collect look (rest c) = .ok (pages.flatMap items) ∧
          (pages.map scanned).sum = (rest c).length
  | 0, _, _, _, h, hended => by
      cases h
      obtain ⟨p, hp, -⟩ := hended
      cases hp
  | n + 1, c, pages, hserves, h, hended => by
      rw [List.replicate_succ] at h
      obtain ⟨p, hp, ⟨hnone, rfl⟩ | ⟨c', hc', pages', hrest, rfl⟩⟩ := follow_cons.1 h
      · obtain ⟨visited, hv⟩ := hserves p (List.mem_cons_self ..) c hp
        rw [hv.whole hnone]
        simp [hv.found, hv.count]
      · obtain ⟨visited, hv⟩ := hserves p (List.mem_cons_self ..) c hp
        rw [ended_cons hc'] at hended
        obtain ⟨hcollect, hsum⟩ := follow_exact
          (fun q hq => hserves q (List.mem_cons_of_mem _ hq)) hrest hended
        rw [hv.front c' hc', List.flatMap_cons, List.map_cons, List.sum_cons, List.length_append, hsum,
          hv.count]
        exact ⟨collect_append.2 ⟨_, _, hv.found, hcollect, rfl⟩, rfl⟩

/-- A chain comes to an end when every valid cursor gives a page, and a page with a cursor has visited
    something and its cursor is valid. -/
theorem follow_ends {rest : Option κ → List ε} {m : μ} {request : μ → Option κ → Except η π}
    {Valid : Option κ → Prop}
    (hpage : ∀ c, Valid c → ∃ p, request m c = .ok p ∧ ∀ c', next p = some c' →
      Valid (some c') ∧ (rest (some c')).length < (rest c).length) :
    ∀ {n : ℕ} {c : Option κ}, Valid c → (rest c).length < n →
      ∃ pages, follow next request (List.replicate n m) c = .ok pages ∧ Ended next pages
  | 0, _, _, h => absurd h (Nat.not_lt_zero _)
  | n + 1, c, hc, h => by
      obtain ⟨p, hp, hnext⟩ := hpage c hc
      rw [List.replicate_succ]
      cases hn : next p with
      | none => exact ⟨[p], follow_cons.2 ⟨p, hp, Or.inl ⟨hn, rfl⟩⟩, p, rfl, hn⟩
      | some c' =>
        obtain ⟨hvalid, hlt⟩ := hnext c' hn
        obtain ⟨pages, hpages, hended⟩ := follow_ends hpage hvalid (by omega : _ < n)
        exact ⟨p :: pages, follow_cons.2 ⟨p, hp, Or.inr ⟨c', hn, pages, hpages, rfl⟩⟩,
          (ended_cons hn).2 hended⟩

end Serves

/-- What a look finds is among all that is found. -/
theorem found_of_collect {es : List ε} {found : List α} (h : collect look es = .ok found) {e : ε}
    (he : e ∈ es) : ∃ first, look e = .ok first ∧ first.toList ⊆ found := by
  induction es generalizing found with
  | nil => cases he
  | cons e' es ih =>
    obtain ⟨first, hfirst, rest, hrest, rfl⟩ := collect_cons.1 h
    rcases List.mem_cons.1 he with rfl | he
    · exact ⟨first, hfirst, List.subset_append_left ..⟩
    · obtain ⟨later, hlater, hsub⟩ := ih hrest he
      exact ⟨later, hlater, List.subset_append_of_subset_right _ hsub⟩

/-! ### Chains whose requests differ -/

section Along

variable {items : π → List α} {scanned : π → ℕ} {next : π → Option κ}
  {request : μ → Option κ → Except η π} {C : μ → Option κ → Prop}

/-- The condition holds of every request of the chain. -/
def Along (next : π → Option κ) (request : μ → Option κ → Except η π) (C : μ → Option κ → Prop) :
    List μ → Option κ → Prop
  | [], _ => True
  | m :: ms, c => C m c ∧ ∀ p, request m c = .ok p → ∀ c', next p = some c' →
      Along next request C ms (some c')

/-- Requests whose pages serve the same entries, and each of which moves on: a chain of more of them than
    there are entries comes to its end, and every entry has been looked at by one of them. -/
theorem follow_visits {look : μ → ε → Except η (Option α)} {rest : Option κ → List ε} {ms : List μ}
    {c : Option κ} {pages : List π}
    (hserves : ∀ m ∈ ms, ∀ c p, C m c → request m c = .ok p →
      ∃ visited, Serves (look m) rest items scanned next c p visited ∧ (next p ≠ none → visited ≠ []))
    (halong : Along next request C ms c) (h : follow next request ms c = .ok pages)
    (hn : (rest c).length < ms.length) :
    Ended next pages ∧ (pages.map scanned).sum = (rest c).length ∧
      ∀ e ∈ rest c, ∃ m ∈ ms, ∃ p ∈ pages, ∃ found, look m e = .ok found ∧ found.toList ⊆ items p := by
  induction ms generalizing c pages with
  | nil => cases hn
  | cons m ms ih =>
    obtain ⟨hC, halong⟩ := halong
    obtain ⟨p, hp, hcase⟩ := follow_cons.1 h
    obtain ⟨visited, hv, hmoves⟩ := hserves m (List.mem_cons_self ..) c p hC hp
    have hfound : ∀ e ∈ visited, ∃ found, look m e = .ok found ∧ found.toList ⊆ items p :=
      fun e he => found_of_collect hv.found he
    rcases hcase with ⟨hnone, rfl⟩ | ⟨c', hc', pages', hrest, rfl⟩
    · rw [hv.whole hnone]
      refine ⟨⟨p, rfl, hnone⟩, ?_, fun e he => ?_⟩
      · rw [List.map_singleton, List.sum_singleton, hv.count]
      · exact ⟨m, List.mem_cons_self .., p, List.mem_cons_self .., hfound e he⟩
    · have hfront := hv.front c' hc'
      have hsome : next p ≠ none := by
        rw [hc']
        exact Option.some_ne_none _
      have hpositive : 0 < visited.length := List.length_pos_iff.2 (hmoves hsome)
      rw [hfront, List.length_append, List.length_cons] at hn
      obtain ⟨hended, hsum, hlater⟩ := ih
        (fun m' hm' => hserves m' (List.mem_cons_of_mem _ hm')) (halong p hp c' hc') hrest (by omega)
      refine ⟨(ended_cons hc').2 hended, ?_, fun e he => ?_⟩
      · rw [List.map_cons, List.sum_cons, hsum, hv.count, hfront, List.length_append]
      · rw [hfront] at he
        rcases List.mem_append.1 he with he | he
        · exact ⟨m, List.mem_cons_self .., p, List.mem_cons_self .., hfound e he⟩
        · obtain ⟨m', hm', q, hq, hlook⟩ := hlater e he
          exact ⟨m', List.mem_cons_of_mem _ hm', q, List.mem_cons_of_mem _ hq, hlook⟩

end Along

/-! ### Sources that change -/

section Changing

variable {items : π → List α} {scanned : π → ℕ} {next : π → Option κ}
  {request : μ → Option κ → Except η π}

/-- The condition holds of every two moments that follow each other, and of the cursor between them. -/
def Across (next : π → Option κ) (request : μ → Option κ → Except η π) (C : μ → μ → κ → Prop) :
    List μ → Option κ → Prop
  | m :: m' :: ms, c =>
    ∀ p, request m c = .ok p → ∀ c', next p = some c' →
      C m m' c' ∧ Across next request C (m' :: ms) (some c')
  | _, _ => True

variable [BEq ι] [LawfulBEq ι] {look : μ → ε → Except η (Option α)} {rest : μ → Option κ → List ε}
  {key : μ → ε → ι} {keyOf : α → ι}

theorem count_collect {look : ε → Except η (Option α)} {key : ε → ι} {i : ι}
    (hkey : ∀ e a, look e = .ok (some a) → keyOf a = key e) {es : List ε} {found : List α}
    (hshown : ∀ e ∈ es, key e = i → ∃ a, look e = .ok (some a)) (h : collect look es = .ok found) :
    (found.map keyOf).count i = (es.map key).count i := by
  induction es generalizing found with
  | nil =>
    cases h
    rfl
  | cons e es ih =>
    obtain ⟨first, hfirst, rest, hrest, rfl⟩ := collect_cons.1 h
    have hcount := ih (fun e' he' => hshown e' (List.mem_cons_of_mem _ he')) hrest
    rw [List.map_append, List.count_append, hcount, List.map_cons, List.count_cons, Nat.add_comm]
    congr 1
    cases first with
    | some a => rw [Option.toList_some, List.map_singleton, hkey e a hfirst, List.count_singleton]
    | none =>
      have hne : key e ≠ i := by
        intro hi
        obtain ⟨a, ha⟩ := hshown e (List.mem_cons_self ..) hi
        rw [hfirst] at ha
        cases ha
      rw [if_neg (by simpa using hne)]
      rfl

/-- An entry that is there throughout and never crosses a cursor is served as often as the first cursor
    leaves it to be read. -/
theorem follow_once {i : ι}
    (hkey : ∀ m e a, look m e = .ok (some a) → keyOf a = key m e) :
    ∀ {ms : List μ} {m : μ} {c : Option κ} {pages : List π},
      (∀ m' ∈ m :: ms, ∀ c p, request m' c = .ok p →
        ∃ visited, Serves (look m') (rest m') items scanned next c p visited) →
      (∀ m' ∈ m :: ms, ∀ c, ∀ e ∈ rest m' c, key m' e = i → ∃ a, look m' e = .ok (some a)) →
      Across next request (fun m m' c' => ((rest m' (some c')).map (key m')).count i =
        ((rest m (some c')).map (key m)).count i) (m :: ms) c →
      follow next request (m :: ms) c = .ok pages → Ended next pages →
        ((pages.flatMap items).map keyOf).count i = ((rest m c).map (key m)).count i := by
  intro ms
  induction ms with
  | nil =>
    intro m c pages hserves hshown _ h hended
    obtain ⟨p, hp, ⟨hnone, rfl⟩ | ⟨c', hc', _, hrest, rfl⟩⟩ := follow_cons.1 h
    · obtain ⟨visited, hv⟩ := hserves m (List.mem_cons_self ..) c p hp
      rw [List.flatMap_singleton, hv.whole hnone]
      exact count_collect (hkey m) (hv.whole hnone ▸ hshown m (List.mem_cons_self ..) c) hv.found
    · cases hrest
      rw [ended_cons hc'] at hended
      obtain ⟨_, ⟨⟩, -⟩ := hended
  | cons m' ms ih =>
    intro m c pages hserves hshown hacross h hended
    obtain ⟨p, hp, ⟨hnone, rfl⟩ | ⟨c', hc', pages', hrest, rfl⟩⟩ := follow_cons.1 h
    · obtain ⟨visited, hv⟩ := hserves m (List.mem_cons_self ..) c p hp
      rw [List.flatMap_singleton, hv.whole hnone]
      exact count_collect (hkey m) (hv.whole hnone ▸ hshown m (List.mem_cons_self ..) c) hv.found
    · obtain ⟨visited, hv⟩ := hserves m (List.mem_cons_self ..) c p hp
      have hfront := hv.front c' hc'
      obtain ⟨hstays, hacross⟩ := hacross p hp c' hc'
      have hcount : ((items p).map keyOf).count i = (visited.map (key m)).count i :=
        count_collect (hkey m) (fun e he => hshown m (List.mem_cons_self ..) c e
          (hfront ▸ List.mem_append_left _ he)) hv.found
      rw [ended_cons hc'] at hended
      have hlater := ih (fun m₁ hm₁ => hserves m₁ (List.mem_cons_of_mem _ hm₁))
        (fun m₁ hm₁ => hshown m₁ (List.mem_cons_of_mem _ hm₁)) hacross hrest hended
      rw [List.flatMap_cons, List.map_append, List.count_append, hcount, hlater, hstays, hfront,
        List.map_append, List.count_append]

end Changing

end HuntWarden.Chain
