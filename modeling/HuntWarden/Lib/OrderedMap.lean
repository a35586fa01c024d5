import Mathlib.Algebra.GroupWithZero.Nat
import Mathlib.Algebra.BigOperators.Group.List.Basic
import Mathlib.Data.List.Basic
import Mathlib.Data.List.Induction
import Mathlib.Data.List.Nodup

/-! Maps that list their keys in the order of first insertion, as the maps of a scripting language do,
    and what is built from them: the grouping of a list by a key, and a graph given by its successor
    sets with the depth-first search along it. -/

namespace HuntWarden.OrderedMap

variable {κ ν α : Type} [DecidableEq κ]

/-- `map.set(key, update(map.get(key)))`. -/
def upsert (key : κ) (update : Option ν → ν) : List (κ × ν) → List (κ × ν)
  | [] => [(key, update none)]
  | (k, v) :: rest =>
    if k = key then (k, update (some v)) :: rest else (k, v) :: upsert key update rest

theorem mem_upsert {key : κ} {update : Option ν → ν} : ∀ {map : List (κ × ν)} {e : κ × ν},
    e ∈ upsert key update map →
      e ∈ map ∨ e = (key, update none) ∨ ∃ v, (key, v) ∈ map ∧ e = (key, update (some v))
  | [], e, h => by
      rw [upsert, List.mem_singleton] at h
      exact Or.inr (Or.inl h)
  | (k, v) :: rest, e, h => by
      rw [upsert] at h
      split at h
      · rename_i hk
        subst hk
        rcases List.mem_cons.1 h with rfl | h
        · exact Or.inr (Or.inr ⟨v, List.mem_cons_self .., rfl⟩)
        · exact Or.inl (List.mem_cons_of_mem _ h)
      · rcases List.mem_cons.1 h with rfl | h
        · exact Or.inl (List.mem_cons_self ..)
        · rcases mem_upsert h with h | h | ⟨w, hw, h⟩
          · exact Or.inl (List.mem_cons_of_mem _ h)
          · exact Or.inr (Or.inl h)
          · exact Or.inr (Or.inr ⟨w, List.mem_cons_of_mem _ hw, h⟩)

theorem keys_upsert (key : κ) (update : Option ν → ν) (map : List (κ × ν)) :
    (upsert key update map).map Prod.fst =
      if key ∈ map.map Prod.fst then map.map Prod.fst else map.map Prod.fst ++ [key] := by
  induction map with
  | nil => rfl
  | cons e rest ih =>
    obtain ⟨k, v⟩ := e
    rw [upsert]
    by_cases hk : k = key
    · simp [hk]
    · have hk' : key ≠ k := fun h => hk h.symm
      rw [if_neg hk, List.map_cons, List.map_cons, ih]
      by_cases hmem : key ∈ rest.map Prod.fst
      · rw [if_pos hmem, if_pos (List.mem_cons_of_mem _ hmem)]
      · rw [if_neg hmem, if_neg (by simpa [hk'] using hmem), List.cons_append]

theorem nodup_keys_upsert {key : κ} {update : Option ν → ν} {map : List (κ × ν)}
    (h : (map.map Prod.fst).Nodup) : ((upsert key update map).map Prod.fst).Nodup := by
  rw [keys_upsert]
  split
  · exact h
  · rename_i hkey
    refine List.nodup_append.2 ⟨h, List.pairwise_singleton _ _, fun k hk k' hk' => ?_⟩
    rw [List.mem_singleton.1 hk']
    rintro rfl
    exact hkey hk

theorem lookup_cons_if (k q : κ) (v : ν) (rest : List (κ × ν)) :
    ((k, v) :: rest).lookup q = if q = k then some v else rest.lookup q := by
  rw [List.lookup_cons]
  by_cases hq : q = k
  · simp [hq]
  · rw [beq_false_of_ne hq, if_neg hq]

theorem lookup_upsert (key q : κ) (update : Option ν → ν) (map : List (κ × ν)) :
    (upsert key update map).lookup q =
      if q = key then some (update (map.lookup key)) else map.lookup q := by
  induction map with
  | nil => rw [upsert, lookup_cons_if]; rfl
  | cons e rest ih =>
    obtain ⟨k, v⟩ := e
    rw [upsert]
    by_cases hk : k = key
    · subst hk
      rw [if_pos rfl, lookup_cons_if, lookup_cons_if, lookup_cons_if, if_pos rfl]
      by_cases hq : q = k <;> simp [hq]
    · have hk' : key ≠ k := fun h => hk h.symm
      rw [if_neg hk, lookup_cons_if, lookup_cons_if, lookup_cons_if, if_neg hk', ih]
      by_cases hq : q = key
      · rw [if_pos hq, if_pos hq, if_neg (by rwa [hq])]
      · simp [hq]

/-- A key that is filtered out is no longer found, and the others are as before. -/
theorem lookup_filter_ne (key q : κ) (map : List (κ × ν)) :
    (map.filter (·.1 ≠ key)).lookup q = if q = key then none else map.lookup q := by
  induction map with
  | nil => simp
  | cons e rest ih =>
    obtain ⟨k, v⟩ := e
    by_cases hk : k = key
    · subst hk
      rw [List.filter_cons_of_neg (by simp), ih, lookup_cons_if]
      by_cases hq : q = k <;> simp [hq]
    · rw [List.filter_cons_of_pos (by simpa using hk), lookup_cons_if, lookup_cons_if, ih]
      by_cases hq : q = key
      · have hqk : q ≠ k := fun h => hk (h.symm.trans hq)
        rw [if_neg hqk]
        simp [hq]
      · simp [hq]

/-! ### Related maps -/

/-- The same keys in the same order, with related values. -/
def Alike (R : κ → ν → ν → Prop) : List (κ × ν) → List (κ × ν) → Prop :=
  List.Forall₂ fun a b => a.1 = b.1 ∧ R a.1 a.2 b.2

theorem Alike.upsert {R : κ → ν → ν → Prop} {key : κ} {v v' : ν} (hv : R key v v') :
    ∀ {map map' : List (κ × ν)}, Alike R map map' →
      Alike R (upsert key (fun _ => v) map) (upsert key (fun _ => v') map')
  | _, _, .nil => .cons ⟨rfl, hv⟩ .nil
  | (k, _) :: _, (k', _) :: _, .cons ⟨hkey, hw⟩ hrest => by
      obtain rfl : k = k' := hkey
      rw [OrderedMap.upsert, OrderedMap.upsert]
      split
      · rename_i hk
        subst hk
        exact .cons ⟨rfl, hv⟩ hrest
      · exact .cons ⟨rfl, hw⟩ (Alike.upsert hv hrest)

/-- What is found under a key is related. -/
theorem Alike.lookup {R : κ → ν → ν → Prop} (key : κ) : ∀ {map map' : List (κ × ν)},
    Alike R map map' → Option.Rel (R key) (map.lookup key) (map'.lookup key)
  | _, _, .nil => .none
  | (k, _) :: _, (k', _) :: _, .cons ⟨hkey, hw⟩ hrest => by
      obtain rfl : k = k' := hkey
      rw [List.lookup_cons, List.lookup_cons]
      split
      · rename_i hk
        obtain rfl := eq_of_beq hk
        exact .some hw
      · exact Alike.lookup key hrest

/-! ### Grouping -/

/-- Appends to the list kept under a key. -/
def push (key : κ) (a : α) : List (κ × List α) → List (κ × List α) :=
  upsert key fun group => group.getD [] ++ [a]

def groupBy (key : α → κ) (items : List α) : List (κ × List α) :=
  items.foldl (fun groups a => push (key a) a groups) []

/-- No group is empty, and a group holds items of its key. -/
def Grouped (key : α → κ) (groups : List (κ × List α)) : Prop :=
  ∀ e ∈ groups, e.2 ≠ [] ∧ ∀ a ∈ e.2, key a = e.1

theorem Grouped.push {key : α → κ} {groups : List (κ × List α)} (h : Grouped key groups) (a : α) :
    Grouped key (push (key a) a groups) := by
  intro e he
  rcases mem_upsert he with he | rfl | ⟨group, hgroup, rfl⟩
  · exact h e he
  · simp
  · refine ⟨by simp, fun b hb => ?_⟩
    rcases List.mem_append.1 hb with hb | hb
    · exact (h _ hgroup).2 b hb
    · rw [List.mem_singleton.1 hb]

theorem grouped_foldl {key : α → κ} : ∀ (items : List α) (groups : List (κ × List α)),
    Grouped key groups → Grouped key (items.foldl (fun groups a => push (key a) a groups) groups)
  | [], _, h => h
  | a :: items, groups, h => by
      rw [List.foldl_cons]
      exact grouped_foldl items _ (h.push a)

theorem grouped_groupBy (key : α → κ) (items : List α) : Grouped key (groupBy key items) :=
  grouped_foldl items [] fun e he => by cases he

/-- The groups of a list: each key once, with all its items in their order. -/
theorem lookup_groupBy (key : α → κ) (items : List α) :
    ((groupBy key items).map Prod.fst).Nodup ∧ ∀ k, (groupBy key items).lookup k =
      if (items.filter fun a => key a = k) = [] then none else some (items.filter fun a => key a = k) := by
  induction items using List.reverseRecOn with
  | nil => exact ⟨List.nodup_nil, fun k => rfl⟩
  | append_singleton items a ih =>
    obtain ⟨hnodup, hlookup⟩ := ih
    have hpush : groupBy key (items ++ [a]) = push (key a) a (groupBy key items) := by
      rw [groupBy, List.foldl_append]
      rfl
    rw [hpush, push]
    refine ⟨nodup_keys_upsert hnodup, fun k => ?_⟩
    rw [lookup_upsert, List.filter_append]
    by_cases hk : k = key a
    · subst hk
      rw [if_pos rfl, hlookup]
      by_cases hnil : (items.filter fun b => key b = key a) = []
      · rw [if_pos hnil, hnil]
        simp
      · rw [if_neg hnil]
        simp
    · have hne : ([a].filter fun b => key b = k) = [] := by simpa using fun h => hk h.symm
      rw [if_neg hk, hne, List.append_nil, hlookup]

theorem mem_of_lookup {map : List (κ × ν)} {key : κ} {v : ν} (h : map.lookup key = some v) :
    (key, v) ∈ map := by
  induction map with
  | nil => cases h
  | cons e rest ih =>
    obtain ⟨k, w⟩ := e
    rw [lookup_cons_if] at h
    split at h
    · next hk => rw [hk, Option.some.inj h]; exact List.mem_cons_self
    · exact List.mem_cons_of_mem _ (ih h)

theorem lookup_of_mem {map : List (κ × ν)} {key : κ} {v : ν} (hnodup : (map.map Prod.fst).Nodup)
    (h : (key, v) ∈ map) : map.lookup key = some v := by
  induction map with
  | nil => cases h
  | cons e rest ih =>
    obtain ⟨k, w⟩ := e
    rw [List.map_cons, List.nodup_cons] at hnodup
    rw [lookup_cons_if]
    rcases List.mem_cons.1 h with heq | hmem
    · obtain ⟨rfl, rfl⟩ := Prod.mk.inj heq
      exact if_pos rfl
    · rw [if_neg fun hk => hnodup.1 (List.mem_map.2 ⟨_, hmem, hk⟩), ih hnodup.2 hmem]

theorem mem_groupBy {key : α → κ} {items : List α} {k : κ} {group : List α} :
    (k, group) ∈ groupBy key items ↔ group ≠ [] ∧ group = items.filter fun a => key a = k := by
  obtain ⟨hnodup, hlookup⟩ := lookup_groupBy key items
  constructor
  · intro h
    have hgroup := lookup_of_mem hnodup h
    rw [hlookup] at hgroup
    split at hgroup
    · cases hgroup
    · next hne => exact ⟨Option.some.inj hgroup ▸ hne, (Option.some.inj hgroup).symm⟩
  · rintro ⟨hne, rfl⟩
    refine mem_of_lookup ?_
    rw [hlookup, if_neg hne]

/-! ### The last item of each key -/

/-- `new Map(items.map(a => [key(a), a]))` -/
def indexBy (key : α → κ) (items : List α) : List (κ × α) :=
  items.foldl (fun map a => upsert (key a) (fun _ => a) map) []

theorem indexBy_append (key : α → κ) (items : List α) (a : α) :
    indexBy key (items ++ [a]) = upsert (key a) (fun _ => a) (indexBy key items) := by
  rw [indexBy, List.foldl_append]
  rfl

theorem nodup_keys_indexBy (key : α → κ) (items : List α) : ((indexBy key items).map Prod.fst).Nodup := by
  induction items using List.reverseRecOn with
  | nil => exact List.nodup_nil
  | append_singleton items a ih =>
    rw [indexBy_append]
    exact nodup_keys_upsert ih

theorem mem_keys_indexBy {key : α → κ} {items : List α} {k : κ} :
    k ∈ (indexBy key items).map Prod.fst ↔ k ∈ items.map key := by
  induction items using List.reverseRecOn with
  | nil => rfl
  | append_singleton items a ih =>
    rw [indexBy_append, keys_upsert, List.map_append, List.mem_append, ← ih, List.map_singleton,
      List.mem_singleton]
    split
    · next hmem => exact ⟨Or.inl, fun h => h.elim id fun h => h ▸ hmem⟩
    · rw [List.mem_append, List.mem_singleton]

/-- An entry is an item under its key. -/
theorem mem_indexBy {key : α → κ} {items : List α} {e : κ × α} (h : e ∈ indexBy key items) :
    e.2 ∈ items ∧ key e.2 = e.1 := by
  induction items using List.reverseRecOn with
  | nil => cases h
  | append_singleton items a ih =>
    rw [indexBy_append] at h
    rcases mem_upsert h with h | rfl | ⟨_, -, rfl⟩
    · exact ⟨List.mem_append_left _ (ih h).1, (ih h).2⟩
    · exact ⟨List.mem_append_right _ (List.mem_singleton_self a), rfl⟩
    · exact ⟨List.mem_append_right _ (List.mem_singleton_self a), rfl⟩

/-- No two entries are one item. -/
theorem nodup_indexBy (key : α → κ) (items : List α) : ((indexBy key items).map Prod.snd).Nodup := by
  have hkeys : ((indexBy key items).map Prod.snd).map key = (indexBy key items).map Prod.fst := by
    rw [List.map_map]
    exact List.map_congr_left fun e he => (mem_indexBy he).2
  exact List.Nodup.of_map key (hkeys ▸ nodup_keys_indexBy key items)

/-! ### Successor sets -/

/-- Adds a value to the set kept under a key. -/
def addTo (key : κ) (a : κ) : List (κ × List κ) → List (κ × List κ) :=
  upsert key fun set => if a ∈ set.getD [] then set.getD [] else set.getD [] ++ [a]

def successors (graph : List (κ × List κ)) (node : κ) : List κ := (graph.lookup node).getD []

theorem mem_successors_addTo {graph : List (κ × List κ)} {key a node next : κ} :
    next ∈ successors (addTo key a graph) node ↔
      next ∈ successors graph node ∨ (node = key ∧ next = a) := by
  rw [successors, addTo, lookup_upsert, successors]
  by_cases hkey : node = key
  · subst hkey
    rw [if_pos rfl, Option.getD_some]
    split
    · next hmem =>
      exact ⟨Or.inl, fun h => h.elim id fun h => h.2 ▸ hmem⟩
    · rw [List.mem_append, List.mem_singleton]
      exact or_congr Iff.rfl ⟨fun h => ⟨rfl, h⟩, And.right⟩
  · rw [if_neg hkey]
    exact ⟨Or.inl, fun h => h.elim id fun h => absurd h.1 hkey⟩

/-- The successors of the nodes not seen yet, counted with repetition. -/
def unexplored (graph : List (κ × List κ)) (seen : List κ) : ℕ :=
  ((graph.filter fun e => e.1 ∉ seen).map fun e => e.2.length).sum

theorem unexplored_cons_le (graph : List (κ × List κ)) (seen : List κ) (node : κ) :
    unexplored graph (node :: seen) ≤ unexplored graph seen := by
  induction graph with
  | nil => simp [unexplored]
  | cons e graph ih =>
    simp only [unexplored, List.filter_cons, List.mem_cons, not_or] at ih ⊢
    by_cases hseen : e.1 ∈ seen
    · simpa [hseen] using ih
    · by_cases hnode : e.1 = node
      · simp only [hnode, not_true_eq_false, false_and, decide_false, Bool.false_eq_true, if_false]
        rw [hnode] at hseen
        simp only [hseen, not_false_eq_true, decide_true, if_true, List.map_cons, List.sum_cons]
        omega
      · simp only [hnode, hseen, not_false_eq_true, and_self, decide_true, if_true, List.map_cons,
          List.sum_cons]
        omega

/-- Exploring a node pays for pushing its successors. -/
theorem unexplored_explore {graph : List (κ × List κ)} {seen : List κ} {node : κ}
    (h : node ∉ seen) :
    (successors graph node).length + unexplored graph (node :: seen) ≤ unexplored graph seen := by
  induction graph with
  | nil => simp [unexplored, successors]
  | cons e graph ih =>
    obtain ⟨k, targets⟩ := e
    by_cases hk : k = node
    · subst hk
      have hrest := unexplored_cons_le graph seen k
      simp only [unexplored, successors, List.filter_cons, List.lookup_cons, List.mem_cons] at hrest ⊢
      simp only [beq_self_eq_true, Option.getD_some, true_or, not_true_eq_false, decide_false,
        Bool.false_eq_true, if_false, h, not_false_eq_true, decide_true, if_true, List.map_cons,
        List.sum_cons]
      omega
    · have hne : (node == k) = false := by simpa using fun he : node = k => hk he.symm
      simp only [unexplored, successors, List.filter_cons, List.lookup_cons, hne, List.mem_cons, hk,
        false_or] at ih ⊢
      by_cases hseen : k ∈ seen
      · simpa [hseen] using ih
      · simp only [hseen, not_false_eq_true, decide_true, if_true, List.map_cons, List.sum_cons]
        omega

/-- Depth-first search with an explicit stack, whose top is the head of `pending`. -/
def reachesFrom (graph : List (κ × List κ)) (target : κ) (pending seen : List κ) : Bool :=
  match pending with
  | [] => false
  | current :: rest =>
    if current = target then true
    else if _h : current ∈ seen then reachesFrom graph target rest seen
    else reachesFrom graph target ((successors graph current).reverse ++ rest) (current :: seen)
termination_by unexplored graph seen + pending.length
decreasing_by
  · simp
  · have hpay : (successors graph current).length + unexplored graph (current :: seen) ≤
        unexplored graph seen := unexplored_explore _h
    simp only [List.length_append, List.length_reverse, List.length_cons]
    omega

def reaches (graph : List (κ × List κ)) (start target : κ) : Bool :=
  reachesFrom graph target [start] []

end HuntWarden.OrderedMap
