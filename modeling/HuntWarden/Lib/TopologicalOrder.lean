import HuntWarden.Lib.Digraph
import Mathlib.Data.List.Nodup
import Mathlib.Data.Nat.Notation
import Mathlib.Order.WellFounded

/-! Items that need one another, put in an order in which each comes after what it needs: such an order
    exists exactly when no item needs itself in the end, and the loop that always takes the first item
    whose needs are known finds one. -/

namespace HuntWarden.TopologicalOrder

open HuntWarden.Digraph Relation

variable {α κ : Type} {name : α → κ} {needs : α → List κ}

/-! ### Orders -/

/-- What each item needs is known, or comes before it. -/
def Layered (name : α → κ) (needs : α → List κ) : List κ → List α → Prop
  | _, [] => True
  | known, a :: rest => (∀ k ∈ needs a, k ∈ known) ∧ Layered name needs (known ++ [name a]) rest

/-- What holds of an item once it holds of all it needs holds of every item. -/
theorem Layered.induction {P : κ → Prop} : ∀ {items : List α} {known : List κ}, Layered name needs known items →
    (∀ k ∈ known, P k) → (∀ a ∈ items, (∀ k ∈ needs a, P k) → P (name a)) → ∀ a ∈ items, P (name a)
  | [], _, _, _, _, _, ha => absurd ha List.not_mem_nil
  | a :: rest, known, h, hknown, hstep, b, hb => by
    have hself : P (name a) := hstep a List.mem_cons_self fun k hk => hknown k (h.1 k hk)
    rcases List.mem_cons.1 hb with rfl | hb
    · exact hself
    · refine h.2.induction (fun k hk => ?_) (fun c hc => hstep c (List.mem_cons_of_mem _ hc)) b hb
      rcases List.mem_append.1 hk with hk | hk
      · exact hknown k hk
      · rw [List.mem_singleton.1 hk]
        exact hself

theorem Layered.needs_mem : ∀ {items : List α} {known : List κ}, Layered name needs known items →
    ∀ a ∈ items, ∀ k ∈ needs a, k ∈ known ++ items.map name
  | b :: rest, known, h, a, ha, k, hk => by
    rw [List.map_cons, List.append_cons]
    rcases List.mem_cons.1 ha with rfl | ha
    · exact List.mem_append_left _ (List.mem_append_left _ (h.1 k hk))
    · exact h.2.needs_mem a ha k hk

theorem layered_concat {a : α} : ∀ {items : List α} {known : List κ},
    Layered name needs known (items ++ [a]) ↔
      Layered name needs known items ∧ ∀ k ∈ needs a, k ∈ known ++ items.map name
  | [], known => by simp [Layered]
  | b :: items, known => by
    rw [List.cons_append, Layered, Layered, layered_concat, and_assoc, List.map_cons, List.append_assoc,
      List.singleton_append]

theorem layered_map {f : α → α} : ∀ {items : List α} {known : List κ},
    (∀ a ∈ items, name (f a) = name a ∧ needs (f a) = needs a) →
    (Layered name needs known (items.map f) ↔ Layered name needs known items)
  | [], _, _ => Iff.rfl
  | a :: items, known, hf => by
    obtain ⟨hname, hneeds⟩ := hf a List.mem_cons_self
    rw [List.map_cons, Layered, Layered, hname, hneeds, layered_map fun b hb => hf b (List.mem_cons_of_mem _ hb)]

/-! ### Circles -/

/-- Some item of this name needs that one. -/
def Needs (name : α → κ) (needs : α → List κ) (items : List α) (needed needing : κ) : Prop :=
  ∃ a ∈ items, name a = needing ∧ needed ∈ needs a

/-- Where there is an order, no item needs itself in the end. -/
theorem acyclic_of_layered {items : List α} (h : Layered name needs [] items) (hnodup : (items.map name).Nodup) :
    Acyclic (Needs name needs items) := by
  have hitems : ∀ a ∈ items, Acc (Needs name needs items) (name a) := by
    refine h.induction (fun k hk => absurd hk List.not_mem_nil) fun a ha hneeds => Acc.intro _ fun k hk => ?_
    obtain ⟨b, hb, hname, hk⟩ := hk
    rw [List.inj_on_of_nodup_map hnodup hb ha hname] at hk
    exact hneeds k hk
  have hwf : WellFounded (Needs name needs items) := by
    refine WellFounded.intro fun node => Acc.intro _ fun k hk => ?_
    obtain ⟨a, ha, rfl, hneeds⟩ := id hk
    exact (hitems a ha).inv hk
  exact fun node hcircle => hwf.transGen.irrefl.irrefl node hcircle

/-- A list has a member that no other precedes. -/
theorem exists_first {R : α → α → Prop} (hirrefl : ∀ a, ¬ R a a) (htrans : ∀ {a b c}, R a b → R b c → R a c) :
    ∀ {items : List α}, items ≠ [] → ∃ a ∈ items, ∀ b ∈ items, ¬ R b a
  | [], h => absurd rfl h
  | a :: items, _ => by
    by_cases hnil : items = []
    · subst hnil
      refine ⟨a, List.mem_cons_self, fun b hb => ?_⟩
      rw [List.mem_singleton.1 hb]
      exact hirrefl a
    · obtain ⟨first, hfirst, hnone⟩ := exists_first hirrefl htrans hnil
      by_cases hbefore : R a first
      · refine ⟨a, List.mem_cons_self, fun b hb hR => ?_⟩
        rcases List.mem_cons.1 hb with rfl | hb
        · exact hirrefl b hR
        · exact hnone b hb (htrans hR hbefore)
      · refine ⟨first, List.mem_cons_of_mem _ hfirst, fun b hb => ?_⟩
        rcases List.mem_cons.1 hb with rfl | hb
        · exact hbefore
        · exact hnone b hb

/-- Where every item needs one of them, some item needs itself in the end. -/
theorem not_acyclic_of_needs {items rest : List α} (hsub : ∀ a ∈ rest, a ∈ items) (hne : rest ≠ [])
    (hneeds : ∀ a ∈ rest, ∃ b ∈ rest, name b ∈ needs a) : ¬ Acyclic (Needs name needs items) := by
  intro hacyclic
  obtain ⟨first, hfirst, hnone⟩ := exists_first
    (R := fun a b : α => TransGen (Needs name needs items) (name a) (name b))
    (fun a => hacyclic _) (fun h h' => TransGen.trans h h') hne
  obtain ⟨b, hb, hneed⟩ := hneeds first hfirst
  exact hnone b hb (TransGen.single ⟨first, hsub first hfirst, rfl, hneed⟩)

/-! ### The loop -/

variable [DecidableEq κ]

/-- The needs of an item are known. -/
def isReady (needs : α → List κ) (known : List κ) (a : α) : Bool := (needs a).all (· ∈ known)

/-- As often as items are pending, the first one that is ready is taken. -/
def inOrder (name : α → κ) (needs : α → List κ) : ℕ → List κ → List α → Option (List α)
  | 0, _, _ => some []
  | n + 1, known, pending =>
    match pending.find? (isReady needs known) with
    | none => none
    | some next =>
      (inOrder name needs n (known ++ [name next]) (pending.eraseP (isReady needs known))).map (next :: ·)

theorem perm_eraseP {p : α → Bool} {a : α} {items : List α} (h : items.find? p = some a) :
    (a :: items.eraseP p).Perm items := by
  obtain ⟨hp, pre, post, rfl, hpre⟩ := List.find?_eq_some_iff_append.1 h
  have hnone : ∀ b ∈ pre, ¬ p b = true := fun b hb => by simpa using hpre b hb
  rw [List.eraseP_append_right _ hnone, List.eraseP_cons_of_pos hp]
  exact List.perm_middle.symm

/-- What the loop returns are the items, in order. -/
theorem inOrder_some : ∀ {n : ℕ} {known : List κ} {pending ordered : List α}, pending.length = n →
    inOrder name needs n known pending = some ordered →
    ordered.Perm pending ∧ Layered name needs known ordered
  | 0, _, pending, _, hlength, h => by
    cases h
    rw [List.length_eq_zero_iff.1 hlength]
    exact ⟨List.Perm.refl _, trivial⟩
  | n + 1, known, pending, ordered, hlength, h => by
    rw [inOrder] at h
    cases hfind : pending.find? (isReady needs known) with
    | none =>
      rw [hfind] at h
      cases h
    | some next =>
      rw [hfind] at h
      obtain ⟨rest, hrest, rfl⟩ := Option.map_eq_some_iff.1 h
      have hperm := perm_eraseP hfind
      have hlength' : (pending.eraseP (isReady needs known)).length = n := by
        have := hperm.length_eq
        rw [List.length_cons, hlength] at this
        omega
      obtain ⟨hrestPerm, hlayered⟩ := inOrder_some hlength' hrest
      have hready : ∀ k ∈ needs next, k ∈ known := by
        have hnext := List.find?_some hfind
        rw [isReady, List.all_eq_true] at hnext
        exact fun k hk => of_decide_eq_true (hnext k hk)
      exact ⟨(hrestPerm.cons next).trans hperm, hready, hlayered⟩

/-- Where the loop gets stuck, some item needs itself in the end. -/
theorem inOrder_none {items : List α} : ∀ {n : ℕ} {known : List κ} {pending : List α}, pending.length = n →
    (∀ a ∈ pending, a ∈ items) → (∀ a ∈ pending, ∀ k ∈ needs a, k ∈ known ∨ ∃ b ∈ pending, name b = k) →
    inOrder name needs n known pending = none → ¬ Acyclic (Needs name needs items)
  | 0, _, _, _, _, _, h => by cases h
  | n + 1, known, pending, hlength, hsub, hneeds, h => by
    rw [inOrder] at h
    cases hfind : pending.find? (isReady needs known) with
    | none =>
      refine not_acyclic_of_needs hsub (fun hnil => by rw [hnil] at hlength; cases hlength) fun a ha => ?_
      have hblocked := List.find?_eq_none.1 hfind a ha
      rw [isReady, List.all_eq_true] at hblocked
      simp only [decide_eq_true_eq, not_forall] at hblocked
      obtain ⟨k, hk, hunknown⟩ := hblocked
      obtain ⟨b, hb, rfl⟩ := (hneeds a ha k hk).resolve_left hunknown
      exact ⟨b, hb, hk⟩
    | some next =>
      rw [hfind] at h
      have hperm := perm_eraseP hfind
      have hlength' : (pending.eraseP (isReady needs known)).length = n := by
        have := hperm.length_eq
        rw [List.length_cons, hlength] at this
        omega
      have hsub' : ∀ a ∈ pending.eraseP (isReady needs known), a ∈ pending := fun a ha =>
        hperm.mem_iff.1 (List.mem_cons_of_mem _ ha)
      refine inOrder_none hlength' (fun a ha => hsub a (hsub' a ha)) (fun a ha k hk => ?_)
        (Option.map_eq_none_iff.1 h)
      rcases hneeds a (hsub' a ha) k hk with hknown | ⟨b, hb, rfl⟩
      · exact Or.inl (List.mem_append_left _ hknown)
      · rcases List.mem_cons.1 (hperm.mem_iff.2 hb) with rfl | hb
        · exact Or.inl (List.mem_append_right _ (List.mem_singleton_self _))
        · exact Or.inr ⟨b, hb, rfl⟩

end HuntWarden.TopologicalOrder
