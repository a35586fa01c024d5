import HuntWarden.Lib.Outcome
import Mathlib.Data.Nat.Notation

/-! Statements that are executed one after another, each of them whole or not at all. A refused statement
    is the last one, and a crash may come before any of them: what is left behind is what the statements
    until then have done. -/

namespace HuntWarden.Statements

variable {σ ε : Type}

/-- The state after at most so many of the statements; with no number given nothing interrupts them. -/
def execute : List (σ → Except ε σ) → Option ℕ → σ → σ
  | [], _, s => s
  | statement :: rest, cut, s =>
    if cut = some 0 then s
    else match statement s with
      | .ok s' => execute rest (cut.map (· - 1)) s'
      | .error _ => s

/-- All of the statements. -/
def complete : List (σ → Except ε σ) → σ → Except ε σ
  | [], s => .ok s
  | statement :: rest, s => statement s >>= complete rest

variable {l l' : List (σ → Except ε σ)} {statement : σ → Except ε σ} {cut : Option ℕ} {s s' : σ}

theorem execute_cons_ok (hcut : cut ≠ some 0) (h : statement s = .ok s') :
    execute (statement :: l) cut s = execute l (cut.map (· - 1)) s' := by
  rw [execute, if_neg hcut, h]

theorem execute_cons_error {e : ε} (h : statement s = .error e) :
    execute (statement :: l) cut s = s := by
  rw [execute, h]
  exact ite_self s

/-- What each statement keeps is kept wherever they end. -/
theorem execute_invariant {I : σ → Prop}
    (hkeep : ∀ statement ∈ l, ∀ s s', I s → statement s = .ok s' → I s') (h : I s) :
    I (execute l cut s) := by
  induction l generalizing cut s with
  | nil => exact h
  | cons statement rest ih =>
    by_cases hcut : cut = some 0
    · rw [execute, if_pos hcut]
      exact h
    · cases hs : statement s with
      | error e =>
        rw [execute_cons_error hs]
        exact h
      | ok s₁ =>
        rw [execute_cons_ok hcut hs]
        exact ih (fun st hst => hkeep st (List.mem_cons_of_mem _ hst))
          (hkeep statement List.mem_cons_self s s₁ h hs)

/-- What relates each state to the one after a statement relates the ends. -/
theorem execute_rel {R : σ → σ → Prop} (hrefl : ∀ s, R s s)
    (htrans : ∀ {a b c}, R a b → R b c → R a c)
    (hkeep : ∀ statement ∈ l, ∀ s s', statement s = .ok s' → R s s') (cut : Option ℕ) (s : σ) :
    R s (execute l cut s) :=
  execute_invariant (I := fun s' => R s s')
    (fun statement hst _ _ h hs => htrans h (hkeep statement hst _ _ hs)) (hrefl s)

theorem complete_invariant {I : σ → Prop}
    (hkeep : ∀ statement ∈ l, ∀ s s', I s → statement s = .ok s' → I s') (h : I s)
    (hs : complete l s = .ok s') : I s' := by
  induction l generalizing s with
  | nil => exact Except.ok.inj hs ▸ h
  | cons statement rest ih =>
    obtain ⟨s₁, hs₁, hs⟩ := Outcome.bind_ok.1 hs
    exact ih (fun st hst => hkeep st (List.mem_cons_of_mem _ hst))
      (hkeep statement List.mem_cons_self s s₁ h hs₁) hs

theorem execute_complete (h : complete l s = .ok s') : execute l none s = s' := by
  induction l generalizing s with
  | nil => exact Except.ok.inj h
  | cons statement rest ih =>
    obtain ⟨s₁, hs₁, h⟩ := Outcome.bind_ok.1 h
    rw [execute_cons_ok (by simp) hs₁]
    exact ih h

/-- Statements that change nothing. -/
theorem complete_self (h : ∀ statement ∈ l, statement s = .ok s) : complete l s = .ok s := by
  induction l with
  | nil => rfl
  | cons statement rest ih =>
    rw [complete, h statement List.mem_cons_self]
    exact ih fun st hst => h st (List.mem_cons_of_mem _ hst)

theorem complete_append : complete (l ++ l') s = .ok s' ↔
    ∃ s₁, complete l s = .ok s₁ ∧ complete l' s₁ = .ok s' := by
  induction l generalizing s with
  | nil => simp [complete]
  | cons statement rest ih =>
    rw [List.cons_append, complete, complete, Outcome.bind_ok]
    simp only [ih, Outcome.bind_ok]
    constructor
    · rintro ⟨s₁, hs₁, s₂, hs₂, h⟩
      exact ⟨s₂, ⟨s₁, hs₁, hs₂⟩, h⟩
    · rintro ⟨s₂, ⟨s₁, hs₁, hs₂⟩, h⟩
      exact ⟨s₁, hs₁, s₂, hs₂, h⟩

section

variable {α : Type} {f : α → σ → Except ε σ}

/-- One statement for each item: what holds of the state and of the items still to come. -/
theorem execute_map {J : List α → σ → Prop} {P : σ → Prop}
    (hstep : ∀ a rest s s', J (a :: rest) s → f a s = .ok s' → J rest s')
    (hend : ∀ items s, J items s → P s) {items : List α} (h : J items s) :
    P (execute (items.map f) cut s) := by
  induction items generalizing cut s with
  | nil => exact hend [] s h
  | cons a rest ih =>
    rw [List.map_cons]
    by_cases hcut : cut = some 0
    · rw [execute, if_pos hcut]
      exact hend _ s h
    · cases hs : f a s with
      | error e =>
        rw [execute_cons_error hs]
        exact hend _ s h
      | ok s₁ =>
        rw [execute_cons_ok hcut hs]
        exact ih (hstep a rest s s₁ h hs)

/-- What each statement does for its item, and the others leave, is done for all of them. -/
theorem complete_map {P : α → σ → Prop} (hdone : ∀ a s s', f a s = .ok s' → P a s')
    (hkeep : ∀ a b s s', f b s = .ok s' → P a s → P a s') {items : List α}
    (h : complete (items.map f) s = .ok s') : ∀ a ∈ items, P a s' := by
  induction items generalizing s with
  | nil => simp
  | cons b rest ih =>
    obtain ⟨s₁, hs₁, hrest⟩ := Outcome.bind_ok.1 h
    rintro a ha
    rcases List.mem_cons.1 ha with rfl | ha
    · refine complete_invariant (fun statement hst => ?_) (hdone a s s₁ hs₁) hrest
      obtain ⟨b, -, rfl⟩ := List.mem_map.1 hst
      exact fun s s' hP hs => hkeep a b s s' hs hP
    · exact ih hrest a ha

end

/-- Of two groups of statements, either the second was not begun, or the first is done and the crash, if there
    is one, comes after it. -/
theorem execute_append (l l' : List (σ → Except ε σ)) (cut : Option ℕ) (s : σ) :
    (∃ cut', execute (l ++ l') cut s = execute l cut' s) ∨
      ∃ s' cut', cut = cut'.map (· + l.length) ∧ complete l s = .ok s' ∧
        execute (l ++ l') cut s = execute l' cut' s' := by
  induction l generalizing cut s with
  | nil => exact .inr ⟨s, cut, by simp, rfl, rfl⟩
  | cons statement rest ih =>
    rw [List.cons_append]
    by_cases hcut : cut = some 0
    · exact .inl ⟨cut, by rw [execute, if_pos hcut, execute, if_pos hcut]⟩
    · cases hs : statement s with
      | error e => exact .inl ⟨cut, by rw [execute_cons_error hs, execute_cons_error hs]⟩
      | ok s₁ =>
        rw [execute_cons_ok hcut hs]
        rcases ih (cut.map (· - 1)) s₁ with ⟨cut', h⟩ | ⟨s', cut', hlater, hdone, h⟩
        · refine .inl ⟨cut'.map (· + 1), h.trans ?_⟩
          rw [execute_cons_ok (by cases cut' <;> simp) hs, Option.map_map]
          cases cut' <;> rfl
        · refine .inr ⟨s', cut', ?_, by rw [complete, hs]; exact hdone, h⟩
          cases cut with
          | none => cases cut' <;> simp_all
          | some n =>
            cases cut' with
            | none => simp at hlater
            | some m =>
              simp only [Option.map_some, Option.some.injEq, List.length_cons] at hlater hcut ⊢
              omega

end HuntWarden.Statements
