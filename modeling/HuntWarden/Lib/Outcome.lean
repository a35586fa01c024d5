import Mathlib.Data.List.Forall2

/-! `Except` computations: the guards a checking function is built from, the transaction that keeps
    the state when its body throws, and what a successful run of each says. -/

namespace HuntWarden.Outcome

variable {ε α β σ : Type}

/-- Throw unless the check passes. -/
def require (check : Bool) (error : ε) : Except ε Unit := if check then .ok () else .error error

/-- The value, or throw when there is none. -/
def orThrow (value : Option α) (error : ε) : Except ε α :=
  match value with
  | some a => .ok a
  | none => .error error

/-- `BEGIN … COMMIT`, rolled back when the body throws. -/
def transact (s : σ) (body : Except ε σ) : σ :=
  match body with
  | .ok s' => s'
  | .error _ => s

theorem bind_ok {x : Except ε α} {f : α → Except ε β} {b : β} :
    (x >>= f) = .ok b ↔ ∃ a, x = .ok a ∧ f a = .ok b := by
  cases x with
  | error e => simp [bind, Except.bind]
  | ok a => simp [bind, Except.bind]

theorem bind_total {x : Except ε α} {f : α → Except ε β} (hx : ∃ a, x = .ok a)
    (hf : ∀ a, x = .ok a → ∃ b, f a = .ok b) : ∃ b, (x >>= f) = .ok b := by
  obtain ⟨a, ha⟩ := hx
  obtain ⟨b, hb⟩ := hf a ha
  exact ⟨b, bind_ok.2 ⟨a, ha, hb⟩⟩

theorem require_ok {check : Bool} {error : ε} {u : Unit} :
    require check error = .ok u ↔ check = true := by
  cases check <;> simp [require]

theorem orThrow_ok {value : Option α} {error : ε} {a : α} :
    orThrow value error = .ok a ↔ value = some a := by
  cases value <;> simp [orThrow]

theorem pure_ok {a b : α} : (pure a : Except ε α) = .ok b ↔ a = b := by
  simp [pure, Except.pure]

theorem bind_error {x : Except ε α} {f : α → Except ε β} {e : ε} :
    (x >>= f) = .error e ↔ x = .error e ∨ ∃ a, x = .ok a ∧ f a = .error e := by
  cases x <;> simp [bind, Except.bind]

theorem require_error {check : Bool} {error e : ε} :
    require check error = .error e ↔ check = false ∧ error = e := by
  cases check <;> simp [require]

theorem orThrow_error {value : Option α} {error e : ε} :
    orThrow value error = .error e ↔ value = none ∧ error = e := by
  cases value <;> simp [orThrow]

theorem mapError_ok {δ : Type} {x : Except ε α} {f : ε → δ} {a : α} (h : x.mapError f = .ok a) : x = .ok a := by
  cases x with
  | error e => cases h
  | ok b => exact congrArg Except.ok (Except.ok.inj h)

/-- A run that can be evaluated gives a value that passes a check. -/
theorem exists_of_any {x : Except ε α} {p : α → Bool} (h : x.toOption.any p) :
    ∃ a, x = .ok a ∧ p a = true := by
  cases x with
  | error e => cases h
  | ok a => exact ⟨a, rfl, h⟩

/-- A property of the state that a successful body keeps survives the transaction. -/
theorem transact_induction {P : σ → Prop} {s : σ} {body : Except ε σ} (hs : P s)
    (hok : ∀ s', body = .ok s' → P s') : P (transact s body) := by
  cases h : body with
  | ok s' => exact hok s' h
  | error e => exact hs

/-! ### A computation for each item of a list -/

theorem forall₂_of_mapM {f : α → Except ε β} {R : α → β → Prop} (hf : ∀ a b, f a = .ok b → R a b)
    {xs : List α} {ys : List β} (h : xs.mapM f = .ok ys) : List.Forall₂ R xs ys := by
  induction xs generalizing ys with
  | nil =>
    rw [List.mapM_nil, pure_ok] at h
    rw [← h]
    exact .nil
  | cons x xs ih =>
    rw [List.mapM_cons] at h
    obtain ⟨y, hy, h⟩ := bind_ok.1 h
    obtain ⟨rest, hrest, h⟩ := bind_ok.1 h
    rw [← pure_ok.1 h]
    exact .cons (hf x y hy) (ih hrest)

/-- A value of the run comes from one of the items. -/
theorem mem_of_mapM {f : α → Except ε β} {xs : List α} {ys : List β} (h : xs.mapM f = .ok ys) {y : β} (hy : y ∈ ys) :
    ∃ x ∈ xs, f x = .ok y := by
  have hpairs : List.Forall₂ (fun a b => f a = .ok b) xs ys := forall₂_of_mapM (fun _ _ h => h) h
  clear h
  induction hpairs with
  | nil => cases hy
  | cons hhead _ ih =>
    rcases List.mem_cons.1 hy with rfl | hy
    · exact ⟨_, List.mem_cons_self, hhead⟩
    · obtain ⟨x, hx, hxy⟩ := ih hy
      exact ⟨x, List.mem_cons_of_mem _ hx, hxy⟩

theorem mapM_total {f : α → Except ε β} {xs : List α} (h : ∀ x ∈ xs, ∃ y, f x = .ok y) :
    ∃ ys, xs.mapM f = .ok ys := by
  induction xs with
  | nil => exact ⟨[], rfl⟩
  | cons x xs ih =>
    obtain ⟨hx, hxs⟩ := List.forall_mem_cons.1 h
    rw [List.mapM_cons]
    exact bind_total hx fun y _ => bind_total (ih hxs) fun ys _ => ⟨y :: ys, rfl⟩

/-! ### Two computations side by side -/

variable {γ δ τ : Type} {R : α → β → Prop} {S : γ → δ → Prop}

/-- Both throw the same, or both give related values. -/
def Agree (R : α → β → Prop) : Except ε α → Except ε β → Prop
  | .ok a, .ok b => R a b
  | .error e, .error e' => e = e'
  | _, _ => False

theorem Agree.bind {x : Except ε α} {y : Except ε β} {f : α → Except ε γ} {g : β → Except ε δ}
    (h : Agree R x y) (hfg : ∀ a b, R a b → Agree S (f a) (g b)) : Agree S (x >>= f) (y >>= g) := by
  cases x with
  | error e =>
    cases y with
    | error e' => exact h
    | ok b => exact h.elim
  | ok a =>
    cases y with
    | error e' => exact h.elim
    | ok b => exact hfg a b h

theorem agree_eq {x y : Except ε α} : Agree Eq x y ↔ x = y := by
  cases x <;> cases y <;> simp [Agree]

/-- The same check or lookup on both sides. -/
theorem Agree.same {x : Except ε α} {f : α → Except ε γ} {g : α → Except ε δ}
    (hfg : ∀ a, Agree S (f a) (g a)) : Agree S (x >>= f) (x >>= g) :=
  Agree.bind (agree_eq.2 rfl) fun a _ h => h ▸ hfg a

theorem Agree.transact {s : σ} {s' : τ} {R : σ → τ → Prop} {x : Except ε σ} {y : Except ε τ}
    (h : Agree R x y) (hs : R s s') : R (transact s x) (transact s' y) := by
  cases x with
  | error e =>
    cases y with
    | error e' => exact hs
    | ok b => exact h.elim
  | ok a =>
    cases y with
    | error e' => exact h.elim
    | ok b => exact h

end HuntWarden.Outcome
