import HuntWarden.Lib.Outcome

/-! Programs that write as they go. One that throws has written what it wrote until then, and a handler
    goes on from there; a transaction writes all of its state or nothing. What a program ensures is said
    of both ends, the returned value and the thrown error, and composes along its parts. -/

namespace HuntWarden

/-- A state is changed, and a value returned or an error thrown. -/
structure Program (σ ε α : Type) where
  run : σ → Except ε α × σ

namespace Program

variable {σ ε α β : Type}

instance : Monad (Program σ ε) where
  pure a := ⟨fun s => (.ok a, s)⟩
  bind p f := ⟨fun s =>
    match p.run s with
    | (.ok a, s') => (f a).run s'
    | (.error e, s') => (.error e, s')⟩

def throw (error : ε) : Program σ ε α := ⟨fun s => (.error error, s)⟩

/-- What the body reads. -/
def gets (body : σ → α) : Program σ ε α := ⟨fun s => (.ok (body s), s)⟩

/-- A check, or a reading that may throw. -/
def reads (body : σ → Except ε α) : Program σ ε α := ⟨fun s => (body s, s)⟩

/-- A transaction: the state is kept when its body throws. -/
def write (body : σ → Except ε σ) : Program σ ε Unit := ⟨fun s =>
  match body s with
  | .ok s' => (.ok (), s')
  | .error e => (.error e, s)⟩

/-- A transaction that also returns something. -/
def update (body : σ → Except ε (α × σ)) : Program σ ε α := ⟨fun s =>
  match body s with
  | .ok (a, s') => (.ok a, s')
  | .error e => (.error e, s)⟩

/-- `try { p } catch (error) { handler }` -/
def onError (p : Program σ ε α) (handler : ε → Program σ ε α) : Program σ ε α := ⟨fun s =>
  match p.run s with
  | (.ok a, s') => (.ok a, s')
  | (.error e, s') => (handler e).run s'⟩

/-- The body for each item, in order. -/
def each (body : α → Program σ ε Unit) : List α → Program σ ε Unit
  | [] => pure ()
  | a :: rest => do
    body a
    each body rest

/-- The body for each item, in order, with what it returns. -/
def gather (body : α → Program σ ε β) : List α → Program σ ε (List β)
  | [] => pure []
  | a :: rest => do
    let b ← body a
    let bs ← gather body rest
    return b :: bs

/-! ### Where a program leads -/

theorem bind_run {p : Program σ ε α} {f : α → Program σ ε β} {s : σ} : (p >>= f).run s =
    match p.run s with
    | (.ok a, s') => (f a).run s'
    | (.error e, s') => (.error e, s') := rfl

theorem bind_returned {p : Program σ ε α} {f : α → Program σ ε β} {s s' : σ} {a : α}
    (h : p.run s = (.ok a, s')) : (p >>= f).run s = (f a).run s' := by
  rw [bind_run, h]

theorem bind_thrown {p : Program σ ε α} {f : α → Program σ ε β} {s s' : σ} {e : ε}
    (h : p.run s = (.error e, s')) : (p >>= f).run s = (.error e, s') := by
  rw [bind_run, h]

theorem gets_bind {body : σ → α} {f : α → Program σ ε β} {s : σ} :
    (gets body >>= f).run s = (f (body s)).run s := rfl

theorem write_returned {body : σ → Except ε σ} {s s' : σ} (h : body s = .ok s') :
    (write body).run s = (.ok (), s') := by
  rw [write]
  dsimp only
  rw [h]

theorem reads_returned {f : σ → Except ε α} {s : σ} {a : α} (h : f s = .ok a) :
    (reads f).run s = (.ok a, s) := by
  rw [reads]
  dsimp only
  rw [h]

theorem reads_thrown {f : σ → Except ε α} {s : σ} {e : ε} (h : f s = .error e) :
    (reads f).run s = (.error e, s) := by
  rw [reads]
  dsimp only
  rw [h]

theorem update_returned {f : σ → Except ε (α × σ)} {s s' : σ} {a : α} (h : f s = .ok (a, s')) :
    (update f).run s = (.ok a, s') := by
  rw [update]
  dsimp only
  rw [h]

/-! ### What a program ensures -/

/-- How the program ends from a state. -/
def Ensures (p : Program σ ε α) (s : σ) (returned : α → σ → Prop) (thrown : ε → σ → Prop) : Prop :=
  match p.run s with
  | (.ok a, s') => returned a s'
  | (.error e, s') => thrown e s'

variable {p : Program σ ε α} {f : α → Program σ ε β} {s : σ} {returned : α → σ → Prop}
  {returned' : β → σ → Prop} {thrown : ε → σ → Prop}

theorem ensures_pure {a : α} : Ensures (pure a : Program σ ε α) s returned thrown ↔ returned a s :=
  Iff.rfl

theorem ensures_throw {e : ε} : Ensures (throw e : Program σ ε α) s returned thrown ↔ thrown e s :=
  Iff.rfl

theorem ensures_bind : Ensures (p >>= f) s returned' thrown ↔
    Ensures p s (fun a s' => Ensures (f a) s' returned' thrown) thrown := by
  rw [Ensures, Ensures, bind_run]
  rcases p.run s with ⟨e | a, s'⟩ <;> rfl

theorem ensures_onError {handler : ε → Program σ ε α} : Ensures (onError p handler) s returned thrown ↔
    Ensures p s returned fun e s' => Ensures (handler e) s' returned thrown := by
  rw [Ensures, Ensures, onError]
  dsimp only
  rcases p.run s with ⟨e | a, s'⟩ <;> rfl

theorem ensures_reads {body : σ → Except ε α} : Ensures (reads body) s returned thrown ↔
    (∀ a, body s = .ok a → returned a s) ∧ ∀ e, body s = .error e → thrown e s := by
  rw [Ensures, reads]
  dsimp only
  cases body s <;> simp

theorem ensures_write {body : σ → Except ε σ} {returned : Unit → σ → Prop} :
    Ensures (write body) s returned thrown ↔
      (∀ s', body s = .ok s' → returned () s') ∧ ∀ e, body s = .error e → thrown e s := by
  rw [Ensures, write]
  dsimp only
  cases body s <;> simp

theorem Ensures.mono (h : Ensures p s returned thrown) {returned' : α → σ → Prop}
    {thrown' : ε → σ → Prop} (hreturned : ∀ a s', returned a s' → returned' a s')
    (hthrown : ∀ e s', thrown e s' → thrown' e s') : Ensures p s returned' thrown' := by
  rw [Ensures] at *
  split at h
  · exact hreturned _ _ h
  · exact hthrown _ _ h

theorem ensures_update {body : σ → Except ε (α × σ)} : Ensures (update body) s returned thrown ↔
    (∀ a s', body s = .ok (a, s') → returned a s') ∧ ∀ e, body s = .error e → thrown e s := by
  rw [Ensures, update]
  dsimp only
  rcases body s with e | ⟨a, s'⟩ <;> simp

/-- What holds of the items done so far is carried over the items one by one. -/
theorem ensures_gather {body : α → Program σ ε β} {I : List α → σ → Prop} {l done : List α}
    (h : I done s) (hstep : ∀ done s, ∀ a ∈ l, I done s →
      Ensures (body a) s (fun _ s' => I (done ++ [a]) s') thrown) :
    Ensures (gather body l) s (fun _ s' => I (done ++ l) s') thrown := by
  induction l generalizing done s with
  | nil =>
    rw [gather, ensures_pure, List.append_nil]
    exact h
  | cons a rest ih =>
    rw [gather, ensures_bind]
    refine (hstep done s a List.mem_cons_self h).mono (fun _ s' hs' => ?_) fun _ _ he => he
    rw [ensures_bind]
    have hrest := ih hs' fun done s a' ha' => hstep done s a' (List.mem_cons_of_mem _ ha')
    rw [List.append_assoc, List.singleton_append] at hrest
    exact hrest.mono (fun _ _ hs'' => hs'') fun _ _ he => he

/-- A loop that comes to its end returns one thing for each item. -/
theorem gather_length {body : α → Program σ ε β} : ∀ {l : List α} {s s' : σ} {bs : List β},
    (gather body l).run s = (.ok bs, s') → bs.length = l.length
  | [], _, _, _, h => by
    rw [← Except.ok.inj (Prod.mk.inj h).1]
    rfl
  | a :: rest, s, s', bs, h => by
    rw [gather, bind_run] at h
    split at h
    · next b s₁ hb =>
      rw [bind_run] at h
      split at h
      · next bs' s₂ hrest =>
        rw [← Except.ok.inj (Prod.mk.inj h).1, List.length_cons, List.length_cons, gather_length hrest]
      · cases h
    · cases h

/-- What both ends ensure of the state holds of it, whichever end it is. -/
theorem Ensures.state {P : σ → Prop} (h : Ensures p s (fun _ s' => P s') fun _ s' => P s') :
    P (p.run s).2 := by
  rw [Ensures] at h
  split at h <;> rename_i hrun <;> rw [hrun] <;> exact h

end Program

end HuntWarden
