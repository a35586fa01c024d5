import Mathlib.Data.List.Basic

/-! Runs of a deterministic machine: a step function folded over a list of events. One induction
    serves every invariant (`run_invariant`), one every monotone quantity (`run_rel`); both allow a
    condition that each step of the run meets (`Along`). What the steps emit is collected by
    `emitted`. -/

namespace HuntWarden.Runs

variable {σ ε ο : Type} {step : σ → ε → σ}

/-- The state after the events, oldest first. -/
def run (step : σ → ε → σ) (s : σ) (es : List ε) : σ := es.foldl step s

@[simp] theorem run_nil (s : σ) : run step s [] = s := rfl

@[simp] theorem run_cons (s : σ) (e : ε) (es : List ε) :
    run step s (e :: es) = run step (step s e) es := rfl

theorem run_append (s : σ) (es fs : List ε) :
    run step s (es ++ fs) = run step (run step s es) fs := List.foldl_append

/-- Every event meets the condition in the state it is applied to. -/
def Along (step : σ → ε → σ) (C : σ → ε → Prop) : σ → List ε → Prop
  | _, [] => True
  | s, e :: es => C s e ∧ Along step C (step s e) es

instance decidableAlong {C : σ → ε → Prop} [∀ s e, Decidable (C s e)] :
    ∀ (s : σ) (es : List ε), Decidable (Along step C s es)
  | _, [] => .isTrue trivial
  | s, e :: es =>
    have := decidableAlong (C := C) (step s e) es
    inferInstanceAs (Decidable (C s e ∧ Along step C (step s e) es))

theorem along_append {C : σ → ε → Prop} : ∀ {es fs : List ε} {s : σ},
    Along step C s (es ++ fs) ↔ Along step C s es ∧ Along step C (run step s es) fs
  | [], _, _ => by simp [Along]
  | _ :: _, _, _ => by simp [Along, along_append, and_assoc]

theorem along_true : ∀ (s : σ) (es : List ε), Along step (fun _ _ => True) s es
  | _, [] => trivial
  | s, e :: es => ⟨trivial, along_true (step s e) es⟩

/-- Two conditions that agree wherever the run can be are met along the same runs. -/
theorem along_congr {J : σ → Prop} {C D : σ → ε → Prop} (hJ : ∀ s e, J s → J (step s e))
    (h : ∀ s e, J s → (C s e ↔ D s e)) :
    ∀ (es : List ε) (s : σ), J s → (Along step C s es ↔ Along step D s es)
  | [], _, _ => Iff.rfl
  | e :: es, s, hs => and_congr (h s e hs) (along_congr hJ h es (step s e) (hJ s e hs))

theorem run_invariant {I : σ → Prop} {C : σ → ε → Prop}
    (hstep : ∀ s e, I s → C s e → I (step s e)) :
    ∀ (es : List ε) (s : σ), I s → Along step C s es → I (run step s es)
  | [], _, hs, _ => hs
  | e :: es, s, hs, hc => run_invariant hstep es (step s e) (hstep s e hs hc.1) hc.2

/-- Where a step keeps the invariant exactly when it meets the condition, the invariant holds all along a run
    exactly when every step of the run meets it. -/
theorem along_iff {I J : σ → Prop} {C : σ → ε → Prop} (hJ : ∀ s e, J s → J (step s e))
    (hI : ∀ s e, J s → I s → (I (step s e) ↔ C s e)) :
    ∀ (es : List ε) (s : σ), J s → I s →
      ((∀ n, I (run step s (es.take n))) ↔ Along step C s es)
  | [], s, _, hs => by simpa [Along] using hs
  | e :: es, s, hj, hs => by
    constructor
    · intro h
      have he : I (step s e) := h 1
      exact ⟨(hI s e hj hs).1 he, (along_iff hJ hI es _ (hJ s e hj) he).1 fun n => h (n + 1)⟩
    · rintro ⟨he, hes⟩ n
      cases n with
      | zero => exact hs
      | succ n =>
        exact (along_iff hJ hI es _ (hJ s e hj) ((hI s e hj hs).2 he)).2 hes n

/-- A reflexive and transitive relation that each step respects holds between the ends of a run. -/
theorem run_rel {I : σ → Prop} {C : σ → ε → Prop} {R : σ → σ → Prop}
    (hrefl : ∀ s, R s s) (htrans : ∀ {a b c}, R a b → R b c → R a c)
    (hstep : ∀ s e, I s → C s e → I (step s e))
    (hrel : ∀ s e, I s → C s e → R s (step s e)) :
    ∀ (es : List ε) (s : σ), I s → Along step C s es → R s (run step s es)
  | [], s, _, _ => hrefl s
  | e :: es, s, hs, hc =>
    htrans (hrel s e hs hc.1)
      (run_rel hrefl htrans hstep hrel es (step s e) (hstep s e hs hc.1) hc.2)

/-- What comes to hold in a run comes to hold with one of its steps. -/
theorem exists_crossing {P : σ → Prop} : ∀ {es : List ε} {s : σ}, ¬ P s → P (run step s es) →
    ∃ pre e post, es = pre ++ e :: post ∧ ¬ P (run step s pre) ∧ P (run step s (pre ++ [e]))
  | [], _, hnot, h => absurd h hnot
  | e :: es, s, hnot, h => by
    by_cases he : P (step s e)
    · exact ⟨[], e, es, rfl, hnot, he⟩
    · obtain ⟨pre, e', post, rfl, hbefore, hafter⟩ := exists_crossing he h
      exact ⟨e :: pre, e', post, rfl, hbefore, hafter⟩

/-- What the steps of a run emit, oldest first. -/
def emitted (step : σ → ε → σ) (out : σ → ε → Option ο) : σ → List ε → List ο
  | _, [] => []
  | s, e :: es => (out s e).toList ++ emitted step out (step s e) es

theorem emitted_append {out : σ → ε → Option ο} : ∀ {es fs : List ε} {s : σ},
    emitted step out s (es ++ fs) =
      emitted step out s es ++ emitted step out (run step s es) fs
  | [], _, _ => rfl
  | _ :: _, _, _ => by simp [emitted, emitted_append]

/-- The machine that keeps its log beside its state. -/
def logged (step : σ → ε → σ) (out : σ → ε → Option ο) : σ × List ο → ε → σ × List ο :=
  fun (s, log) e => (step s e, log ++ (out s e).toList)

theorem run_logged {out : σ → ε → Option ο} : ∀ (es : List ε) (s : σ) (log : List ο),
    run (logged step out) (s, log) es = (run step s es, log ++ emitted step out s es)
  | [], s, log => by simp [emitted]
  | e :: es, s, log => by
      rw [run_cons, logged, run_logged es, emitted, List.append_assoc]; rfl

/-- An emission that marks its item as spent is never repeated. -/
theorem emitted_nodup {out : σ → ε → Option ο} {Spent : σ → ο → Prop}
    (hkeep : ∀ s e o, Spent s o → Spent (step s e) o)
    (hfresh : ∀ s e o, out s e = some o → ¬ Spent s o ∧ Spent (step s e) o) :
    ∀ (es : List ε) (s : σ), (emitted step out s es).Nodup ∧
      ∀ o ∈ emitted step out s es, ¬ Spent s o
  | [], _ => by simp [emitted]
  | e :: es, s => by
      obtain ⟨hnd, hnot⟩ := emitted_nodup hkeep hfresh es (step s e)
      have hrest : ∀ o ∈ emitted step out (step s e) es, ¬ Spent s o :=
        fun o ho hs => hnot o ho (hkeep s e o hs)
      simp only [emitted]
      cases ho : out s e with
      | none => exact ⟨by simpa using hnd, by simpa using hrest⟩
      | some o =>
        obtain ⟨hne, hsp⟩ := hfresh s e o ho
        refine ⟨?_, ?_⟩
        · simp only [Option.toList_some, List.singleton_append, List.nodup_cons]
          exact ⟨fun hmem => hnot o hmem hsp, hnd⟩
        · simp only [Option.toList_some, List.singleton_append, List.mem_cons]
          rintro o' (rfl | ho')
          · exact hne
          · exact hrest o' ho'

/-- Two runs in lockstep: related events keep the states related, and emit the same. -/
theorem run_lockstep {R : σ → σ → Prop} {E : ε → ε → Prop} {out : σ → ε → Option ο}
    (hstep : ∀ s s' e e', R s s' → E e e' → R (step s e) (step s' e'))
    (hout : ∀ s s' e e', R s s' → E e e' → out s e = out s' e') :
    ∀ {es es' : List ε} {s s' : σ}, List.Forall₂ E es es' → R s s' →
      R (run step s es) (run step s' es') ∧ emitted step out s es = emitted step out s' es'
  | _, _, _, _, .nil, hs => ⟨hs, rfl⟩
  | _, _, s, s', .cons he hes, hs => by
      obtain ⟨hrun, hemitted⟩ := run_lockstep hstep hout hes (hstep s s' _ _ hs he)
      refine ⟨hrun, ?_⟩
      rw [emitted, emitted, hout s s' _ _ hs he, hemitted]

end HuntWarden.Runs
