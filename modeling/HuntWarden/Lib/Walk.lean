import Mathlib.Data.List.Basic
import Mathlib.Data.Nat.Notation

/-! Walks: computations that leave a trace of events and end in a value or in an error. Two walks of
    the same input are compared event by event: either they are one walk, or they part at some event
    and stay apart whatever follows. -/

namespace HuntWarden

structure Walk (Event ε α : Type) where
  events : List Event
  outcome : Except ε α

namespace Walk

variable {Event ε α β : Type}

def done (a : α) : Walk Event ε α := ⟨[], .ok a⟩

def fail (error : ε) : Walk Event ε α := ⟨[], .error error⟩

/-- One event, before the rest of the walk. -/
def log (event : Event) (w : Walk Event ε α) : Walk Event ε α := ⟨event :: w.events, w.outcome⟩

def bind (w : Walk Event ε α) (k : α → Walk Event ε β) : Walk Event ε β :=
  match w.outcome with
  | .ok a => ⟨w.events ++ (k a).events, (k a).outcome⟩
  | .error error => ⟨w.events, .error error⟩

/-- `every` (`conjunctive`) or `some` over the walks of the arguments: the first argument whose value
    decides ends it. -/
def quantify (conjunctive : Bool) : List (Walk Event ε Bool) → Walk Event ε Bool
  | [] => done conjunctive
  | w :: ws => w.bind fun value => if value = conjunctive then quantify conjunctive ws else done value

theorem bind_of_ok {w : Walk Event ε α} {k : α → Walk Event ε β} {a : α} (h : w.outcome = .ok a) :
    w.bind k = ⟨w.events ++ (k a).events, (k a).outcome⟩ := by rw [bind, h]

theorem bind_of_error {w : Walk Event ε α} {k : α → Walk Event ε β} {error : ε}
    (h : w.outcome = .error error) : w.bind k = ⟨w.events, .error error⟩ := by rw [bind, h]

/-- What a walk logs first stays first. -/
theorem exists_bind_events (w : Walk Event ε α) (k : α → Walk Event ε β) :
    ∃ rest, (w.bind k).events = w.events ++ rest := by
  cases h : w.outcome with
  | ok a => exact ⟨(k a).events, by rw [bind_of_ok h]⟩
  | error error => exact ⟨[], by rw [bind_of_error h, List.append_nil]⟩

/-! ### What holds of every event -/

/-- Every event is as it should be. -/
def All (P : Event → Prop) (w : Walk Event ε α) : Prop := ∀ event ∈ w.events, P event

variable {P : Event → Prop}

theorem all_done (a : α) : All P (done a : Walk Event ε α) := fun _ h => (nomatch h)

theorem all_log {event : Event} {w : Walk Event ε α} : All P (log event w) ↔ P event ∧ All P w :=
  List.forall_mem_cons

theorem All.of_bind {w : Walk Event ε α} {k : α → Walk Event ε β} (h : All P (w.bind k)) :
    All P w := by
  obtain ⟨rest, hrest⟩ := exists_bind_events w k
  intro event he
  exact h event (hrest ▸ List.mem_append_left _ he)

theorem all_bind_of_ok {w : Walk Event ε α} {k : α → Walk Event ε β} {a : α}
    (h : w.outcome = .ok a) : All P (w.bind k) ↔ All P w ∧ All P (k a) := by
  rw [bind_of_ok h]
  exact List.forall_mem_append

theorem All.bind {w : Walk Event ε α} {k : α → Walk Event ε β} (h : All P w)
    (hk : ∀ a, w.outcome = .ok a → All P (k a)) : All P (w.bind k) := by
  cases hw : w.outcome with
  | ok a => exact (all_bind_of_ok hw).2 ⟨h, hk a hw⟩
  | error error => rw [bind_of_error hw]; exact h

theorem All.quantify {conjunctive : Bool} : ∀ {ws : List (Walk Event ε Bool)},
    (∀ w ∈ ws, All P w) → All P (quantify conjunctive ws)
  | [], _ => all_done _
  | w :: ws, h => by
      refine (h w List.mem_cons_self).bind fun value _ => ?_
      by_cases hv : value = conjunctive
      · rw [if_pos hv]
        exact All.quantify fun w' hw' => h w' (List.mem_cons_of_mem _ hw')
      · rw [if_neg hv]
        exact all_done _

/-! ### Walks that return -/

def Returns (w : Walk Event ε α) : Prop := ∃ a, w.outcome = .ok a

theorem Returns.bind {w : Walk Event ε α} {k : α → Walk Event ε β} (h : Returns w)
    (hk : ∀ a, Returns (k a)) : Returns (w.bind k) := by
  obtain ⟨a, ha⟩ := h
  rw [bind_of_ok ha]
  exact hk a

theorem Returns.quantify {conjunctive : Bool} : ∀ {ws : List (Walk Event ε Bool)},
    (∀ w ∈ ws, Returns w) → Returns (quantify conjunctive ws)
  | [], _ => ⟨conjunctive, rfl⟩
  | w :: ws, h => by
      refine (h w List.mem_cons_self).bind fun value => ?_
      by_cases hv : value = conjunctive
      · rw [if_pos hv]
        exact Returns.quantify fun w' hw' => h w' (List.mem_cons_of_mem _ hw')
      · rw [if_neg hv]
        exact ⟨value, rfl⟩

/-! ### How many events of a kind -/

/-- How often the walk logs an event of the kind. -/
def count (kind : Event → Bool) (w : Walk Event ε α) : ℕ := w.events.countP kind

variable {kind : Event → Bool}

theorem count_bind_le {w : Walk Event ε α} {k : α → Walk Event ε β} {m n : ℕ}
    (h : count kind w ≤ m) (hk : ∀ a, count kind (k a) ≤ n) : count kind (w.bind k) ≤ m + n := by
  cases hw : w.outcome with
  | ok a =>
    rw [bind_of_ok hw, count, List.countP_append]
    exact Nat.add_le_add h (hk a)
  | error error =>
    rw [bind_of_error hw]
    exact Nat.le_trans h (Nat.le_add_right m n)

/-! ### One walk, or two that part -/

/-- At some event the walks part: the one goes on differently, or throws there. -/
def Parts (w w' : Walk Event ε α) : Prop :=
  ∃ before event after, w'.events = before ++ event :: after ∧
    ((w.events = before ∧ ∃ error, w.outcome = .error error) ∨
      ∃ event' after', event' ≠ event ∧ w.events = before ++ event' :: after')

theorem Parts.ne {w w' : Walk Event ε α} (h : Parts w w') : w ≠ w' := by
  rintro rfl
  obtain ⟨before, event, after, hw, ⟨hw', -⟩ | ⟨event', after', hne, hw'⟩⟩ := h
  · rw [hw'] at hw
    simp at hw
  · rw [hw'] at hw
    exact hne (List.cons.inj (List.append_cancel_left hw)).1

/-- Two walks that differ in their first event. -/
theorem parts_of_head {w w' : Walk Event ε α} {event event' : Event} {after after' : List Event}
    (hw : w.events = event' :: after') (hw' : w'.events = event :: after) (hne : event' ≠ event) :
    Parts w w' :=
  ⟨[], event, after, hw', Or.inr ⟨event', after', hne, hw⟩⟩

/-- A walk that throws where the other goes on. -/
theorem parts_of_fail {w' : Walk Event ε α} {error : ε} {event : Event} {after : List Event}
    (hw' : w'.events = event :: after) : Parts (fail error) w' :=
  ⟨[], event, after, hw', Or.inl ⟨rfl, error, rfl⟩⟩

theorem Parts.log {w w' : Walk Event ε α} (h : Parts w w') (event : Event) :
    Parts (log event w) (log event w') := by
  obtain ⟨before, event₀, after, hw', ⟨hw, herror⟩ | ⟨event', after', hne, hw⟩⟩ := h
  · exact ⟨event :: before, event₀, after, by rw [Walk.log, hw']; rfl,
      Or.inl ⟨by rw [Walk.log, hw], herror⟩⟩
  · exact ⟨event :: before, event₀, after, by rw [Walk.log, hw']; rfl,
      Or.inr ⟨event', after', hne, by rw [Walk.log, hw]; rfl⟩⟩

/-- Whatever follows, they stay apart. -/
theorem Parts.bind {w w' : Walk Event ε α} (h : Parts w w') (k k' : α → Walk Event ε β) :
    Parts (w.bind k) (w'.bind k') := by
  obtain ⟨before, event, after, hw', hcase⟩ := h
  obtain ⟨rest', hrest'⟩ := exists_bind_events w' k'
  refine ⟨before, event, after ++ rest', by rw [hrest', hw', List.append_assoc]; rfl, ?_⟩
  rcases hcase with ⟨hw, error, herror⟩ | ⟨event', after', hne, hw⟩
  · exact Or.inl ⟨by rw [bind_of_error herror]; exact hw, error, by rw [bind_of_error herror]⟩
  · obtain ⟨rest, hrest⟩ := exists_bind_events w k
    exact Or.inr ⟨event', after' ++ rest, hne, by rw [hrest, hw, List.append_assoc]; rfl⟩

theorem Parts.after {w : Walk Event ε α} {k k' : α → Walk Event ε β} {a : α}
    (h : Parts (k a) (k' a)) (hw : w.outcome = .ok a) : Parts (w.bind k) (w.bind k') := by
  obtain ⟨before, event, after, hk', hcase⟩ := h
  rw [bind_of_ok hw, bind_of_ok hw]
  refine ⟨w.events ++ before, event, after, by rw [hk', List.append_assoc], ?_⟩
  rcases hcase with ⟨hk, herror⟩ | ⟨event', after', hne, hk⟩
  · exact Or.inl ⟨by rw [hk], herror⟩
  · exact Or.inr ⟨event', after', hne, by rw [hk, List.append_assoc]⟩

/-- Either all the events of the second walk are as they should be and the first is the same walk, or
    some event is not and the walks part. -/
def SameOrParts (P : Event → Prop) (w w' : Walk Event ε α) : Prop :=
  w = w' ∧ All P w' ∨ Parts w w' ∧ ¬ All P w'

namespace SameOrParts

theorem iff_all {w w' : Walk Event ε α} (h : SameOrParts P w w') : w = w' ↔ All P w' := by
  rcases h with ⟨heq, hall⟩ | ⟨hparts, hall⟩
  · exact ⟨fun _ => hall, fun _ => heq⟩
  · exact ⟨fun heq => absurd heq hparts.ne, fun h => absurd h hall⟩

theorem log {w w' : Walk Event ε α} {event : Event} (h : SameOrParts P w w') (hevent : P event) :
    SameOrParts P (log event w) (log event w') := by
  rcases h with ⟨rfl, hall⟩ | ⟨hparts, hall⟩
  · exact Or.inl ⟨rfl, all_log.2 ⟨hevent, hall⟩⟩
  · exact Or.inr ⟨hparts.log event, fun h => hall (all_log.1 h).2⟩

theorem bind {w w' : Walk Event ε α} {k k' : α → Walk Event ε β} (h : SameOrParts P w w')
    (hk : ∀ a, SameOrParts P (k a) (k' a)) : SameOrParts P (w.bind k) (w'.bind k') := by
  rcases h with ⟨rfl, hall⟩ | ⟨hparts, hall⟩
  · cases hw : w.outcome with
    | error error =>
      rw [bind_of_error hw, bind_of_error hw]
      exact Or.inl ⟨rfl, hall⟩
    | ok a =>
      rcases hk a with ⟨heq, hall'⟩ | ⟨hparts, hall'⟩
      · refine Or.inl ⟨?_, (all_bind_of_ok hw).2 ⟨hall, hall'⟩⟩
        rw [bind_of_ok hw, bind_of_ok hw, heq]
      · exact Or.inr ⟨hparts.after hw, fun h => hall' ((all_bind_of_ok hw).1 h).2⟩
  · exact Or.inr ⟨hparts.bind k k', fun h => hall h.of_bind⟩

/-- Arguments walked one by one. -/
theorem quantify {γ : Type} {conjunctive : Bool} {f f' : γ → Walk Event ε Bool} :
    ∀ {args : List γ}, (∀ arg ∈ args, SameOrParts P (f arg) (f' arg)) →
      SameOrParts P (quantify conjunctive (args.map f)) (quantify conjunctive (args.map f'))
  | [], _ => Or.inl ⟨rfl, all_done _⟩
  | arg :: args, h => by
      refine (h arg List.mem_cons_self).bind fun value => ?_
      by_cases hv : value = conjunctive
      · rw [if_pos hv, if_pos hv]
        exact quantify fun arg' harg' => h arg' (List.mem_cons_of_mem _ harg')
      · rw [if_neg hv, if_neg hv]
        exact Or.inl ⟨rfl, all_done _⟩

end SameOrParts

end Walk

end HuntWarden
