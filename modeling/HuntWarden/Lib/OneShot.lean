import Mathlib.Data.List.Nodup
import Mathlib.Data.List.Perm.Subperm
import Mathlib.Logic.Function.Basic

/-! One-time permissions. A registry holds one permission per id; it is issued pending, decided once,
    used at most once after a positive decision, and may expire before that. `Explained` says that
    the log of decisions and uses is, id by id, exactly what brought each permission to its phase;
    every move keeps it, and it is all that the counting results need. -/

namespace HuntWarden.OneShot

variable {ι : Type}

inductive Phase where
  | pending | approved | denied | consumed | expired
  deriving DecidableEq, Repr

/-- A permission that has reached one of these is spent for good. -/
def Phase.terminal : Phase → Bool
  | .denied | .consumed | .expired => true
  | .pending | .approved => false

inductive Event (ι : Type) where
  | decided (id : ι) (approved : Bool)
  | used (id : ι)
  deriving DecidableEq, Repr

def Event.subject : Event ι → ι
  | .decided id _ => id
  | .used id => id

/-- `none` is an id never issued. -/
abbrev Registry (ι : Type) := ι → Option Phase

variable [DecidableEq ι]

/-- The moves of a registry, with what each writes to the log. -/
inductive Move : Registry ι → List (Event ι) → Registry ι → Prop
  | idle (r : Registry ι) : Move r [] r
  | issue {r : Registry ι} (id : ι) (fresh : r id = none) :
      Move r [] (Function.update r id (some .pending))
  | decide {r : Registry ι} (id : ι) (approved : Bool) (open_ : r id = some .pending) :
      Move r [.decided id approved]
        (Function.update r id (some (if approved then .approved else .denied)))
  | use {r : Registry ι} (id : ι) (granted : r id = some .approved) :
      Move r [.used id] (Function.update r id (some .consumed))
  | expire {r r' : Registry ι} (only : ∀ id, r' id = r id ∨
      r' id = some .expired ∧ (r id = some .pending ∨ r id = some .approved)) : Move r [] r'

/-- The part of a log that is about one id. -/
def history (id : ι) (log : List (Event ι)) : List (Event ι) :=
  log.filter fun e => e.subject = id

@[simp] theorem history_append (id : ι) (log later : List (Event ι)) :
    history id (log ++ later) = history id log ++ history id later := List.filter_append ..

theorem history_self (e : Event ι) : history e.subject [e] = [e] := by simp [history]

theorem history_other {id : ι} {e : Event ι} (h : e.subject ≠ id) : history id [e] = [] := by
  simp [history, h]

/-- What the log holds about a permission in a given phase. -/
def Explains (id : ι) : Option Phase → List (Event ι) → Prop
  | none, h => h = []
  | some .pending, h => h = []
  | some .approved, h => h = [.decided id true]
  | some .denied, h => h = [.decided id false]
  | some .consumed, h => h = [.decided id true, .used id]
  | some .expired, h => h = [] ∨ h = [.decided id true]

def Explained (r : Registry ι) (log : List (Event ι)) : Prop :=
  ∀ id, Explains id (r id) (history id log)

theorem explained_empty : Explained (fun _ => none : Registry ι) [] := fun _ => rfl

theorem explained_update {r : Registry ι} {log : List (Event ι)} {e : Event ι} {phase : Option Phase}
    (h : Explained r log) (he : Explains e.subject phase (history e.subject log ++ [e])) :
    Explained (Function.update r e.subject phase) (log ++ [e]) := by
  intro id
  by_cases hid : id = e.subject
  · subst hid; rw [Function.update_self, history_append, history_self]; exact he
  · rw [Function.update_of_ne hid, history_append, history_other (Ne.symm hid), List.append_nil]
    exact h id

theorem Move.explained {r r' : Registry ι} {log events : List (Event ι)} (hmove : Move r events r')
    (h : Explained r log) : Explained r' (log ++ events) := by
  cases hmove with
  | idle => rw [List.append_nil]; exact h
  | issue id fresh =>
    intro id'
    rw [List.append_nil]
    by_cases hid : id' = id
    · subst hid
      have hnone := h id'
      rw [fresh] at hnone
      rw [Function.update_self]; exact hnone
    · rw [Function.update_of_ne hid]; exact h id'
  | decide id approved open_ =>
    refine explained_update (e := .decided id approved) h ?_
    have hpending := h id
    rw [open_] at hpending
    simp only [Event.subject, show history id log = [] from hpending]
    cases approved <;> rfl
  | use id granted =>
    refine explained_update (e := .used id) h ?_
    have happroved := h id
    rw [granted] at happroved
    simp only [Event.subject, show history id log = [.decided id true] from happroved]
    rfl
  | expire only =>
    intro id
    rw [List.append_nil]
    have hid := h id
    rcases only id with heq | ⟨heq, hpending | happroved⟩
    · rw [heq]; exact hid
    · rw [hpending] at hid; rw [heq]; exact Or.inl hid
    · rw [happroved] at hid; rw [heq]; exact Or.inr hid

/-- A spent permission stays as it is. -/
theorem Move.terminal {r r' : Registry ι} {events : List (Event ι)} (hmove : Move r events r')
    {id : ι} {phase : Phase} (hid : r id = some phase) (hterm : phase.terminal = true) :
    r' id = some phase := by
  have hne : ∀ {id' : ι} {other : Option Phase}, r id' = other → other ≠ some phase → id ≠ id' := by
    rintro id' other h hother rfl; exact hother (h.symm.trans hid)
  cases hmove with
  | idle => exact hid
  | issue id' fresh => rw [Function.update_of_ne (hne fresh (by simp))]; exact hid
  | decide id' approved open_ =>
    rw [Function.update_of_ne (hne open_ (by rintro ⟨⟩; cases hterm))]; exact hid
  | use id' granted =>
    rw [Function.update_of_ne (hne granted (by rintro ⟨⟩; cases hterm))]; exact hid
  | expire only =>
    rcases only id with heq | ⟨-, h | h⟩
    · exact heq.trans hid
    · rw [hid] at h; cases h; cases hterm
    · rw [hid] at h; cases h; cases hterm

/-- What a move does not decide stays open, or expires. -/
theorem Move.undecided {r r' : Registry ι} {events : List (Event ι)} (hmove : Move r events r') {id : ι}
    (hevents : ∀ approved, Event.decided id approved ∉ events)
    (hid : r id = some .pending ∨ r id = some .expired) : r' id = some .pending ∨ r' id = some .expired := by
  rcases hid with hid | hid
  · cases hmove with
    | idle => exact Or.inl hid
    | issue id' fresh =>
      have hne : id ≠ id' := by
        rintro rfl
        rw [hid] at fresh
        cases fresh
      rw [Function.update_of_ne hne]
      exact Or.inl hid
    | decide id' approved open_ =>
      have hne : id ≠ id' := by
        rintro rfl
        exact hevents approved (List.mem_singleton_self _)
      rw [Function.update_of_ne hne]
      exact Or.inl hid
    | use id' granted =>
      have hne : id ≠ id' := by
        rintro rfl
        rw [hid] at granted
        cases granted
      rw [Function.update_of_ne hne]
      exact Or.inl hid
    | expire only =>
      rcases only id with heq | ⟨heq, -⟩
      · exact Or.inl (heq.trans hid)
      · exact Or.inr heq
  · exact Or.inr (hmove.terminal hid rfl)

/-- No move reopens a permission. -/
theorem Move.settled {r r' : Registry ι} {events : List (Event ι)} (hmove : Move r events r') {id : ι}
    {phase : Phase} (hid : r id = some phase) (hphase : phase ≠ .pending) :
    ∃ phase', r' id = some phase' ∧ phase' ≠ .pending := by
  cases hmove with
  | idle => exact ⟨phase, hid, hphase⟩
  | issue id' fresh =>
    have hne : id ≠ id' := by
      rintro rfl
      rw [hid] at fresh
      cases fresh
    exact ⟨phase, by rw [Function.update_of_ne hne, hid], hphase⟩
  | decide id' approved open_ =>
    have hne : id ≠ id' := by
      rintro rfl
      rw [hid] at open_
      exact hphase (Option.some.inj open_)
    exact ⟨phase, by rw [Function.update_of_ne hne, hid], hphase⟩
  | use id' granted =>
    by_cases hne : id = id'
    · rw [hne]
      exact ⟨.consumed, Function.update_self .., by simp⟩
    · exact ⟨phase, by rw [Function.update_of_ne hne, hid], hphase⟩
  | expire only =>
    rcases only id with heq | ⟨heq, -⟩
    · exact ⟨phase, heq.trans hid, hphase⟩
    · exact ⟨.expired, heq, by simp⟩

/-! ### Counting -/

def usedIds (log : List (Event ι)) : List ι :=
  log.filterMap fun e => match e with | .used id => some id | _ => none

def approvedIds (log : List (Event ι)) : List ι :=
  log.filterMap fun e => match e with | .decided id true => some id | _ => none

omit [DecidableEq ι] in
theorem mem_usedIds {id : ι} {log : List (Event ι)} : id ∈ usedIds log ↔ .used id ∈ log := by
  simp only [usedIds, List.mem_filterMap]
  constructor
  · rintro ⟨e, he, h⟩; cases e with
    | decided => cases h
    | used id' => cases h; exact he
  · exact fun h => ⟨_, h, rfl⟩

omit [DecidableEq ι] in
theorem mem_approvedIds {id : ι} {log : List (Event ι)} :
    id ∈ approvedIds log ↔ .decided id true ∈ log := by
  simp only [approvedIds, List.mem_filterMap]
  constructor
  · rintro ⟨e, he, h⟩
    rcases e with ⟨id', _ | _⟩ | id'
    · cases h
    · cases h; exact he
    · cases h
  · exact fun h => ⟨_, h, rfl⟩

theorem count_history (id : ι) (e : Event ι) (he : e.subject = id) (log : List (Event ι)) :
    (history id log).count e = log.count e :=
  List.count_filter (by simpa using he)

/-- Nothing is used twice. -/
theorem count_used_le {r : Registry ι} {log : List (Event ι)} (h : Explained r log) (id : ι) :
    log.count (.used id) ≤ 1 := by
  rw [← count_history id _ rfl]
  have hid := h id
  cases hr : r id with
  | none => rw [hr] at hid; rw [show history id log = [] from hid]; simp
  | some phase =>
    rw [hr] at hid
    cases phase with
    | expired => rcases hid with hid | hid <;> rw [hid] <;> simp
    | _ => rw [show history id log = _ from hid]; simp

/-- What was used had been approved. -/
theorem approved_of_used {r : Registry ι} {log : List (Event ι)} (h : Explained r log) {id : ι}
    (hused : .used id ∈ log) : .decided id true ∈ log := by
  have hmem : Event.used id ∈ history id log := List.mem_filter.2 ⟨hused, by simp [Event.subject]⟩
  have hid := h id
  suffices hsuf : Event.decided id true ∈ history id log from (List.mem_filter.1 hsuf).1
  cases hr : r id with
  | none => rw [hr] at hid; rw [show history id log = [] from hid] at hmem; cases hmem
  | some phase =>
    rw [hr] at hid
    cases phase with
    | expired => rcases hid with hid | hid <;> rw [hid] at hmem ⊢ <;> simp at hmem
    | _ => rw [show history id log = _ from hid] at hmem ⊢; simp at hmem ⊢

theorem nodup_usedIds {log : List (Event ι)} (h : ∀ id, log.count (.used id) ≤ 1) :
    (usedIds log).Nodup := by
  rw [List.nodup_iff_count_le_one]
  intro id
  refine Nat.le_trans (Nat.le_of_eq ?_) (h id)
  rw [usedIds, List.count_filterMap, List.count_eq_countP]
  refine List.countP_congr fun e _ => ?_
  cases e with
  | decided => simp
  | used id' => simp

/-- No more uses than approvals. -/
theorem length_usedIds_le {r : Registry ι} {log : List (Event ι)} (h : Explained r log) :
    (usedIds log).length ≤ (approvedIds log).length := by
  refine (List.subperm_of_subset (nodup_usedIds (count_used_le h)) fun id hid => ?_).length_le
  exact mem_approvedIds.2 (approved_of_used h (mem_usedIds.1 hid))

end HuntWarden.OneShot
