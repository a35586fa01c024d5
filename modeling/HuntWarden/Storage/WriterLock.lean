import HuntWarden.Lib.Runs
import Mathlib.Logic.Function.Basic

/-! The writer lock beside the database. Several processes open the store, a lock that a dead process left is taken
    over, and any process may end at any moment. As long as a lock is only removed by the call that judged it, and a
    live owner's lock is never read before it is written, one call at a time has the database. -/

namespace HuntWarden.WriterLock

open Runs

/-- The lock file. Its text is the pid, once it is written; which file it is and which call created it no opener can
    see. -/
structure LockFile where
  id : ℕ
  call : ℕ
  pid : Option ℕ
  deriving DecidableEq

/-- Where a call is in `acquireWriterLock`, and after it. `seen` is the file that was read, for the statements. -/
inductive Phase where
  | idle
  | opening (attempt : ℕ)
  | created (file : ℕ)
  | met (attempt : ℕ)
  | read (attempt ownerPid : ℕ) (seen : Option ℕ)
  | stale (attempt : ℕ) (seen : Option ℕ)
  | holding (file : ℕ)
  | held (ownerPid : ℕ)
  | failed
  deriving DecidableEq

/-- The pids that are in use, the lock file, the calls, and the number of the next file. -/
structure World where
  live : List ℕ
  lock : Option LockFile
  phase : ℕ → Phase
  next : ℕ

inductive Event where
  /-- A process gets a pid, the store's or any other. -/
  | spawn (pid : ℕ)
  /-- It ends, or is killed: its calls are gone, a lock file stays. -/
  | exit (pid : ℕ)
  | start (call : ℕ)
  | openSync (call : ℕ) (denied : Bool)
  | writeFileSync (call : ℕ) (full : Bool)
  | readFile (call : ℕ) (unreadable : Bool)
  | probe (call : ℕ)
  | unlink (call : ℕ) (denied : Bool)
  /-- `close()`, or what follows the lock in `open` throws. -/
  | close (call : ℕ) (denied : Bool)

namespace World

def go (w : World) (call : ℕ) (phase : Phase) : World :=
  { w with phase := Function.update w.phase call phase }

@[simp] theorem go_live (w : World) (call : ℕ) (phase : Phase) : (w.go call phase).live = w.live := rfl

@[simp] theorem go_lock (w : World) (call : ℕ) (phase : Phase) : (w.go call phase).lock = w.lock := rfl

@[simp] theorem go_next (w : World) (call : ℕ) (phase : Phase) : (w.go call phase).next = w.next := rfl

@[simp] theorem go_phase (w : World) (call : ℕ) (phase : Phase) : (w.go call phase).phase call = phase := by
  simp only [go, Function.update_self]

theorem go_phase_ne (w : World) {call other : ℕ} (phase : Phase) (h : other ≠ call) :
    (w.go call phase).phase other = w.phase other := by
  simp only [go, Function.update_of_ne h]

theorem go_phase_eq {w : World} {call other : ℕ} {phase after : Phase} :
    (w.go call phase).phase other = after ↔
      other = call ∧ phase = after ∨ other ≠ call ∧ w.phase other = after := by
  by_cases h : other = call
  · subst h
    simp
  · rw [w.go_phase_ne phase h]
    simp [h]

/-- The store is not open, and a lock may have been left behind. -/
def initial (left : Option LockFile) : World where
  live := []
  lock := left
  phase _ := .idle
  next := (left.map fun file => file.id + 1).getD 0

end World

variable (pidOf : ℕ → ℕ)

/-- `Number(JSON.parse(text).pid)`, 0 when there is no such text. -/
def ownerPid (unreadable : Bool) (lock : Option LockFile) : ℕ :=
  if unreadable then 0 else (lock.bind LockFile.pid).getD 0

def createFile (w : World) (call : ℕ) : World :=
  { w with lock := some ⟨w.next, call, none⟩, next := w.next + 1 }

/-- `open(path, "wx")`: the file is created, or there is one already. -/
def openSync (w : World) (call attempt : ℕ) : World :=
  match w.lock with
  | none => (createFile w call).go call (.created w.next)
  | some _ => w.go call (.met attempt)

/-- The text goes to the file that was created, which need not be the one at the path any more. -/
def writeText (w : World) (call file : ℕ) : World :=
  { w with
    lock := w.lock.map fun (found : LockFile) =>
      if found.id = file then { found with pid := some (pidOf call) } else found }

/-- `unlink` takes away whatever file is at the path. -/
def unlink (w : World) (denied : Bool) : World := if denied then w else { w with lock := none }

/-- A call that is not where the event takes place is left alone. -/
def step (w : World) : Event → World
  | .spawn pid => { w with live := pid :: w.live }
  | .exit pid =>
    { w with
      live := w.live.filter (· ≠ pid)
      phase := fun call => if pidOf call = pid then .idle else w.phase call }
  | .start call =>
    match w.phase call with
    | .idle | .held _ | .failed => if pidOf call ∈ w.live then w.go call (.opening 0) else w
    | _ => w
  | .openSync call denied =>
    match w.phase call with
    | .opening attempt => if denied then w.go call .failed else openSync w call attempt
    | _ => w
  | .writeFileSync call full =>
    match w.phase call with
    | .created file => if full then w.go call .failed else (writeText pidOf w call file).go call (.holding file)
    | _ => w
  | .readFile call unreadable =>
    match w.phase call with
    | .met attempt => w.go call (.read attempt (ownerPid unreadable w.lock) (w.lock.map LockFile.id))
    | _ => w
  | .probe call =>
    match w.phase call with
    | .read attempt ownerPid seen =>
      if 0 < ownerPid ∧ ownerPid ∈ w.live then w.go call (.held ownerPid) else w.go call (.stale attempt seen)
    | _ => w
  | .unlink call denied =>
    match w.phase call with
    | .stale attempt _ => (unlink w denied).go call (if attempt + 1 < 2 then .opening (attempt + 1) else .failed)
    | _ => w
  | .close call denied =>
    match w.phase call with
    | .holding _ => (unlink w denied).go call .idle
    | _ => w

/-! ### One call at a time -/

/-- The call that created the file is still at it. -/
def Owning (w : World) (file : LockFile) : Prop :=
  w.phase file.call = .created file.id ∨ w.phase file.call = .holding file.id

instance (w : World) (file : LockFile) : Decidable (Owning w file) :=
  inferInstanceAs (Decidable (_ ∨ _))

/-- A live owner's lock is read whole, and what is removed is the lock that was judged. -/
def careful (w : World) : Event → Bool
  | .readFile call unreadable =>
    match w.phase call, w.lock with
    | .met _, some file => !decide (Owning w file) || (!unreadable && file.pid.isSome)
    | _, _ => true
  | .unlink call _ =>
    match w.phase call, w.lock with
    | .stale _ seen, some file => seen = some file.id
    | _, _ => true
  | _ => true

/-- What a moment looks like when only one call has the database. -/
structure Exclusive (w : World) : Prop where
  one : ∀ {call other file file'}, w.phase call = .holding file → w.phase other = .holding file' → call = other
  own : ∀ {call file}, w.phase call = .holding file →
    pidOf call ∈ w.live ∧ w.lock = some ⟨file, call, some (pidOf call)⟩

/-- What a call knows about the lock at the path. -/
structure Inv (w : World) : Prop where
  alive : ∀ call, w.phase call ≠ .idle → pidOf call ∈ w.live
  fresh : ∀ file, w.lock = some file → file.id < w.next
  seen : ∀ call attempt pid file,
    (w.phase call = .read attempt pid (some file) ∨ w.phase call = .stale attempt (some file)) → file < w.next
  owned : ∀ call file, (w.phase call = .created file ∨ w.phase call = .holding file) →
    ∃ pid, w.lock = some ⟨file, call, pid⟩
  unwritten : ∀ call file, w.phase call = .created file → w.lock = some ⟨file, call, none⟩
  written : ∀ call file, w.phase call = .holding file → w.lock = some ⟨file, call, some (pidOf call)⟩
  judged : ∀ call attempt pid file, w.phase call = .read attempt pid (some file.id) → w.lock = some file →
    Owning w file → pid = pidOf file.call
  stale : ∀ call attempt file, w.phase call = .stale attempt (some file.id) → w.lock = some file → ¬ Owning w file

variable {pidOf} {w : World}

theorem inv_initial (left : Option LockFile) : Inv pidOf (World.initial left) where
  alive _ h := absurd rfl h
  fresh file h := by
    have hleft : left = some file := h
    simp [World.initial, hleft]
  seen _ _ _ _ h := by rcases h with h | h <;> cases h
  owned _ _ h := by rcases h with h | h <;> cases h
  unwritten _ _ h := by cases h
  written _ _ h := by cases h
  judged _ _ _ _ h := by cases h
  stale _ _ _ h := by cases h

theorem owning_of_go {call : ℕ} {phase : Phase} {file : LockFile} (hcreated : ∀ i, phase ≠ .created i)
    (hholding : ∀ i, phase ≠ .holding i) (h : Owning (w.go call phase) file) : file.call ≠ call ∧ Owning w file := by
  rcases h with h | h
  · rcases World.go_phase_eq.1 h with ⟨-, h⟩ | ⟨hne, h⟩
    · exact absurd h (hcreated _)
    · exact ⟨hne, .inl h⟩
  · rcases World.go_phase_eq.1 h with ⟨-, h⟩ | ⟨hne, h⟩
    · exact absurd h (hholding _)
    · exact ⟨hne, .inr h⟩

/-- A call moves on without touching the file. -/
theorem Inv.go (h : Inv pidOf w) {call : ℕ} {phase : Phase} (hlive : phase ≠ .idle → pidOf call ∈ w.live)
    (hcreated : ∀ i, phase ≠ .created i) (hholding : ∀ i, phase ≠ .holding i)
    (hseen : ∀ attempt pid file, (phase = .read attempt pid (some file) ∨ phase = .stale attempt (some file)) →
      file < w.next)
    (hjudged : ∀ attempt pid (file : LockFile), phase = .read attempt pid (some file.id) → w.lock = some file →
      Owning w file → pid = pidOf file.call)
    (hstale : ∀ attempt (file : LockFile), phase = .stale attempt (some file.id) → w.lock = some file →
      ¬ Owning w file) : Inv pidOf (w.go call phase) where
  alive other hother := by
    by_cases hsame : other = call
    · subst hsame
      exact hlive (by rwa [World.go_phase] at hother)
    · exact h.alive other (by rwa [w.go_phase_ne phase hsame] at hother)
  fresh := h.fresh
  seen other attempt pid file hother := by
    rcases hother with hother | hother
    · rcases World.go_phase_eq.1 hother with ⟨-, hother⟩ | ⟨-, hother⟩
      · exact hseen attempt pid file (.inl hother)
      · exact h.seen other attempt pid file (.inl hother)
    · rcases World.go_phase_eq.1 hother with ⟨-, hother⟩ | ⟨-, hother⟩
      · exact hseen attempt pid file (.inr hother)
      · exact h.seen other attempt pid file (.inr hother)
  owned other file hother := by
    rcases hother with hother | hother
    · rcases World.go_phase_eq.1 hother with ⟨-, hother⟩ | ⟨-, hother⟩
      · exact absurd hother (hcreated file)
      · exact h.owned other file (.inl hother)
    · rcases World.go_phase_eq.1 hother with ⟨-, hother⟩ | ⟨-, hother⟩
      · exact absurd hother (hholding file)
      · exact h.owned other file (.inr hother)
  unwritten other file hother := by
    rcases World.go_phase_eq.1 hother with ⟨-, hother⟩ | ⟨-, hother⟩
    · exact absurd hother (hcreated file)
    · exact h.unwritten other file hother
  written other file hother := by
    rcases World.go_phase_eq.1 hother with ⟨-, hother⟩ | ⟨-, hother⟩
    · exact absurd hother (hholding file)
    · exact h.written other file hother
  judged other attempt pid file hother hlock howning := by
    have hbefore := (owning_of_go hcreated hholding howning).2
    rcases World.go_phase_eq.1 hother with ⟨-, hother⟩ | ⟨-, hother⟩
    · exact hjudged attempt pid file hother hlock hbefore
    · exact h.judged other attempt pid file hother hlock hbefore
  stale other attempt file hother hlock howning := by
    have hbefore := (owning_of_go hcreated hholding howning).2
    rcases World.go_phase_eq.1 hother with ⟨-, hother⟩ | ⟨-, hother⟩
    · exact hstale attempt file hother hlock hbefore
    · exact h.stale other attempt file hother hlock hbefore

/-- Nobody's lock is taken away. -/
theorem Inv.unlink (h : Inv pidOf w) (hnot : ∀ file, w.lock = some file → ¬ Owning w file) (denied : Bool) :
    Inv pidOf (unlink w denied) := by
  cases denied with
  | true => exact h
  | false =>
    have hnone : ∀ call file, ¬ (w.phase call = .created file ∨ w.phase call = .holding file) := by
      intro call file hphase
      obtain ⟨pid, hlock⟩ := h.owned call file hphase
      exact hnot _ hlock hphase
    exact {
      alive := h.alive
      fresh := fun _ hlock => by cases hlock
      seen := h.seen
      owned := fun call file hphase => absurd hphase (hnone call file)
      unwritten := fun call file hphase => absurd (.inl hphase) (hnone call file)
      written := fun call file hphase => absurd (.inr hphase) (hnone call file)
      judged := fun _ _ _ _ _ hlock => by cases hlock
      stale := fun _ _ _ _ hlock => by cases hlock }

/-- The owner of the file at the path, if it has one. -/
theorem Inv.owner (h : Inv pidOf w) {call file : ℕ}
    (hcall : w.phase call = .created file ∨ w.phase call = .holding file) {found : LockFile}
    (hlock : w.lock = some found) : found.call = call ∧ found.id = file := by
  obtain ⟨pid, hown⟩ := h.owned call file hcall
  cases hlock.symm.trans hown
  exact ⟨rfl, rfl⟩

theorem Inv.nobody (h : Inv pidOf w) (hlock : w.lock = none) {call file : ℕ} :
    ¬ (w.phase call = .created file ∨ w.phase call = .holding file) := by
  intro hcall
  obtain ⟨pid, hown⟩ := h.owned call file hcall
  cases hlock.symm.trans hown

theorem Inv.created (h : Inv pidOf w) {call : ℕ} (hlive : pidOf call ∈ w.live) (hlock : w.lock = none) :
    Inv pidOf ((createFile w call).go call (.created w.next)) where
  alive other hother := by
    by_cases hsame : other = call
    · exact hsame ▸ hlive
    · rw [World.go_phase_ne _ _ hsame] at hother
      exact h.alive other hother
  fresh file hfile := by
    cases hfile
    exact Nat.lt_succ_self _
  seen other attempt pid file hother := by
    rcases hother with hother | hother
    · rcases World.go_phase_eq.1 hother with ⟨-, hother⟩ | ⟨-, hother⟩
      · cases hother
      · exact Nat.lt_succ_of_lt (h.seen other attempt pid file (.inl hother))
    · rcases World.go_phase_eq.1 hother with ⟨-, hother⟩ | ⟨-, hother⟩
      · cases hother
      · exact Nat.lt_succ_of_lt (h.seen other attempt pid file (.inr hother))
  owned other file hother := by
    rcases hother with hother | hother
    · rcases World.go_phase_eq.1 hother with ⟨rfl, hnew⟩ | ⟨-, hother⟩
      · cases hnew
        exact ⟨none, rfl⟩
      · exact absurd (.inl hother) (h.nobody hlock)
    · rcases World.go_phase_eq.1 hother with ⟨-, hother⟩ | ⟨-, hother⟩
      · cases hother
      · exact absurd (.inr hother) (h.nobody hlock)
  unwritten other file hother := by
    rcases World.go_phase_eq.1 hother with ⟨rfl, hnew⟩ | ⟨-, hother⟩
    · cases hnew
      rfl
    · exact absurd (.inl hother) (h.nobody hlock)
  written other file hother := by
    rcases World.go_phase_eq.1 hother with ⟨-, hother⟩ | ⟨-, hother⟩
    · cases hother
    · exact absurd (.inr hother) (h.nobody hlock)
  judged other attempt pid file hother hfile _ := by
    cases hfile
    rcases World.go_phase_eq.1 hother with ⟨-, hother⟩ | ⟨-, hother⟩
    · cases hother
    · exact absurd (h.seen other attempt pid _ (.inl hother)) (Nat.lt_irrefl _)
  stale other attempt file hother hfile _ := by
    cases hfile
    rcases World.go_phase_eq.1 hother with ⟨-, hother⟩ | ⟨-, hother⟩
    · cases hother
    · exact absurd (h.seen other attempt 0 _ (.inr hother)) (Nat.lt_irrefl _)

theorem lock_writeText {call file : ℕ} (hlock : w.lock = some ⟨file, call, none⟩) :
    (writeText pidOf w call file).lock = some ⟨file, call, some (pidOf call)⟩ := by
  simp [writeText, hlock]

theorem Inv.holding (h : Inv pidOf w) {call file : ℕ} (hcall : w.phase call = .created file) :
    Inv pidOf ((writeText pidOf w call file).go call (.holding file)) := by
  have hlock := h.unwritten call file hcall
  have hother : ∀ {other file'}, w.phase other = .created file' ∨ w.phase other = .holding file' →
      other = call ∧ file' = file := fun hphase =>
    ⟨(h.owner hphase hlock).1.symm, (h.owner hphase hlock).2.symm⟩
  have hafter : (writeText pidOf w call file).lock = some ⟨file, call, some (pidOf call)⟩ := lock_writeText hlock
  exact {
    alive := fun other hphase => by
      by_cases hsame : other = call
      · exact hsame ▸ h.alive call (by rw [hcall]; simp)
      · rw [World.go_phase_ne _ _ hsame] at hphase
        exact h.alive other hphase
    fresh := fun found hfound => by
      cases hafter.symm.trans hfound
      exact h.fresh ⟨file, call, none⟩ hlock
    seen := fun other attempt pid found hphase => by
      rcases hphase with hphase | hphase
      · rcases World.go_phase_eq.1 hphase with ⟨-, hphase⟩ | ⟨-, hphase⟩
        · cases hphase
        · exact h.seen other attempt pid found (.inl hphase)
      · rcases World.go_phase_eq.1 hphase with ⟨-, hphase⟩ | ⟨-, hphase⟩
        · cases hphase
        · exact h.seen other attempt pid found (.inr hphase)
    owned := fun other found hphase => by
      rcases hphase with hphase | hphase
      · rcases World.go_phase_eq.1 hphase with ⟨-, hphase⟩ | ⟨hne, hphase⟩
        · cases hphase
        · exact absurd (hother (.inl hphase)).1 hne
      · rcases World.go_phase_eq.1 hphase with ⟨rfl, hnew⟩ | ⟨hne, hphase⟩
        · cases hnew
          exact ⟨_, hafter⟩
        · exact absurd (hother (.inr hphase)).1 hne
    unwritten := fun other found hphase => by
      rcases World.go_phase_eq.1 hphase with ⟨-, hphase⟩ | ⟨hne, hphase⟩
      · cases hphase
      · exact absurd (hother (.inl hphase)).1 hne
    written := fun other found hphase => by
      rcases World.go_phase_eq.1 hphase with ⟨rfl, hnew⟩ | ⟨hne, hphase⟩
      · cases hnew
        exact hafter
      · exact absurd (hother (.inr hphase)).1 hne
    judged := fun other attempt pid found hphase hfound _ => by
      cases hafter.symm.trans hfound
      rcases World.go_phase_eq.1 hphase with ⟨-, hphase⟩ | ⟨-, hphase⟩
      · cases hphase
      · exact h.judged other attempt pid ⟨file, call, none⟩ hphase hlock (.inl hcall)
    stale := fun other attempt found hphase hfound _ => by
      cases hafter.symm.trans hfound
      rcases World.go_phase_eq.1 hphase with ⟨-, hphase⟩ | ⟨-, hphase⟩
      · cases hphase
      · exact h.stale other attempt ⟨file, call, none⟩ hphase hlock (.inl hcall) }

/-- The calls of a process end with it. -/
theorem Inv.exit (h : Inv pidOf w) (pid : ℕ) : Inv pidOf (step pidOf w (.exit pid)) := by
  have hphase : ∀ {call after}, (step pidOf w (.exit pid)).phase call = after → after ≠ .idle →
      pidOf call ≠ pid ∧ w.phase call = after := by
    intro call after hafter hidle
    have hnow : (if pidOf call = pid then .idle else w.phase call) = after := hafter
    by_cases hgone : pidOf call = pid
    · rw [if_pos hgone] at hnow
      exact absurd hnow.symm hidle
    · rw [if_neg hgone] at hnow
      exact ⟨hgone, hnow⟩
  have howning : ∀ {file}, Owning (step pidOf w (.exit pid)) file → Owning w file := fun hown =>
    hown.imp (fun hcreated => (hphase hcreated (by simp)).2) fun hholding => (hphase hholding (by simp)).2
  exact {
    alive := fun call hcall => by
      obtain ⟨hne, hbefore⟩ := hphase rfl hcall
      exact List.mem_filter.2 ⟨h.alive call (hbefore ▸ hcall), by simpa using hne⟩
    fresh := h.fresh
    seen := fun call attempt pid file hcall => h.seen call attempt pid file
      (hcall.imp (fun hread => (hphase hread (by simp)).2) fun hstale => (hphase hstale (by simp)).2)
    owned := fun call file hcall => h.owned call file
      (hcall.imp (fun hcreated => (hphase hcreated (by simp)).2) fun hholding => (hphase hholding (by simp)).2)
    unwritten := fun call file hcall => h.unwritten call file (hphase hcall (by simp)).2
    written := fun call file hcall => h.written call file (hphase hcall (by simp)).2
    judged := fun call attempt pid file hcall hlock hown =>
      h.judged call attempt pid file (hphase hcall (by simp)).2 hlock (howning hown)
    stale := fun call attempt file hcall hlock hown =>
      h.stale call attempt file (hphase hcall (by simp)).2 hlock (howning hown) }

/-- A phase in which a call knows nothing of the file. -/
theorem Inv.plain (h : Inv pidOf w) {call : ℕ} {phase : Phase} (hlive : phase ≠ .idle → pidOf call ∈ w.live)
    (hphase : phase = .idle ∨ (∃ k, phase = .opening k) ∨ (∃ k, phase = .met k) ∨ (∃ p, phase = .held p) ∨
      phase = .failed) :
    Inv pidOf (w.go call phase) := by
  rcases hphase with rfl | ⟨k, rfl⟩ | ⟨k, rfl⟩ | ⟨p, rfl⟩ | rfl <;>
    exact h.go hlive (by simp) (by simp) (by simp) (by simp) (by simp)

/-- A live owner's lock was read whole, and the text says who the owner is. -/
theorem Inv.reads (h : Inv pidOf w) {call attempt : ℕ} {unreadable : Bool} (hcall : w.phase call = .met attempt)
    (hc : careful w (.readFile call unreadable) = true) :
    Inv pidOf (w.go call (.read attempt (ownerPid unreadable w.lock) (w.lock.map LockFile.id))) := by
  refine h.go (fun _ => h.alive call (by rw [hcall]; simp)) (by simp) (by simp) ?_ ?_ (by simp)
  · rintro k pid file (hread | hread)
    · obtain ⟨-, -, hseen⟩ := Phase.read.inj hread
      obtain ⟨found, hfound, rfl⟩ := Option.map_eq_some_iff.1 hseen
      exact h.fresh found hfound
    · cases hread
  · intro k pid file hread hlock howning
    obtain ⟨-, rfl, -⟩ := Phase.read.inj hread
    simp only [careful, hcall, hlock, howning, decide_true, Bool.not_true, Bool.false_or, Bool.and_eq_true,
      Bool.not_eq_true'] at hc
    rcases howning with hcreated | hholding
    · have hfile := h.unwritten _ _ hcreated
      rw [Option.some.inj (hlock.symm.trans hfile)] at hc
      cases hc.2
    · have hfile := h.written _ _ hholding
      have htext : file.pid = some (pidOf file.call) := congrArg LockFile.pid (Option.some.inj (hlock.symm.trans hfile))
      simp [ownerPid, hc.1, hlock, htext]

theorem Inv.step (hpid : ∀ call, 0 < pidOf call) (h : Inv pidOf w) {e : Event} (hc : careful w e = true) :
    Inv pidOf (step pidOf w e) := by
  cases e with
  | spawn pid =>
    exact ⟨fun call hcall => List.mem_cons_of_mem _ (h.alive call hcall), h.fresh, h.seen, h.owned, h.unwritten,
      h.written, h.judged, h.stale⟩
  | exit pid => exact h.exit pid
  | start call =>
    rw [WriterLock.step]
    split
    all_goals first
      | exact h
      | split
        · rename_i hlive
          exact h.plain (fun _ => hlive) (.inr (.inl ⟨0, rfl⟩))
        · exact h
  | openSync call denied =>
    rw [WriterLock.step]
    split
    · rename_i attempt hcall
      have hlive : pidOf call ∈ w.live := h.alive call (by rw [hcall]; simp)
      cases denied with
      | true => exact h.plain (fun _ => hlive) (by simp)
      | false =>
        rw [if_neg (by simp), openSync]
        split
        · rename_i hlock
          exact h.created hlive hlock
        · exact h.plain (fun _ => hlive) (by simp)
    · exact h
  | writeFileSync call full =>
    rw [WriterLock.step]
    split
    · rename_i file hcall
      cases full with
      | true => exact h.plain (fun _ => h.alive call (by rw [hcall]; simp)) (by simp)
      | false => exact h.holding hcall
    · exact h
  | readFile call unreadable =>
    rw [WriterLock.step]
    split
    · rename_i attempt hcall
      exact h.reads hcall hc
    · exact h
  | probe call =>
    rw [WriterLock.step]
    split
    · rename_i attempt ownerPid seen hcall
      have hlive : pidOf call ∈ w.live := h.alive call (by rw [hcall]; simp)
      split
      · exact h.plain (fun _ => hlive) (by simp)
      · rename_i hdead
        refine h.go (fun _ => hlive) (by simp) (by simp) ?_ (by simp) ?_
        · rintro k pid file (hstale | hstale)
          · cases hstale
          · obtain ⟨-, rfl⟩ := Phase.stale.inj hstale
            exact h.seen call attempt ownerPid file (.inl hcall)
        · -- a live owner is found by its pid
          intro k file hstale hlock howning
          obtain ⟨-, rfl⟩ := Phase.stale.inj hstale
          have howner := h.judged call attempt ownerPid file hcall hlock howning
          refine hdead ⟨howner ▸ hpid file.call, howner ▸ h.alive file.call ?_⟩
          rcases howning with hown | hown <;> rw [hown] <;> simp
    · exact h
  | unlink call denied =>
    rw [WriterLock.step]
    split
    · rename_i attempt seen hcall
      have hnot : ∀ file, w.lock = some file → ¬ Owning w file := by
        intro file hlock
        have hseen : seen = some file.id := by simpa [careful, hcall, hlock] using hc
        exact h.stale call attempt file (hseen ▸ hcall) hlock
      refine (h.unlink hnot denied).plain (fun _ => ?_) ?_
      · have hlive : pidOf call ∈ w.live := h.alive call (by rw [hcall]; simp)
        cases denied <;> exact hlive
      · by_cases hlast : attempt + 1 < 2
        · exact .inr (.inl ⟨attempt + 1, if_pos hlast⟩)
        · exact .inr (.inr (.inr (.inr (if_neg hlast))))
    · exact h
  | close call denied =>
    rw [WriterLock.step]
    split
    · rename_i file hcall
      have hidle : Inv pidOf (w.go call .idle) := h.plain (by simp) (.inl rfl)
      have hnot : ∀ found, (w.go call .idle).lock = some found → ¬ Owning (w.go call .idle) found := by
        intro found hlock howning
        obtain ⟨hne, -⟩ := owning_of_go (by simp) (by simp) howning
        exact hne (h.owner (.inr hcall) hlock).1
      have hswap : (WriterLock.unlink w denied).go call .idle = WriterLock.unlink (w.go call .idle) denied := by
        cases denied <;> rfl
      rw [hswap]
      exact hidle.unlink hnot denied
    · exact h

theorem Inv.exclusive (h : Inv pidOf w) : Exclusive pidOf w where
  one hcall hother := by
    obtain ⟨hfirst, -⟩ := h.owner (.inr hother) (h.written _ _ hcall)
    exact hfirst
  own hcall := ⟨h.alive _ (by rw [hcall]; simp), h.written _ _ hcall⟩

/-- Whatever was left behind, whoever opens, closes or dies when: one call at a time has the database. -/
theorem writer_lock_exclusive (hpid : ∀ call, 0 < pidOf call) (left : Option LockFile) (es : List Event)
    (h : Along (step pidOf) (fun w e => careful w e = true) (World.initial left) es) (n : ℕ) :
    Exclusive pidOf (run (step pidOf) (World.initial left) (es.take n)) := by
  have hprefix : Along (step pidOf) (fun w e => careful w e = true) (World.initial left) (es.take n) := by
    rw [← List.take_append_drop n es, along_append] at h
    exact h.1
  exact (run_invariant (fun _ _ hinv hc => hinv.step hpid hc) (es.take n) _ (inv_initial left) hprefix).exclusive

/-- A process is killed between creating its lock and writing it; the next one takes over and a third is refused. -/
def takeover : List Event :=
  [.spawn 11, .start 1, .openSync 1 false, .exit 11, .spawn 12, .start 2, .openSync 2 false, .readFile 2 false,
    .probe 2, .unlink 2 false, .openSync 2 false, .writeFileSync 2 false, .spawn 13, .start 3, .openSync 3 false,
    .readFile 3 false, .probe 3]

theorem writer_lock_exclusive_takeover :
    Exclusive (· + 10) (run (step (· + 10)) (World.initial none) (takeover.take 17)) ∧
      (run (step (· + 10)) (World.initial none) (takeover.take 17)).phase 2 = .holding 1 :=
  ⟨@writer_lock_exclusive (· + 10) (fun _ => Nat.succ_pos _) none takeover (by decide) 17, rfl⟩

/-! ### A lock that nobody holds does not stay in the way -/

/-- One call of `acquireWriterLock` with nobody in between. -/
def openAlone (call : ℕ) : List Event :=
  [.start call, .openSync call false, .readFile call false, .probe call, .unlink call false, .openSync call false,
    .writeFileSync call false]

/-- Where a call may begin. -/
def Resting (phase : Phase) : Prop := phase = .idle ∨ (∃ pid, phase = .held pid) ∨ phase = .failed

section

variable {call : ℕ}

theorem step_start (hlive : pidOf call ∈ w.live) (h : Resting (w.phase call)) :
    step pidOf w (.start call) = w.go call (.opening 0) := by
  rcases h with h | ⟨pid, h⟩ | h <;> simp [step, h, hlive]

variable (pidOf w call) in
/-- The world in which a call that found no lock has its own. -/
def taken : World :=
  { w with lock := some ⟨w.next, call, some (pidOf call)⟩, next := w.next + 1 }.go call (.holding w.next)

theorem run_openAlone_none (hlive : pidOf call ∈ w.live) (hrest : Resting (w.phase call)) (hlock : w.lock = none) :
    run (step pidOf) w (openAlone call) = taken pidOf w call := by
  simp only [openAlone, run_cons, run_nil, step_start hlive hrest]
  simp [step, openSync, hlock, createFile, writeText, taken, World.go]

/-- The owner that the lock names is alive: the call is refused and nothing else happens. -/
theorem run_openAlone_held (hlive : pidOf call ∈ w.live) (hrest : Resting (w.phase call)) {file : LockFile} {pid : ℕ}
    (hlock : w.lock = some file) (htext : file.pid = some pid) (hpos : 0 < pid) (howner : pid ∈ w.live) :
    run (step pidOf) w (openAlone call) = w.go call (.held pid) := by
  simp only [openAlone, run_cons, run_nil, step_start hlive hrest]
  simp [step, openSync, hlock, ownerPid, htext, hpos, howner, World.go]

/-- It is not: the call takes the lock over. -/
theorem run_openAlone_stale (hlive : pidOf call ∈ w.live) (hrest : Resting (w.phase call)) {file : LockFile}
    (hlock : w.lock = some file) (hdead : ∀ pid, file.pid = some pid → pid ∉ w.live) :
    run (step pidOf) w (openAlone call) = taken pidOf w call := by
  have hgone : ¬ (0 < ownerPid false w.lock ∧ ownerPid false w.lock ∈ w.live) := by
    rintro ⟨hpos, hmem⟩
    cases htext : file.pid with
    | none => simp [ownerPid, hlock, htext] at hpos
    | some pid =>
      simp only [ownerPid, hlock, htext, Option.bind_some] at hmem
      exact hdead pid htext hmem
  rw [hlock] at hgone
  simp only [openAlone, run_cons, run_nil, step_start hlive hrest]
  simp [step, openSync, hlock, if_neg hgone, createFile, writeText, taken, World.go, unlink]

theorem exclusive_taken (hlive : pidOf call ∈ w.live) (hnone : ∀ other file, w.phase other ≠ .holding file) :
    Exclusive pidOf (taken pidOf w call) := by
  have hholding : ∀ {other file}, (taken pidOf w call).phase other = .holding file → other = call ∧ file = w.next := by
    intro other file hother
    rcases World.go_phase_eq.1 hother with ⟨hsame, hnew⟩ | ⟨-, hbefore⟩
    · exact ⟨hsame, (Phase.holding.inj hnew).symm⟩
    · exact absurd hbefore (hnone other file)
  refine ⟨fun hcall hother => (hholding hcall).1.trans (hholding hother).1.symm, fun hcall => ?_⟩
  obtain ⟨rfl, rfl⟩ := hholding hcall
  exact ⟨hlive, rfl⟩

end

/-- What a call comes to that opens the store alone: refused by the call that has it, or else in its place. -/
structure OpensAlone (pidOf : ℕ → ℕ) (w : World) (call : ℕ) (after : World) : Prop where
  refused : ∀ other file, w.phase other = .holding file → after = w.go call (.held (pidOf other))
  taken : (∀ other file, w.phase other ≠ .holding file) →
    (∃ file, after.phase call = .holding file) ∧ after.live = w.live ∧
      (∀ other ≠ call, after.phase other = w.phase other) ∧ Exclusive pidOf after

theorem Inv.opensAlone (hpid : ∀ call, 0 < pidOf call) (h : Inv pidOf w) {call : ℕ} (hlive : pidOf call ∈ w.live)
    (hrest : Resting (w.phase call)) (hsettled : ∀ other file, w.phase other ≠ .created file)
    (hreuse : ∀ file pid, w.lock = some file → file.pid = some pid → ¬ Owning w file → pid ∉ w.live) :
    OpensAlone pidOf w call (run (WriterLock.step pidOf) w (openAlone call)) where
  refused other file hother := by
    have hlock := h.written other file hother
    exact run_openAlone_held hlive hrest hlock rfl (hpid other) (h.alive other (by rw [hother]; simp))
  taken hnone := by
    have htaken : run (WriterLock.step pidOf) w (openAlone call) = WriterLock.taken pidOf w call := by
      cases hlock : w.lock with
      | none => exact run_openAlone_none hlive hrest hlock
      | some file =>
        have hnot : ¬ Owning w file := by
          rintro (hcreated | hholding)
          · exact hsettled _ _ hcreated
          · exact hnone _ _ hholding
        exact run_openAlone_stale hlive hrest hlock fun pid htext => hreuse file pid hlock htext hnot
    rw [htaken]
    refine ⟨⟨w.next, World.go_phase _ _ _⟩, rfl, fun other hne => World.go_phase_ne _ _ hne, ?_⟩
    exact exclusive_taken hlive hnone

/-- A lock keeps a call out exactly as long as a live call has it, whatever came before. -/
theorem writer_lock_recovers (hpid : ∀ call, 0 < pidOf call) (left : Option LockFile) (es : List Event)
    (h : Along (step pidOf) (fun w e => careful w e = true) (World.initial left) es) (call : ℕ)
    (hlive : pidOf call ∈ (run (step pidOf) (World.initial left) es).live)
    (hrest : Resting ((run (step pidOf) (World.initial left) es).phase call))
    (hsettled : ∀ other file, (run (step pidOf) (World.initial left) es).phase other ≠ .created file)
    (hreuse : ∀ file pid, (run (step pidOf) (World.initial left) es).lock = some file → file.pid = some pid →
      ¬ Owning (run (step pidOf) (World.initial left) es) file →
        pid ∉ (run (step pidOf) (World.initial left) es).live) :
    OpensAlone pidOf (run (step pidOf) (World.initial left) es) call
      (run (step pidOf) (World.initial left) (es ++ openAlone call)) := by
  rw [run_append]
  have hinv : Inv pidOf (run (step pidOf) (World.initial left) es) :=
    run_invariant (fun _ _ hinv hc => hinv.step hpid hc) es _ (inv_initial left) h
  exact hinv.opensAlone hpid hlive hrest hsettled hreuse

theorem killed_settled (other file : ℕ) :
    (run (step (· + 10)) (World.initial none) (takeover.take 5)).phase other ≠ .created file := by
  change (if other + 10 = 11 then Phase.idle
    else Function.update (Function.update (fun _ => Phase.idle) 1 (.opening 0)) 1 (.created 0) other) ≠ .created file
  by_cases hother : other = 1
  · rw [if_pos (by omega)]
    simp
  · rw [if_neg (by omega), Function.update_of_ne hother, Function.update_of_ne hother]
    simp

theorem writer_lock_recovers_killed :
    OpensAlone (· + 10) (run (step (· + 10)) (World.initial none) (takeover.take 5)) 2
      (run (step (· + 10)) (World.initial none) (takeover.take 5 ++ openAlone 2)) :=
  @writer_lock_recovers (· + 10) (fun _ => Nat.succ_pos _) none (takeover.take 5) (by decide) 2 (by decide) (.inl rfl)
    killed_settled (fun file pid hlock htext => by cases hlock; cases htext)

end HuntWarden.WriterLock
