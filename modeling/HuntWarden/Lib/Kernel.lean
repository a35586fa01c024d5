import HuntWarden.Lib.Program
import Mathlib.Data.Nat.Notation

/-! A file system that changes while a program looks at it. An object keeps its kind, its device and its
    number; what the directories hold, where links lead and what is in the files is different at every
    call, as other processes please. The clock counts the calls of the program. -/

namespace HuntWarden

open Outcome

inductive ObjectKind where
  | regular | directory | link | other
  deriving DecidableEq, Repr

/-- What may change about an open object. -/
structure Attributes where
  size : ℕ
  mode : ℕ
  uid : ℕ
  gid : ℕ
  mtime : String
  deriving DecidableEq, Repr

/-- The objects are numbered; what depends on the time takes the clock first. -/
structure ChangingFiles where
  kind : ℕ → ObjectKind
  device : ℕ → ℕ
  inode : ℕ → ℕ
  root : ℕ
  entry : ℕ → ℕ → String → Option ℕ
  target : ℕ → ℕ → Option ℕ
  allowed : ℕ → ℕ → Bool
  attributes : ℕ → ℕ → Attributes
  content : ℕ → ℕ → List UInt8
  /-- How much one read call gives at most. -/
  readable : ℕ → ℕ → ℕ
  /-- The path that is recorded for an open object. -/
  path : ℕ → ℕ → Option String

structure OpenFlags where
  directory : Bool
  noFollow : Bool

namespace ChangingFiles

variable {ε α : Type} (fs : ChangingFiles)

/-- One call to the kernel. -/
def call (body : ℕ → Except ε α) : Program ℕ ε α :=
  Program.update fun n => (body n).map fun a => (a, n + 1)

/-- `openat`: the object under a name in a directory, or the one a link there leads to. -/
def openat (flags : OpenFlags) (dir : ℕ) (name : String) (n : ℕ) : Option ℕ := do
  let o ← fs.entry n dir name
  let reached ← if fs.kind o = .link then (if flags.noFollow then none else fs.target n o) else some o
  if fs.allowed n reached ∧ (flags.directory → fs.kind reached = .directory) then some reached
  else none

/-- The path is opened component by component, each in the directory opened before. -/
def openPath (error : ε) : ℕ → List String → Program ℕ ε ℕ
  | _, [] => Program.throw error
  | dir, [name] => call fun n => orThrow (fs.openat ⟨false, true⟩ dir name n) error
  | dir, name :: rest => do
    let next ← call fun n => orThrow (fs.openat ⟨true, true⟩ dir name n) error
    openPath error next rest

/-- `read` at an offset. -/
def bytesAt (o offset length n : ℕ) : List UInt8 :=
  ((fs.content n o).drop offset).take (min length (fs.readable n o))

/-- Reads one after another until one of them gives nothing, with a check of how much has been read;
    `fuel` is how many reads there is time for. -/
def readOn (o length : ℕ) (check : ℕ → Except ε Unit) (timeout : ε) :
    ℕ → ℕ → Program ℕ ε (List UInt8)
  | 0, _ => Program.throw timeout
  | fuel + 1, position => do
    let bytes ← call fun n => .ok (fs.bytesAt o position length n)
    if bytes = [] then return []
    else do
      Program.reads fun _ => check (position + bytes.length)
      let rest ← readOn o length check timeout fuel (position + bytes.length)
      return bytes ++ rest

/-! ### Where objects and bytes come from -/

/-- The object at the end of a path, its components looked up one call after another. All of them but
    the last are directories, and none of them is a link. -/
inductive Walked : ℕ → ℕ → List String → ℕ → Prop
  | last {n dir o : ℕ} {name : String} (found : fs.entry n dir name = some o)
      (noLink : fs.kind o ≠ .link) : Walked n dir [name] o
  | through {n dir next o : ℕ} {name : String} {rest : List String}
      (found : fs.entry n dir name = some next) (directory : fs.kind next = .directory)
      (walked : Walked (n + 1) next rest o) : Walked n dir (name :: rest) o

/-- Bytes that were read from one object, in one read after another from a position on. -/
inductive Taken (o length : ℕ) : ℕ → ℕ → List UInt8 → Prop
  | done {n position : ℕ} (empty : fs.bytesAt o position length n = []) : Taken o length n position []
  | more {n position : ℕ} {rest : List UInt8}
      (taken : Taken o length (n + 1) (position + (fs.bytesAt o position length n).length) rest) :
      Taken o length n position (fs.bytesAt o position length n ++ rest)

variable {fs}

theorem ensures_call {body : ℕ → Except ε α} {n : ℕ} {returned : α → ℕ → Prop} :
    Program.Ensures (call body) n returned (fun _ _ => True) ↔
      ∀ a, body n = .ok a → returned a (n + 1) := by
  rw [call, Program.ensures_update]
  cases body n <;> simp [Except.map]

/-- What is opened without following links is what the directory holds. -/
theorem openat_noFollow {directory : Bool} {dir n o : ℕ} {name : String}
    (h : fs.openat ⟨directory, true⟩ dir name n = some o) :
    fs.entry n dir name = some o ∧ fs.kind o ≠ .link ∧ (directory = true → fs.kind o = .directory) := by
  rw [openat] at h
  obtain ⟨o', hfound, h⟩ := Option.bind_eq_some_iff.1 h
  by_cases hlink : fs.kind o' = .link
  · simp [hlink] at h
  · simp only [hlink, if_false] at h
    obtain ⟨reached, hreached, h⟩ := Option.bind_eq_some_iff.1 h
    obtain rfl := Option.some.inj hreached
    split at h
    · rename_i hallowed
      obtain rfl := Option.some.inj h
      exact ⟨hfound, hlink, hallowed.2⟩
    · cases h

theorem openPath_walked {error : ε} {dir n : ℕ} {parts : List String} :
    Program.Ensures (fs.openPath error dir parts) n (fun o _ => fs.Walked n dir parts o)
      fun _ _ => True := by
  induction parts generalizing dir n with
  | nil => exact trivial
  | cons name rest ih =>
    cases rest with
    | nil =>
      rw [openPath, ensures_call]
      intro o ho
      obtain ⟨hfound, hlink, -⟩ := openat_noFollow (orThrow_ok.1 ho)
      exact .last hfound hlink
    | cons name' rest =>
      rw [openPath, Program.ensures_bind, ensures_call]
      · intro next hnext
        obtain ⟨hfound, -, hdirectory⟩ := openat_noFollow (orThrow_ok.1 hnext)
        exact ih.mono (fun o _ hwalked => .through hfound (hdirectory rfl) hwalked) fun _ _ h => h
      · exact fun h => nomatch h

theorem readOn_taken {o length : ℕ} {check : ℕ → Except ε Unit} {timeout : ε} {fuel position n : ℕ} :
    Program.Ensures (fs.readOn o length check timeout fuel position) n
      (fun bytes _ => fs.Taken o length n position bytes) fun _ _ => True := by
  induction fuel generalizing position n with
  | zero => exact trivial
  | succ fuel ih =>
    rw [readOn, Program.ensures_bind, ensures_call]
    rintro bytes hbytes
    obtain rfl := Except.ok.inj hbytes
    by_cases hempty : fs.bytesAt o position length n = []
    · rw [if_pos hempty, Program.ensures_pure]
      exact .done hempty
    · rw [if_neg hempty, Program.ensures_bind, Program.ensures_reads]
      refine ⟨fun _ _ => ?_, fun _ _ => trivial⟩
      rw [Program.ensures_bind]
      refine ih.mono (fun rest _ htaken => ?_) fun _ _ h => h
      exact .more htaken

end ChangingFiles

end HuntWarden
