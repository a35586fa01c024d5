import HuntWarden.Lib.OrderedMap
import HuntWarden.Lib.Runs

/-! The encrypted credential store: one file for all providers, one chain of operations for each
    provider. An operation reads the file, computes, and replaces the file as a whole, and other chains
    run while it awaits. One event is one awaited step. -/

namespace HuntWarden.CredentialStore

open OrderedMap Runs

/-- The platform's secret storage. An encryption may be salted, and both directions may throw. -/
structure SecretCipher where
  encrypt : ℕ → String → Option String
  decrypt : String → Option String

/-- What `readFile` finds under the path. -/
inductive CredentialFile where
  | missing
  | damaged
  | stored (entries : List (String × String))
  deriving DecidableEq

/-- `replace` and `modify` are given the credential as its JSON text. -/
inductive Operation where
  | replace (credential : String)
  | modify
  | delete
  deriving DecidableEq

/-- The entries an operation read, and how often the file had been replaced before. -/
structure Snapshot where
  entries : List (String × String)
  version : ℕ
  deriving DecidableEq

/-- What an operation awaits. -/
inductive Phase where
  /-- the operations before it on the chain of its provider -/
  | queued
  /-- the function given to `modify`, called with the entry that was read -/
  | calling (entry : Option String)
  /-- `isSecure`, before `modify` stores the credential -/
  | securing (credential : String)
  /-- `readFile`, before the entry is set or deleted -/
  | reading (credential : Option String)
  /-- the copy of a file whose entry cannot be read -/
  | backingUp (file : Snapshot) (credential : String)
  | encrypting (file : Snapshot) (credential : String)
  /-- the rename of the new file onto the path -/
  | writing (file : Snapshot) (entry : Option String)
  /-- the change of mode after the rename -/
  | closing (entry : Option String)
  deriving DecidableEq

structure Job where
  operation : Operation
  phase : Phase
  deriving DecidableEq

/-- How an awaited step ends. A step fails when it throws, and when the signal is aborted or the
    storage is not secure where the operation tests that. -/
inductive Answer where
  | done (salt : ℕ)
  | returned (next : Option String)
  | failed
  deriving DecidableEq

inductive Event where
  | call (providerId : String) (operation : Operation)
  | resume (providerId : String) (answer : Answer)
  deriving DecidableEq

/-- The file on disk, the chains, and the results of the operations that completed, oldest first. -/
structure Store where
  file : CredentialFile
  replaced : ℕ
  chains : String → List Job
  backups : List CredentialFile
  completed : List (String × Option String)

/-- The environment of a store: its cipher, and which decrypted texts parse as JSON. -/
structure Env where
  cipher : SecretCipher
  parses : String → Bool

namespace CredentialFile

/-- `readFile`: a missing file reads as an empty one. -/
def read? : CredentialFile → Option (List (String × String))
  | missing => some []
  | damaged => none
  | stored entries => some entries

/-- `file.entries[providerId]` -/
def entry (file : CredentialFile) (providerId : String) : Option String :=
  (file.read?.getD []).lookup providerId

end CredentialFile

/-- `file.entries[providerId] = …`, or its deletion. -/
def setEntry (providerId : String) (entry : Option String) (entries : List (String × String)) :
    List (String × String) :=
  match entry with
  | some cipherText => upsert providerId (fun _ => cipherText) entries
  | none => entries.filter (·.1 ≠ providerId)

/-- An entry that `decrypt` and `JSON.parse` accept; an empty text counts as no entry. -/
def readable (env : Env) (entry : Option String) : Bool :=
  match entry.filter (· ≠ "") with
  | none => true
  | some cipherText => (env.cipher.decrypt cipherText).any env.parses

namespace Store

/-- The store before any call. -/
def idle (file : CredentialFile) : Store :=
  { file, replaced := 0, chains := fun _ => [], backups := [], completed := [] }

def setChain (s : Store) (providerId : String) (chain : List Job) : Store :=
  { s with chains := Function.update s.chains providerId chain }

/-- The first job of the chain goes on in a later phase. -/
def await (s : Store) (providerId : String) (job : Job) (phase : Phase) : Store :=
  s.setChain providerId ({ job with phase } :: (s.chains providerId).tail)

/-- The promise of the first job is rejected; the chain goes on with the next one. -/
def reject (s : Store) (providerId : String) : Store :=
  s.setChain providerId (s.chains providerId).tail

/-- The promise of the first job is fulfilled. -/
def fulfil (s : Store) (providerId : String) (entry : Option String) : Store :=
  { s.reject providerId with completed := s.completed ++ [(providerId, entry)] }

/-- `read` as `modify` calls it. -/
def readCurrent (env : Env) (s : Store) (providerId : String) (job : Job) : Store :=
  match s.file.read? with
  | none => s.reject providerId
  | some entries =>
    if readable env (entries.lookup providerId) then
      s.await providerId job (.calling (entries.lookup providerId))
    else s.reject providerId

/-- `readFile` before a rewrite. Only `replace` looks at the entry it is about to set. -/
def readForRewrite (env : Env) (s : Store) (providerId : String) (job : Job)
    (credential : Option String) : Store :=
  match s.file.read? with
  | none => s.reject providerId
  | some entries =>
    let file : Snapshot := { entries, version := s.replaced }
    match credential with
    | none => s.await providerId job (.writing file none)
    | some text =>
      if job.operation = .modify ∨ readable env (entries.lookup providerId) then
        s.await providerId job (.encrypting file text)
      else s.await providerId job (.backingUp file text)

/-- `rename(temp, path)` -/
def replaceFile (s : Store) (providerId : String) (job : Job) (file : Snapshot)
    (entry : Option String) : Store :=
  { s.await providerId job (.closing entry) with
    file := .stored (setEntry providerId entry file.entries)
    replaced := s.replaced + 1 }

/-- One awaited step of the first job of a chain ends well. -/
def proceed (env : Env) (s : Store) (providerId : String) (job : Job) (salt : ℕ) : Store :=
  match job.phase with
  | .queued =>
    match job.operation with
    | .replace credential => s.await providerId job (.reading (some credential))
    | .modify => s.readCurrent env providerId job
    | .delete => s.await providerId job (.reading none)
  | .calling _ => s
  | .securing credential => s.await providerId job (.reading (some credential))
  | .reading credential => s.readForRewrite env providerId job credential
  | .backingUp file credential =>
    { s.await providerId job (.encrypting file credential) with backups := s.backups ++ [s.file] }
  | .encrypting file credential =>
    match env.cipher.encrypt salt credential with
    | none => s.reject providerId
    | some cipherText => s.await providerId job (.writing file (some cipherText))
  | .writing file entry => s.replaceFile providerId job file entry
  | .closing entry => s.fulfil providerId entry

/-- The function given to `modify` returns; `undefined` leaves the credential as it is. -/
def returns (s : Store) (providerId : String) (job : Job) (next : Option String) : Store :=
  match job.phase, next with
  | .calling entry, none => s.fulfil providerId entry
  | .calling _, some credential => s.await providerId job (.securing credential)
  | _, _ => s

def step (env : Env) (s : Store) : Event → Store
  | .call providerId operation =>
    s.setChain providerId (s.chains providerId ++ [{ operation, phase := .queued }])
  | .resume providerId answer =>
    match (s.chains providerId).head? with
    | none => s
    | some job =>
      match answer with
      | .done salt => s.proceed env providerId job salt
      | .returned next => s.returns providerId job next
      | .failed => s.reject providerId

/-! ### What a step touches -/

@[simp] theorem setChain_self (s : Store) (p : String) (chain : List Job) :
    (s.setChain p chain).chains p = chain := Function.update_self ..

theorem setChain_ne (s : Store) {p q : String} (chain : List Job) (h : q ≠ p) :
    (s.setChain p chain).chains q = s.chains q := Function.update_of_ne h ..

/-- Everything but the chain of one provider is as before. -/
structure SameBut (p : String) (s s' : Store) : Prop where
  file : s'.file = s.file
  replaced : s'.replaced = s.replaced
  completed : s'.completed = s.completed
  chains : ∀ q, q ≠ p → s'.chains q = s.chains q

theorem setChain_sameBut (s : Store) (p : String) (chain : List Job) :
    SameBut p s (s.setChain p chain) :=
  ⟨rfl, rfl, rfl, fun _ hq => s.setChain_ne chain hq⟩

/-- The results a chain of a provider is about to report: its first job has renamed the file. -/
def Renamed (s : Store) (p : String) : Prop :=
  ∃ job entry, (s.chains p).head? = some job ∧ job.phase = .closing entry

end Store

/-! ### The store as one map -/

/-- One map of entries, each completed operation one update of its own key. -/
def held (entry : String → Option String) (completed : List (String × Option String)) :
    String → Option String :=
  completed.foldl (fun entries result => Function.update entries result.1 result.2) entry

theorem held_append (entry : String → Option String) (completed : List (String × Option String))
    (p : String) (result : Option String) :
    held entry (completed ++ [(p, result)]) = Function.update (held entry completed) p result := by
  simp [held]

/-- The file holds for each provider the result of its last completed operation, and what it held
    before where there is none; a provider between its rename and its answer is left out. -/
def Held (file : CredentialFile) (s : Store) : Prop :=
  ∀ p, ¬ s.Renamed p → s.file.entry p = held file.entry s.completed p

/-- A file is replaced only when no other operation replaced it since it was read, and nothing fails
    after the rename. -/
def undisturbed (s : Store) : Event → Bool
  | .call _ _ => true
  | .resume p answer =>
    match (s.chains p).head?, answer with
    | some ⟨_, .writing file _⟩, .done _ => file.version = s.replaced
    | some ⟨_, .closing _⟩, .failed => false
    | _, _ => true

/-! ### Reading and replacing the file -/

theorem lookup_setEntry (p q : String) (entry : Option String) (entries : List (String × String)) :
    (setEntry p entry entries).lookup q = if q = p then entry else entries.lookup q := by
  cases entry with
  | none => exact lookup_filter_ne p q entries
  | some cipherText => exact lookup_upsert p q _ entries

theorem entry_of_read {file : CredentialFile} {entries : List (String × String)}
    (h : file.read? = some entries) (q : String) : file.entry q = entries.lookup q := by
  rw [CredentialFile.entry, h, Option.getD_some]

/-- What the first job of a chain knows of the file. -/
def Current (s : Store) (p : String) : Phase → Prop
  | .calling entry | .closing entry => s.file.entry p = entry
  | .backingUp file _ | .encrypting file _ | .writing file _ =>
    file.version ≤ s.replaced ∧
      (file.version = s.replaced → ∀ q, file.entries.lookup q = s.file.entry q)
  | .queued | .securing _ | .reading _ => True

/-- The invariant of a run without disturbance. -/
structure Chained (file : CredentialFile) (s : Store) : Prop where
  held : Held file s
  first : ∀ p job, (s.chains p).head? = some job → Current s p job.phase
  rest : ∀ p, ∀ job ∈ (s.chains p).tail, job.phase = .queued

theorem current_queued (s : Store) (p : String) : Current s p .queued := trivial

theorem chained_idle (file : CredentialFile) : Chained file (Store.idle file) where
  held := fun _ _ => rfl
  first := by simp [Store.idle]
  rest := by simp [Store.idle]

theorem Current.sameBut {s s' : Store} {p q : String} {phase : Phase} (h : Store.SameBut p s s')
    (hc : Current s q phase) : Current s' q phase := by
  cases phase <;> simp only [Current, h.file, h.replaced] at hc ⊢ <;> exact hc

/-- A step that only moves the chain of one provider. -/
theorem Chained.move {file : CredentialFile} {s s' : Store} {p : String} (hs : Chained file s)
    (hsame : Store.SameBut p s s') (hrenamed : s.Renamed p → s'.Renamed p)
    (hfirst : ∀ job, (s'.chains p).head? = some job → Current s p job.phase)
    (hrest : ∀ job ∈ (s'.chains p).tail, job.phase = .queued) : Chained file s' where
  held := by
    intro q hq
    have hq' : ¬ s.Renamed q := by
      by_cases hpq : q = p
      · subst hpq
        exact fun h => hq (hrenamed h)
      · rintro ⟨job, entry, hjob, hphase⟩
        exact hq ⟨job, entry, by rw [hsame.chains q hpq]; exact hjob, hphase⟩
    rw [hsame.file, hsame.completed]
    exact hs.held q hq'
  first := by
    intro q job hjob
    by_cases hpq : q = p
    · subst hpq
      exact (hfirst job hjob).sameBut hsame
    · rw [hsame.chains q hpq] at hjob
      exact (hs.first q job hjob).sameBut hsame
  rest := by
    intro q job hjob
    by_cases hpq : q = p
    · subst hpq
      exact hrest job hjob
    · rw [hsame.chains q hpq] at hjob
      exact hs.rest q job hjob

section Steps

variable {env : Env} {file : CredentialFile} {s : Store} {p : String} {job : Job}

theorem not_renamed (hjob : (s.chains p).head? = some job)
    (hphase : ∀ entry, job.phase ≠ .closing entry) : ¬ s.Renamed p := by
  rintro ⟨job', entry, hjob', hentry⟩
  obtain rfl : job = job' := Option.some.inj (hjob.symm.trans hjob')
  exact hphase entry hentry

theorem Chained.await (hs : Chained file s) (hren : ¬ s.Renamed p) {phase : Phase}
    (hphase : Current s p phase) : Chained file (s.await p job phase) := by
  refine hs.move (s.setChain_sameBut p _) (fun h => absurd h hren) ?_ ?_
  · intro job' hjob'
    rw [Store.await, Store.setChain_self, List.head?_cons] at hjob'
    cases hjob'
    exact hphase
  · intro job' hjob'
    rw [Store.await, Store.setChain_self, List.tail_cons] at hjob'
    exact hs.rest p job' hjob'

/-- The jobs behind the first one still wait. -/
theorem Chained.tail_queued (hs : Chained file s) :
    (∀ job, (s.chains p).tail.head? = some job → job.phase = .queued) ∧
      ∀ job ∈ (s.chains p).tail.tail, job.phase = .queued :=
  ⟨fun job hjob => hs.rest p job (List.mem_of_mem_head? hjob),
    fun job hjob => hs.rest p job (List.mem_of_mem_tail hjob)⟩

theorem Chained.reject (hs : Chained file s) (hren : ¬ s.Renamed p) :
    Chained file (s.reject p) := by
  obtain ⟨hhead, htail⟩ := hs.tail_queued (p := p)
  refine hs.move (s.setChain_sameBut p _) (fun h => absurd h hren) ?_ ?_
  · intro job' hjob'
    rw [Store.reject, Store.setChain_self] at hjob'
    rw [hhead job' hjob']
    exact current_queued s p
  · intro job' hjob'
    rw [Store.reject, Store.setChain_self] at hjob'
    exact htail job' hjob'

/-- A result is reported while the file holds it. -/
theorem Chained.fulfil (hs : Chained file s) {entry : Option String}
    (hentry : s.file.entry p = entry) : Chained file (s.fulfil p entry) := by
  obtain ⟨hhead, htail⟩ := hs.tail_queued (p := p)
  have hchain : (s.fulfil p entry).chains p = (s.chains p).tail := Store.setChain_self ..
  have hother : ∀ q, q ≠ p → (s.fulfil p entry).chains q = s.chains q :=
    fun q hq => Store.setChain_ne _ _ hq
  refine ⟨?_, ?_, ?_⟩
  · intro q hq
    change s.file.entry q = CredentialStore.held file.entry (s.completed ++ [(p, entry)]) q
    rw [held_append]
    by_cases hpq : q = p
    · rw [hpq, Function.update_self]
      exact hentry
    · rw [Function.update_of_ne hpq]
      refine hs.held q ?_
      rintro ⟨job', entry', hjob', hphase⟩
      exact hq ⟨job', entry', by rw [hother q hpq]; exact hjob', hphase⟩
  · intro q job' hjob'
    by_cases hpq : q = p
    · subst hpq
      rw [hchain] at hjob'
      rw [hhead job' hjob']
      trivial
    · rw [hother q hpq] at hjob'
      have h := hs.first q job' hjob'
      cases hphase : job'.phase <;> rw [hphase] at h <;> exact h
  · intro q job' hjob'
    by_cases hpq : q = p
    · subst hpq
      rw [hchain] at hjob'
      exact htail job' hjob'
    · rw [hother q hpq] at hjob'
      exact hs.rest q job' hjob'

/-- A fresh snapshot is set in its own entry only, so what every other provider holds stays. -/
theorem Chained.replaceFile (hs : Chained file s) {snapshot : Snapshot} {entry : Option String}
    (hren : ¬ s.Renamed p) (hfile : ∀ q, snapshot.entries.lookup q = s.file.entry q) :
    Chained file (s.replaceFile p job snapshot entry) := by
  have hentry : ∀ q, (s.replaceFile p job snapshot entry).file.entry q =
      if q = p then entry else s.file.entry q := by
    intro q
    rw [Store.replaceFile, entry_of_read rfl, lookup_setEntry, hfile]
  have hchain : (s.replaceFile p job snapshot entry).chains p =
      { job with phase := .closing entry } :: (s.chains p).tail := Store.setChain_self ..
  have hother : ∀ q, q ≠ p → (s.replaceFile p job snapshot entry).chains q = s.chains q :=
    fun q hq => Store.setChain_ne _ _ hq
  refine ⟨?_, ?_, ?_⟩
  · intro q hq
    by_cases hpq : q = p
    · subst hpq
      exact absurd ⟨_, entry, by rw [hchain, List.head?_cons], rfl⟩ hq
    · rw [hentry, if_neg hpq]
      refine hs.held q ?_
      rintro ⟨job', entry', hjob', hphase⟩
      exact hq ⟨job', entry', by rw [hother q hpq]; exact hjob', hphase⟩
  · intro q job' hjob'
    by_cases hpq : q = p
    · subst hpq
      rw [hchain, List.head?_cons] at hjob'
      cases hjob'
      change (s.replaceFile q job snapshot entry).file.entry q = entry
      rw [hentry, if_pos rfl]
    · rw [hother q hpq] at hjob'
      have h := hs.first q job' hjob'
      -- a snapshot taken before this rename is out of date from now on
      have hstale : ∀ version, version ≤ s.replaced → version ≠ s.replaced + 1 := by
        intro version hle
        omega
      cases hphase : job'.phase <;> rw [hphase] at h <;>
        simp only [Current, hentry, if_neg hpq] at h ⊢
      case calling => exact h
      case closing => exact h
      all_goals
        refine ⟨Nat.le_succ_of_le h.1, fun hversion => ?_⟩
        exact absurd hversion (hstale _ h.1)
  · intro q job' hjob'
    by_cases hpq : q = p
    · subst hpq
      rw [hchain, List.tail_cons] at hjob'
      exact hs.rest q job' hjob'
    · rw [hother q hpq] at hjob'
      exact hs.rest q job' hjob'

/-- What was just read is what the file holds. -/
theorem current_snapshot {entries : List (String × String)} (hread : s.file.read? = some entries) :
    s.replaced ≤ s.replaced ∧
      (s.replaced = s.replaced → ∀ q, entries.lookup q = s.file.entry q) :=
  ⟨Nat.le_refl _, fun _ q => (entry_of_read hread q).symm⟩

theorem Chained.readCurrent (hs : Chained file s) (hren : ¬ s.Renamed p) :
    Chained file (s.readCurrent env p job) := by
  rw [Store.readCurrent]
  cases hread : s.file.read? with
  | none => exact hs.reject hren
  | some entries =>
    dsimp only
    split
    · exact hs.await hren (entry_of_read hread p)
    · exact hs.reject hren

theorem Chained.readForRewrite (hs : Chained file s) (hren : ¬ s.Renamed p)
    (credential : Option String) : Chained file (s.readForRewrite env p job credential) := by
  rw [Store.readForRewrite]
  cases hread : s.file.read? with
  | none => exact hs.reject hren
  | some entries =>
    have hcurrent := current_snapshot hread
    cases credential with
    | none => exact hs.await hren hcurrent
    | some text =>
      dsimp only
      split
      · exact hs.await hren hcurrent
      · exact hs.await hren hcurrent

theorem Chained.backUp (hs : Chained file s) (hren : ¬ s.Renamed p) {phase : Phase}
    (hphase : Current s p phase) :
    Chained file { s.await p job phase with backups := s.backups ++ [s.file] } :=
  have h : Chained file (s.await p job phase) := hs.await hren hphase
  ⟨h.held, h.first, h.rest⟩

theorem Chained.proceed (hs : Chained file s) (hjob : (s.chains p).head? = some job) (salt : ℕ)
    (hun : ∀ snapshot entry, job.phase = .writing snapshot entry → snapshot.version = s.replaced) :
    Chained file (s.proceed env p job salt) := by
  have hcurrent := hs.first p job hjob
  have hren : (∀ entry, job.phase ≠ .closing entry) → ¬ s.Renamed p := not_renamed hjob
  rw [Store.proceed]
  cases hphase : job.phase with
  | queued =>
    have hren := hren (by simp [hphase])
    cases job.operation with
    | replace credential => exact hs.await hren trivial
    | modify => exact hs.readCurrent hren
    | delete => exact hs.await hren trivial
  | calling entry => exact hs
  | securing credential => exact hs.await (hren (by simp [hphase])) trivial
  | reading credential => exact hs.readForRewrite (hren (by simp [hphase])) credential
  | backingUp snapshot credential =>
    rw [hphase] at hcurrent
    exact hs.backUp (hren (by simp [hphase])) hcurrent
  | encrypting snapshot credential =>
    rw [hphase] at hcurrent
    have hren := hren (by simp [hphase])
    dsimp only
    cases env.cipher.encrypt salt credential with
    | none => exact hs.reject hren
    | some cipherText => exact hs.await hren hcurrent
  | writing snapshot entry =>
    rw [hphase] at hcurrent
    exact hs.replaceFile (hren (by simp [hphase])) (hcurrent.2 (hun snapshot entry hphase))
  | closing entry =>
    rw [hphase] at hcurrent
    exact hs.fulfil hcurrent

theorem Chained.returns (hs : Chained file s) (hjob : (s.chains p).head? = some job)
    (next : Option String) : Chained file (s.returns p job next) := by
  have hcurrent := hs.first p job hjob
  rw [Store.returns.eq_def]
  cases hphase : job.phase with
  | calling entry =>
    rw [hphase] at hcurrent
    cases next with
    | none => exact hs.fulfil hcurrent
    | some credential => exact hs.await (not_renamed hjob (by simp [hphase])) trivial
  | _ => exact hs

theorem Chained.call (hs : Chained file s) (operation : Operation) :
    Chained file (s.setChain p (s.chains p ++ [{ operation, phase := .queued }])) := by
  refine hs.move (s.setChain_sameBut p _) ?_ ?_ ?_
  · rintro ⟨job', entry, hjob', hphase⟩
    refine ⟨job', entry, ?_, hphase⟩
    rw [Store.setChain_self, List.head?_append, hjob', Option.some_or]
  · intro job' hjob'
    rw [Store.setChain_self, List.head?_append] at hjob'
    cases hhead : (s.chains p).head? with
    | none =>
      rw [hhead] at hjob'
      cases hjob'
      trivial
    | some job =>
      rw [hhead, Option.some_or] at hjob'
      obtain rfl := Option.some.inj hjob'
      exact hs.first p job hhead
  · intro job' hjob'
    rw [Store.setChain_self] at hjob'
    cases hchain : s.chains p with
    | nil => simp [hchain] at hjob'
    | cons first others =>
      rw [hchain, List.cons_append, List.tail_cons, List.mem_append, List.mem_singleton] at hjob'
      rcases hjob' with hmem | rfl
      · exact hs.rest p job' (by rw [hchain]; exact hmem)
      · rfl

end Steps

theorem Chained.step {env : Env} {file : CredentialFile} (s : Store) (event : Event)
    (hs : Chained file s) (hun : undisturbed s event) : Chained file (s.step env event) := by
  cases event with
  | call p operation => exact hs.call operation
  | resume p answer =>
    rw [Store.step]
    cases hjob : (s.chains p).head? with
    | none => exact hs
    | some job =>
      obtain ⟨operation, phase⟩ := job
      cases answer with
      | done salt =>
        refine hs.proceed hjob salt ?_
        rintro snapshot entry rfl
        simpa [undisturbed, hjob] using hun
      | returned next => exact hs.returns hjob next
      | failed =>
        refine hs.reject (not_renamed hjob ?_)
        rintro entry rfl
        simp [undisturbed, hjob] at hun

/-- In every interleaving in which no operation replaces the file between the read and the rename of
    another one, the file holds for each provider what the last completed operation left. -/
theorem credentials_held (env : Env) (file : CredentialFile) (events : List Event)
    (hun : Along (Store.step env) (fun s event => undisturbed s event) (Store.idle file) events) :
    Held file (run (Store.step env) (Store.idle file) events) :=
  (run_invariant Chained.step events (Store.idle file) (chained_idle file) hun).held

/-! ### Two providers -/

/-- A cipher that keeps the text, and a store that parses everything. -/
def plainEnv : Env where
  cipher := { encrypt := fun _ text => some text, decrypt := some }
  parses := fun _ => true

/-- The awaited steps of a `replace` after its call: the security check, the read, the encryption, the
    rename and the change of mode. -/
def replaceSteps (providerId : String) : List Event :=
  List.replicate 5 (.resume providerId (.done 0))

/-- The second `replace` starts when the first one is done. -/
def serialRun : List Event :=
  [Event.call "anthropic" (.replace "a")] ++ replaceSteps "anthropic" ++
    [Event.call "openai" (.replace "b")] ++ replaceSteps "openai"

theorem credentials_held_serial :
    Held (.stored []) (run (Store.step plainEnv) (Store.idle (.stored [])) serialRun) :=
  credentials_held plainEnv (.stored []) serialRun (by decide)

/-- Both operations read the file before either of them replaces it. -/
def overlappingRun : List Event :=
  [.call "anthropic" (.replace "a"), .call "openai" (.replace "b")] ++
    (replaceSteps "anthropic").take 2 ++ replaceSteps "openai" ++
    (replaceSteps "anthropic").drop 2

/-- The credential of the provider that completed first is gone. -/
theorem credential_lost :
    ¬ Held (.stored []) (run (Store.step plainEnv) (Store.idle (.stored [])) overlappingRun) := by
  intro hheld
  have hlost : (run (Store.step plainEnv) (Store.idle (.stored [])) overlappingRun).file.entry
      "openai" = none := by decide
  have hsettled : ¬ (run (Store.step plainEnv) (Store.idle (.stored [])) overlappingRun).Renamed
      "openai" := by
    rintro ⟨job, entry, hjob, -⟩
    have hchain : ((run (Store.step plainEnv) (Store.idle (.stored [])) overlappingRun).chains
        "openai").head? = none := by decide
    rw [hchain] at hjob
    cases hjob
  have hresult : held (CredentialFile.entry (.stored []))
      (run (Store.step plainEnv) (Store.idle (.stored [])) overlappingRun).completed "openai" =
        some "b" := by decide
  have hkept := hheld "openai" hsettled
  rw [hlost, hresult] at hkept
  cases hkept

end HuntWarden.CredentialStore
