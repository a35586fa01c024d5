import HuntWarden.Helper.Inventory
import HuntWarden.Lib.PyText

/-! Processes as the helper reads them, one file of `/proc/<pid>` after the other, while processes end and their pids
    are given to others. The record of a process holds its number, its start and what was read between two looks at
    its status line: the two looks find the same start, so all of it was read of one process. -/

namespace HuntWarden.Helper.ProcFs

open Outcome

/-! ### The status line -/

/-- An `OSError` of a read. -/
inductive OsError where
  | fileNotFound | processLookup | permission | other
  deriving DecidableEq

/-- How a collector fails; `other` is an error that nothing turns into a helper error, an `OSError` apart. -/
inductive Failure where
  | helper (error : HelperError)
  | os (error : OsError)
  | other

def evidenceCollection (message : String) : Failure := .helper { code := .evidenceCollection, message }
def permissionDenied (message : String) : Failure := .helper { code := .permissionDenied, message }
def unsupportedEnvironment (message : String) : Failure :=
  .helper { code := .unsupportedEnvironment, message }

structure StatFields where
  comm : List Char
  state : List Char
  ppid : ℤ
  startTicks : List Char

/-- Where the name begins. -/
def nameStart (raw : List Char) : ℕ := if '(' ∈ raw then raw.idxOf '(' + 1 else 0

/-- The fields of a status line. -/
def statFields (raw : List Char) : Except Failure StatFields :=
  match Py.rsplit ')' raw with
  | none => .error (unsupportedEnvironment "invalid /proc process record")
  | some (before, after) =>
    let tail := Py.split (after.drop 1)
    if tail.length < 20 then .error (unsupportedEnvironment "incomplete /proc process record")
    else
      match Py.int? 10 (tail.getD 1 []) with
      | none => .error .other
      | some ppid => .ok {
          comm := (before.drop (nameStart raw)).take 256
          state := tail.getD 0 []
          ppid
          startTicks := tail.getD 19 [] }

def proc_stat_fields (read : Except OsError (List Char)) : Except Failure StatFields :=
  match read with
  | .error .fileNotFound => .error (evidenceCollection "process no longer exists")
  | .error .processLookup => .error (evidenceCollection "process no longer exists")
  | .error .permission => .error (permissionDenied "cannot read process identity")
  | .error .other => .error (.os .other)
  | .ok raw => statFields raw

/-- The line that the kernel writes for a process. The name is any text; nothing after it has a parenthesis. -/
structure Rendered (raw name state startTicks : List Char) (ppid : ℕ) : Prop where
  line : ∃ pid tail, raw = pid ++ '(' :: (name ++ ')' :: ' ' :: tail) ∧ '(' ∉ pid ∧ ')' ∉ tail ∧
    ∃ between after, Py.split tail = state :: Nat.toDigits 10 ppid :: between ++ startTicks :: after ∧
      between.length = 17

/-- The fields of a line are those that the kernel wrote, whatever the name looks like. -/
theorem statFields_rendered {raw name state startTicks : List Char} {ppid : ℕ}
    (h : Rendered raw name state startTicks ppid) :
    statFields raw = .ok { comm := name.take 256, state, ppid, startTicks } := by
  obtain ⟨pid, tail, rfl, hpid, htail, between, after, hsplit, hlength⟩ := h.line
  have hcut : Py.rsplit ')' (pid ++ '(' :: (name ++ ')' :: ' ' :: tail)) = some (pid ++ '(' :: name, ' ' :: tail) := by
    have hafter : ')' ∉ ' ' :: tail := by simpa using htail
    have happend := Py.rsplit_append (pid ++ '(' :: name) hafter
    rwa [List.append_assoc, List.cons_append] at happend
  have hopening : (pid ++ '(' :: (name ++ ')' :: ' ' :: tail)).idxOf '(' = pid.length := by
    rw [List.idxOf_append_of_notMem hpid, List.idxOf_cons_self, Nat.add_zero]
  have hname : (pid ++ '(' :: name).drop (pid.length + 1) = name := by
    rw [List.drop_append, List.drop_eq_nil_of_le (Nat.le_succ _)]
    simp
  have hticks : (state :: Nat.toDigits 10 ppid :: (between ++ startTicks :: after)).getD 19 [] = startTicks := by
    simp [List.getD_eq_getElem?_getD, hlength]
  rw [statFields, hcut]
  simp only [List.drop_succ_cons, List.drop_zero, hsplit, List.cons_append]
  rw [if_neg (by simp [hlength]; omega)]
  simp only [List.getD_cons_succ, List.getD_cons_zero, Py.int?_decimal]
  rw [nameStart, if_pos (by simp), hopening, hname]
  simpa using hticks

/-! ### One process -/

structure ExeStat where
  device : ℕ
  inode : ℕ
  size : ℕ

/-- What is read of a process besides, and whether a list was cut. -/
structure Context where
  cgroupsTruncated : Bool
  environmentPartial : Bool

/-- What the files of `/proc/<pid>` say at one moment. `holder` is the process that has the pid then, which no read
    shows. -/
structure Look where
  holder : Option ℕ
  stat : Except OsError (List Char)
  exe : Except OsError ExeStat
  link : Except OsError (List Char)
  digest : Except OsError String
  status : Except OsError (List (List Char))
  cmdline : Except OsError (List Char)
  launcherPath : Option String
  context : Context

structure ExeFacts where
  inode : ℕ
  path : List Char
  deleted : Bool
  size : ℕ

def exeFacts (info : ExeStat) (path : List Char) : ExeFacts :=
  let deleted := " (deleted)".toList.isSuffixOf path
  { inode := info.inode, path := if deleted then path.rdrop 10 else path, deleted, size := info.size }

structure StableProcess where
  bootId : List Char
  pid : ℕ
  startTicks : List Char
  ppid : ℤ
  state : List Char
  comm : List Char
  command : List Char
  uid : ℤ
  username : List Char
  startedAt : Option String
  launcherPath : Option String
  context : Option Context
  exe : Option ExeFacts
  exeSha256 : Option String

/-- What the helper takes from elsewhere: the boot, the names of users, times, and the redaction of texts. -/
structure Host where
  bootId : Except OsError (List Char)
  usernameOf : ℤ → Option (List Char)
  startTime : List Char → Option String
  redact : List Char → List Char

/-- `[0-9a-fA-F-]{36}` -/
def isBootId (text : List Char) : Bool :=
  text.length = 36 && text.all fun c => Inet.isHexDigit c || c = '-'

def boot_id (read : Except OsError (List Char)) : Except Failure (List Char) :=
  match read with
  | .error _ => .error (unsupportedEnvironment "Linux /proc boot identity is unavailable")
  | .ok text =>
    if isBootId (Py.strip text) then .ok ((Py.strip text).map Char.toLower)
    else .error (unsupportedEnvironment "invalid Linux boot identity")

abbrev Cache := List ((ℕ × ℕ) × String)

/-- What was read of the executable before the first failure. -/
structure ExeRead where
  info : Option ExeStat := none
  path : Option (List Char) := none
  digest : Option String := none
  failure : Option OsError := none

def readExe (looks : ℕ → Look) (cache : Cache) (includeHash : Bool) : Cache × ExeRead :=
  match (looks 1).exe with
  | .error error => (cache, { failure := some error })
  | .ok info =>
    match (looks 2).link with
    | .error error => (cache, { info := some info, failure := some error })
    | .ok path =>
      if includeHash then
        match cache.lookup (info.device, info.inode) with
        | some digest => (cache, { info := some info, path := some path, digest := some digest })
        | none =>
          match (looks 3).digest with
          | .error error => (cache, { info := some info, path := some path, failure := some error })
          | .ok digest =>
            (((info.device, info.inode), digest) :: cache,
              { info := some info, path := some path, digest := some digest })
      else (cache, { info := some info, path := some path })

def unchanged (before : StatFields) (now : Except Failure StatFields) : Except Failure Unit :=
  now >>= fun now =>
    if before.startTicks ≠ now.startTicks then .error (evidenceCollection "PID was reused during collection")
    else .ok ()

/-- A kernel thread has no executable; it is kept as long as its status line says the same start. -/
def exeFailure (looks : ℕ → Look) (before : StatFields) : Option OsError → Except Failure Unit
  | none => .ok ()
  | some .fileNotFound => unchanged before (proc_stat_fields (looks 4).stat)
  | some .permission => .error (permissionDenied "cannot inspect process executable")
  | some error => .error (.os error)

def process_uid (read : Except OsError (List (List Char))) : Except Failure ℤ :=
  match read with
  | .error error => .error (.os error)
  | .ok lines =>
    match lines.find? fun line => "Uid:".toList.isPrefixOf line with
    | none => .error (.os .other)
    | some line =>
      match (Py.split line)[1]?.bind (Py.int? 10) with
      | none => .error .other
      | some uid => .ok uid

def uidOf (read : Except OsError (List (List Char))) : Except Failure ℤ :=
  match process_uid read with
  | .error (.os .fileNotFound) => .error (evidenceCollection "process disappeared during collection")
  | outcome => outcome

variable (host : Host)

/-- The reads are numbered in the order of the code; a read that a branch leaves out keeps its number. -/
def stable_process (pid : ℕ) (looks : ℕ → Look) (cache : Cache) (includeHash includeContext : Bool) :
    Cache × Except Failure StableProcess :=
  match proc_stat_fields (looks 0).stat with
  | .error failure => (cache, .error failure)
  | .ok before =>
    let read := readExe looks cache includeHash
    (read.1, do
      exeFailure looks before read.2.failure
      let uid ← uidOf (looks 5).status
      unchanged before (proc_stat_fields (looks 6).stat)
      let bootId ← boot_id host.bootId
      return {
        bootId, pid, uid
        startTicks := before.startTicks
        ppid := before.ppid
        state := before.state
        comm := before.comm
        command :=
          match (looks 7).cmdline with
          | .ok text => Py.strip (host.redact text)
          | .error _ => before.comm
        username := (host.usernameOf uid).getD (Py.intText uid)
        startedAt := host.startTime before.startTicks
        launcherPath := (looks 8).launcherPath
        context := if includeContext then some (looks 9).context else none
        exe := read.2.info.bind fun info => read.2.path.map (exeFacts info)
        exeSha256 := read.2.digest })

/-! ### Which process was read -/

/-- A pid over time. A status line is that of the process that has the pid, with the start of that process; a process
    that gave up the pid never has it again. -/
structure Kernel (start : ℕ → List Char) (looks : ℕ → Look) : Prop where
  stat : ∀ n raw, (looks n).stat = .ok raw → ∃ process name state ppid, (looks n).holder = some process ∧
    Rendered raw name state (start process) ppid
  once : ∀ process m k n, m ≤ k → k ≤ n → (looks m).holder = some process → (looks n).holder = some process →
    (looks k).holder = some process

/-- The record is that of one process: it had the pid at every read between the first and the last status line. -/
structure Belongs (start : ℕ → List Char) (looks : ℕ → Look) (process : ℕ) (record : StableProcess) : Prop where
  held : ∀ k ≤ 6, (looks k).holder = some process
  startTicks : record.startTicks = start process
  status : ∃ raw name ppid, (looks 0).stat = .ok raw ∧ Rendered raw name record.state (start process) ppid ∧
    record.comm = name.take 256 ∧ record.ppid = ppid
  uid : process_uid (looks 5).status = .ok record.uid
  exe : ∀ facts, record.exe = some facts →
    ∃ info path, (looks 1).exe = .ok info ∧ (looks 2).link = .ok path ∧ facts = exeFacts info path

theorem proc_stat_fields_ok {start : ℕ → List Char} {looks : ℕ → Look} (hkernel : Kernel start looks) {n : ℕ}
    {fields : StatFields} (h : proc_stat_fields (looks n).stat = .ok fields) :
    ∃ raw process name ppid, (looks n).stat = .ok raw ∧ (looks n).holder = some process ∧
      Rendered raw name fields.state (start process) ppid ∧ fields.comm = name.take 256 ∧ fields.ppid = ppid ∧
      fields.startTicks = start process := by
  cases hstat : (looks n).stat with
  | error error => rw [hstat] at h; cases error <;> cases h
  | ok raw =>
    obtain ⟨process, name, state, ppid, hholder, hrendered⟩ := hkernel.stat n raw hstat
    rw [hstat, proc_stat_fields, statFields_rendered hrendered] at h
    cases h
    exact ⟨raw, process, name, ppid, rfl, hholder, hrendered, rfl, rfl, rfl⟩

theorem unchanged_ok {before : StatFields} {now : Except Failure StatFields} (h : unchanged before now = .ok ()) :
    ∃ fields, now = .ok fields ∧ before.startTicks = fields.startTicks := by
  obtain ⟨fields, hnow, h⟩ := bind_ok.1 h
  by_cases hticks : before.startTicks = fields.startTicks
  · exact ⟨fields, hnow, hticks⟩
  · rw [if_pos hticks] at h
    cases h

theorem uidOf_ok {read : Except OsError (List (List Char))} {uid : ℤ} (h : uidOf read = .ok uid) :
    process_uid read = .ok uid := by
  rw [uidOf] at h
  split at h
  · cases h
  · exact h

/-- What was read of the executable was read at its two moments. -/
theorem readExe_facts {looks : ℕ → Look} {cache : Cache} {includeHash : Bool} {facts : ExeFacts}
    (h : ((readExe looks cache includeHash).2.info.bind fun info =>
      (readExe looks cache includeHash).2.path.map (exeFacts info)) = some facts) :
    ∃ info path, (looks 1).exe = .ok info ∧ (looks 2).link = .ok path ∧ facts = exeFacts info path := by
  rw [readExe] at h
  cases hexe : (looks 1).exe with
  | error error => simp [hexe] at h
  | ok info =>
    cases hlink : (looks 2).link with
    | error error => simp [hexe, hlink] at h
    | ok path =>
      refine ⟨info, path, rfl, rfl, ?_⟩
      simp only [hexe, hlink] at h
      split at h
      · split at h
        · simpa using h.symm
        · split at h <;> simpa using h.symm
      · simpa using h.symm

variable {host}

/-- Step lemma: a record that is given belongs to one process. -/
theorem stable_process_belongs {start : ℕ → List Char} {looks : ℕ → Look} (hkernel : Kernel start looks)
    (hstart : Function.Injective start) {pid : ℕ} {cache : Cache} {includeHash includeContext : Bool}
    {record : StableProcess} (h : (stable_process host pid looks cache includeHash includeContext).2 = .ok record) :
    record.pid = pid ∧ boot_id host.bootId = .ok record.bootId ∧ ∃ process, Belongs start looks process record := by
  rw [stable_process] at h
  cases hbefore : proc_stat_fields (looks 0).stat with
  | error failure => rw [hbefore] at h; cases h
  | ok before =>
    rw [hbefore] at h
    obtain ⟨_, -, h⟩ := bind_ok.1 h
    obtain ⟨uid, huid, h⟩ := bind_ok.1 h
    obtain ⟨_, hagain, h⟩ := bind_ok.1 h
    obtain ⟨bootId, hboot, h⟩ := bind_ok.1 h
    cases h
    obtain ⟨after, hafter, hticks⟩ := unchanged_ok hagain
    obtain ⟨raw, process, name, ppid, hraw, hfirst, hrendered, hcomm, hppid, hown⟩ :=
      proc_stat_fields_ok hkernel hbefore
    obtain ⟨-, last, -, -, -, hlast, -, -, -, hlastTicks⟩ := proc_stat_fields_ok hkernel hafter
    -- the same start at both ends, so the same process, and so also in between
    have hsame : process = last := hstart (hown.symm.trans (hticks.trans hlastTicks))
    refine ⟨rfl, hboot, process, ?_, hown, ⟨raw, name, ppid, hraw, hrendered, hcomm, hppid⟩, uidOf_ok huid, ?_⟩
    · intro k hk
      exact hkernel.once process 0 k 6 (Nat.zero_le k) hk hfirst (hsame ▸ hlast)
    · intro facts hfacts
      exact readExe_facts hfacts

/-! ### All processes -/

structure Entry where
  pid : ℕ
  looks : ℕ → Look

/-- The loop's state. -/
structure Enumeration where
  items : List StableProcess := []
  warnings : List String := []
  cache : Cache := []
  truncated : ℕ := 0

structure Listing where
  items : List StableProcess
  warnings : List String
  partial_ : Bool

def Enumeration.stop (s : Enumeration) (reason : String) : Listing :=
  { items := s.items, warnings := s.warnings.take 100 ++ [reason], partial_ := true }

def Enumeration.finish (s : Enumeration) : Listing :=
  let count := s.truncated
  let warnings :=
    if count = 0 then s.warnings else s.warnings ++ [s!"{count} 个进程的 cgroups 或环境变量名列表因单条体积上限被截断"]
  { items := s.items, warnings := warnings.take 100, partial_ := !warnings.isEmpty }

def Enumeration.add (s : Enumeration) (record : StableProcess) : Enumeration :=
  { s with
    items := s.items ++ [record]
    truncated :=
      if record.context.any fun context => context.cgroupsTruncated || context.environmentPartial then s.truncated + 1
      else s.truncated }

/-- A process that is gone was looked at; any other failure is told. -/
def Enumeration.skip (s : Enumeration) (pid : ℕ) (error : HelperError) : Enumeration :=
  let message := error.message
  if transient_process_observation_error error then s
  else { s with warnings := s.warnings ++ [s!"PID {pid}: {message}"] }

variable (host) (deadline : ℕ → Bool) (maximum : ℕ) (includeHash includeContext : Bool)

def enumerateFrom : ℕ → List Entry → Enumeration → Except Failure Listing
  | _, [], s => .ok s.finish
  | n, entry :: entries, s =>
    if maximum ≤ s.items.length then .ok (s.stop "进程结果达到配置上限")
    else if deadline n then .ok (s.stop deadlineWarning)
    else
      let outcome := stable_process host entry.pid entry.looks s.cache includeHash includeContext
      let s := { s with cache := outcome.1 }
      match outcome.2 with
      | .ok record => enumerateFrom (n + 1) entries (s.add record)
      | .error (.helper error) => enumerateFrom (n + 1) entries (s.skip entry.pid error)
      | .error failure => .error failure

def enumerate_stable_processes (entries : List Entry) : Except Failure Listing :=
  enumerateFrom host deadline maximum includeHash includeContext 0
    (Paging.sortBy (compareOn Entry.pid) entries) {}

/-! ### What an enumeration says -/

/-- The process was gone at one of the reads. -/
def Gone (looks : ℕ → Look) : Prop :=
  ∃ k ≤ 6, (looks k).stat = .error .fileNotFound ∨ (looks k).stat = .error .processLookup ∨
    (looks k).status = .error .fileNotFound

/-- The digest was read through the pid of a process with this executable. -/
def Hashed (entries : List Entry) (file : ℕ × ℕ) (digest : String) : Prop :=
  ∃ entry ∈ entries, ∃ info, (entry.looks 1).exe = .ok info ∧ (info.device, info.inode) = file ∧
    (entry.looks 3).digest = .ok digest

/-- What holds of a record of the list. -/
structure Listed (start : ℕ → ℕ → List Char) (entries : List Entry) (entry : Entry) (record : StableProcess) :
    Prop where
  pid : record.pid = entry.pid
  boot : boot_id host.bootId = .ok record.bootId
  belongs : ∃ process, Belongs (start entry.pid) entry.looks process record
  hashed : ∀ digest, record.exeSha256 = some digest →
    ∃ info, (entry.looks 1).exe = .ok info ∧ Hashed entries (info.device, info.inode) digest

/-- What the rest of the loop adds to the list. -/
structure Adds (start : ℕ → ℕ → List Char) (all entries : List Entry) (s : Enumeration) (listing : Listing)
    (added : List StableProcess) : Prop where
  items : listing.items = s.items ++ added
  ordered : (added.map StableProcess.pid).Sublist (entries.map Entry.pid)
  listed : ∀ record ∈ added, ∃ entry ∈ entries, Listed host start all entry record
  whole : listing.partial_ = false →
    s.warnings = [] ∧ ∀ entry ∈ entries, (∃ record ∈ added, record.pid = entry.pid) ∨ Gone entry.looks

variable {host deadline maximum includeHash includeContext}

/-- The digests of the cache, and the one that is read, were read through a pid with the file. -/
theorem readExe_hashed {all : List Entry} {entry : Entry} (hmem : entry ∈ all) {cache : Cache}
    (hcache : ∀ file digest, (file, digest) ∈ cache → Hashed all file digest) (includeHash : Bool) :
    (∀ file digest, (file, digest) ∈ (readExe entry.looks cache includeHash).1 → Hashed all file digest) ∧
      ∀ digest, (readExe entry.looks cache includeHash).2.digest = some digest →
        ∃ info, (entry.looks 1).exe = .ok info ∧ Hashed all (info.device, info.inode) digest := by
  rw [readExe]
  cases hexe : (entry.looks 1).exe with
  | error error => exact ⟨hcache, by simp⟩
  | ok info =>
    cases hlink : (entry.looks 2).link with
    | error error => exact ⟨hcache, by simp⟩
    | ok path =>
      cases includeHash with
      | false => exact ⟨hcache, by simp⟩
      | true =>
        simp only [if_true]
        cases hlookup : cache.lookup (info.device, info.inode) with
        | some found =>
          refine ⟨hcache, fun digest hdigest => ⟨info, rfl, ?_⟩⟩
          cases hdigest
          obtain ⟨before, after, hentries, -⟩ := List.lookup_eq_some_iff.1 hlookup
          exact hcache _ _ (hentries ▸ List.mem_append_right _ List.mem_cons_self)
        | none =>
          cases hread : (entry.looks 3).digest with
          | error error => exact ⟨hcache, by simp⟩
          | ok found =>
            have hhashed : Hashed all (info.device, info.inode) found := ⟨entry, hmem, info, hexe, rfl, hread⟩
            refine ⟨fun file digest hentry => ?_, fun digest hdigest => ⟨info, rfl, ?_⟩⟩
            · rcases List.mem_cons.1 hentry with heq | hold
              · cases heq
                exact hhashed
              · exact hcache file digest hold
            · cases hdigest
              exact hhashed

variable (host includeHash includeContext) in
theorem stable_process_hashed {all : List Entry} {entry : Entry} (hmem : entry ∈ all) {cache : Cache}
    (hcache : ∀ file digest, (file, digest) ∈ cache → Hashed all file digest) :
    let outcome := stable_process host entry.pid entry.looks cache includeHash includeContext
    (∀ file digest, (file, digest) ∈ outcome.1 → Hashed all file digest) ∧
      ∀ record, outcome.2 = .ok record → ∀ digest, record.exeSha256 = some digest →
        ∃ info, (entry.looks 1).exe = .ok info ∧ Hashed all (info.device, info.inode) digest := by
  obtain ⟨hkept, hdigest⟩ := readExe_hashed hmem hcache includeHash
  rw [stable_process]
  cases hbefore : proc_stat_fields (entry.looks 0).stat with
  | error failure => exact ⟨hcache, fun _ h => by cases h⟩
  | ok before =>
    refine ⟨hkept, fun record h digest hread => ?_⟩
    obtain ⟨_, -, h⟩ := bind_ok.1 h
    obtain ⟨uid, -, h⟩ := bind_ok.1 h
    obtain ⟨_, -, h⟩ := bind_ok.1 h
    obtain ⟨bootId, -, h⟩ := bind_ok.1 h
    cases h
    exact hdigest digest hread

/-- Only a process that is gone fails with one of these errors. -/
theorem gone_of_stat {looks : ℕ → Look} {k : ℕ} (hk : k ≤ 6) {error : HelperError}
    (h : proc_stat_fields (looks k).stat = .error (.helper error))
    (htransient : transient_process_observation_error error = true) : Gone looks := by
  cases hstat : (looks k).stat with
  | error cause =>
    rw [hstat] at h
    cases cause with
    | fileNotFound => exact ⟨k, hk, .inl hstat⟩
    | processLookup => exact ⟨k, hk, .inr (.inl hstat)⟩
    | permission =>
      cases h
      exact absurd htransient (by decide)
    | other => cases h
  | ok raw =>
    rw [hstat, proc_stat_fields, statFields] at h
    dsimp only at h
    split at h
    · cases h
      exact absurd htransient (by decide)
    · split at h
      · cases h
        exact absurd htransient (by decide)
      · split at h <;> cases h

theorem gone_of_unchanged {looks : ℕ → Look} {k : ℕ} (hk : k ≤ 6) {before : StatFields} {error : HelperError}
    (h : unchanged before (proc_stat_fields (looks k).stat) = .error (.helper error))
    (htransient : transient_process_observation_error error = true) : Gone looks := by
  rcases bind_error.1 h with h | ⟨now, -, h⟩
  · exact gone_of_stat hk h htransient
  · split at h
    · cases h
      exact absurd htransient (by decide)
    · cases h

theorem gone_of_uidOf {looks : ℕ → Look} {error : HelperError} (h : uidOf (looks 5).status = .error (.helper error)) :
    Gone looks := by
  cases hstatus : (looks 5).status with
  | error cause =>
    rw [hstatus] at h
    cases cause with
    | fileNotFound => exact ⟨5, by decide, .inr (.inr hstatus)⟩
    | processLookup => cases h
    | permission => cases h
    | other => cases h
  | ok lines =>
    rw [hstatus, uidOf, process_uid] at h
    generalize lines.find? (fun line => "Uid:".toList.isPrefixOf line) = found at h
    cases found with
    | none => cases h
    | some line =>
      dsimp only at h
      cases huid : (Py.split line)[1]?.bind (Py.int? 10) with
      | none => rw [huid] at h; cases h
      | some uid => rw [huid] at h; cases h

theorem gone_of_stable_process {pid : ℕ} {looks : ℕ → Look} {cache : Cache} {error : HelperError}
    (h : (stable_process host pid looks cache includeHash includeContext).2 = .error (.helper error))
    (htransient : transient_process_observation_error error = true) : Gone looks := by
  rw [stable_process] at h
  cases hbefore : proc_stat_fields (looks 0).stat with
  | error failure =>
    rw [hbefore] at h
    cases h
    exact gone_of_stat (Nat.zero_le 6) hbefore htransient
  | ok before =>
    rw [hbefore] at h
    rcases bind_error.1 h with h | ⟨_, -, h⟩
    · -- the executable could not be read
      revert h
      generalize (readExe looks cache includeHash).2.failure = failure
      intro h
      cases failure with
      | none => cases h
      | some cause =>
        cases cause with
        | fileNotFound => exact gone_of_unchanged (by decide) h htransient
        | processLookup => cases h
        | permission =>
          cases h
          exact absurd htransient (by decide)
        | other => cases h
    rcases bind_error.1 h with h | ⟨uid, -, h⟩
    · exact gone_of_uidOf h
    rcases bind_error.1 h with h | ⟨_, -, h⟩
    · exact gone_of_unchanged (le_refl 6) h htransient
    rcases bind_error.1 h with h | ⟨bootId, -, h⟩
    · unfold boot_id at h
      split at h
      · cases h
        exact absurd htransient (by decide)
      · split at h
        · cases h
        · cases h
          exact absurd htransient (by decide)
    · cases h

/-- Distinct pids stand in strict order. -/
theorem sorted_pids {entries : List Entry} (h : (entries.map Entry.pid).Nodup) :
    ((Paging.sortBy (compareOn Entry.pid) entries).map Entry.pid).Pairwise (· < ·) := by
  have hle : (Paging.sortBy (compareOn Entry.pid) entries).Pairwise fun a b => (compareOn Entry.pid a b).isLE :=
    Paging.pairwise_sortBy
  have hnodup : ((Paging.sortBy (compareOn Entry.pid) entries).map Entry.pid).Nodup :=
    (Paging.perm_sortBy.map _).nodup_iff.2 h
  rw [List.pairwise_map]
  refine (hle.and (List.pairwise_map.1 hnodup)).imp fun hboth => ?_
  exact lt_of_le_of_ne (Nat.isLE_compare.1 hboth.1) hboth.2

/-- Run lemma, by induction on the entries that are left. -/
theorem adds_of_enumerateFrom {start : ℕ → ℕ → List Char} {all : List Entry}
    (hkernel : ∀ entry ∈ all, Kernel (start entry.pid) entry.looks)
    (hstart : ∀ pid, Function.Injective (start pid)) {entries : List Entry} (hsub : entries ⊆ all) {n : ℕ}
    {s : Enumeration} (hcache : ∀ file digest, (file, digest) ∈ s.cache → Hashed all file digest) {listing : Listing}
    (h : enumerateFrom host deadline maximum includeHash includeContext n entries s = .ok listing) :
    ∃ added, Adds host start all entries s listing added := by
  have hstopped : ∀ reason, Adds host start all entries s (s.stop reason) [] := fun reason =>
    ⟨(List.append_nil _).symm, List.nil_sublist _, by simp, fun hpartial => by cases hpartial⟩
  induction entries generalizing n s with
  | nil =>
    cases h
    refine ⟨[], (List.append_nil _).symm, List.Sublist.refl _, by simp, fun hpartial => ⟨?_, by simp⟩⟩
    simp only [Enumeration.finish, Bool.not_eq_false', List.isEmpty_iff] at hpartial
    split at hpartial
    · exact hpartial
    · exact absurd hpartial (List.append_ne_nil_of_right_ne_nil _ (List.cons_ne_nil _ _))
  | cons entry entries ih =>
    have hmem : entry ∈ all := hsub List.mem_cons_self
    have hrest : entries ⊆ all := fun other hother => hsub (List.mem_cons_of_mem _ hother)
    obtain ⟨hkept, hhashed⟩ := stable_process_hashed host includeHash includeContext hmem hcache
    rw [enumerateFrom] at h
    split at h
    · cases h
      exact ⟨[], hstopped _⟩
    split at h
    · cases h
      exact ⟨[], hstopped _⟩
    dsimp only at h
    split at h
    · rename_i record hrecord
      obtain ⟨hpid, hboot, hbelongs⟩ := stable_process_belongs (hkernel entry hmem) (hstart entry.pid) hrecord
      obtain ⟨added, hadds⟩ := ih hrest hkept h fun reason =>
        ⟨(List.append_nil _).symm, List.nil_sublist _, by simp, fun hpartial => by cases hpartial⟩
      refine ⟨record :: added, ?_, ?_, ?_, fun hpartial => ?_⟩
      · rw [hadds.items, Enumeration.add, List.append_assoc, List.singleton_append]
      · rw [List.map_cons, List.map_cons, hpid]
        exact hadds.ordered.cons_cons _
      · rintro other hother
        rcases List.mem_cons.1 hother with rfl | hother
        · exact ⟨entry, List.mem_cons_self, hpid, hboot, hbelongs, hhashed other hrecord⟩
        · obtain ⟨owner, howner, hlisted⟩ := hadds.listed other hother
          exact ⟨owner, List.mem_cons_of_mem _ howner, hlisted⟩
      · obtain ⟨hwarnings, hcovered⟩ := hadds.whole hpartial
        refine ⟨hwarnings, fun other hother => ?_⟩
        rcases List.mem_cons.1 hother with rfl | hother
        · exact .inl ⟨record, List.mem_cons_self, hpid⟩
        · rcases hcovered other hother with ⟨found, hfound, hsame⟩ | hgone
          · exact .inl ⟨found, List.mem_cons_of_mem _ hfound, hsame⟩
          · exact .inr hgone
    · rename_i error herror
      obtain ⟨added, hadds⟩ := ih hrest (s := ({ s with cache := _ } : Enumeration).skip entry.pid error)
        (by rw [Enumeration.skip]; split <;> exact hkept) h fun reason =>
        ⟨(List.append_nil _).symm, List.nil_sublist _, by simp, fun hpartial => by cases hpartial⟩
      refine ⟨added, ?_, ?_, ?_, fun hpartial => ?_⟩
      · rw [hadds.items, Enumeration.skip]
        split <;> rfl
      · exact hadds.ordered.cons _
      · rintro other hother
        obtain ⟨owner, howner, hlisted⟩ := hadds.listed other hother
        exact ⟨owner, List.mem_cons_of_mem _ howner, hlisted⟩
      · obtain ⟨hwarnings, hcovered⟩ := hadds.whole hpartial
        rw [Enumeration.skip] at hwarnings
        split at hwarnings
        · rename_i htransient
          refine ⟨hwarnings, fun other hother => ?_⟩
          rcases List.mem_cons.1 hother with rfl | hother
          · exact .inr (gone_of_stable_process herror htransient)
          · exact hcovered other hother
        · exact absurd hwarnings (List.append_ne_nil_of_right_ne_nil _ (List.cons_ne_nil _ _))
    · cases h

/-- The list of processes: in the order of the pids, each record of one process that had its pid all along, each digest
    read through a process with that executable; a list that is not partial leaves out only processes that were gone. -/
theorem processes_faithful {start : ℕ → ℕ → List Char} {entries : List Entry}
    (hpids : (entries.map Entry.pid).Nodup) (hkernel : ∀ entry ∈ entries, Kernel (start entry.pid) entry.looks)
    (hstart : ∀ pid, Function.Injective (start pid)) {listing : Listing}
    (h : enumerate_stable_processes host deadline maximum includeHash includeContext entries = .ok listing) :
    (listing.items.map StableProcess.pid).Pairwise (· < ·) ∧
      (∀ record ∈ listing.items, ∃ entry ∈ entries, Listed host start entries entry record) ∧
      (listing.partial_ = false →
        ∀ entry ∈ entries, (∃ record ∈ listing.items, record.pid = entry.pid) ∨ Gone entry.looks) := by
  have hsub : Paging.sortBy (compareOn Entry.pid) entries ⊆ entries :=
    fun entry hentry => Paging.mem_sortBy.1 hentry
  obtain ⟨added, hadds⟩ := adds_of_enumerateFrom hkernel hstart hsub (by simp) h
  have hitems : listing.items = added := hadds.items
  have hsorted := sorted_pids hpids
  rw [hitems]
  refine ⟨hsorted.sublist hadds.ordered, fun record hrecord => ?_, fun hpartial entry hentry => ?_⟩
  · obtain ⟨entry, hentry, hlisted⟩ := hadds.listed record hrecord
    exact ⟨entry, hsub hentry, hlisted⟩
  · exact (hadds.whole hpartial).2 entry (Paging.mem_sortBy.2 hentry)

/-- A process whose name looks like the end of another status line. -/
def sampleLine : List Char := "7 (a) S 1 b) S 1 2 3 4 5 6 7 8 9 10 11 12 13 14 15 16 17 18 33 0".toList

def sampleLook : Look where
  holder := some 0
  stat := .ok sampleLine
  exe := .ok { device := 1, inode := 5, size := 9 }
  link := .ok "/opt/x (deleted)".toList
  digest := .ok "d5"
  status := .ok ["Name: x".toList, "Uid: 0 0 0 0".toList]
  cmdline := .ok "x -v".toList
  launcherPath := none
  context := { cgroupsTruncated := false, environmentPartial := false }

def sampleHost : Host where
  bootId := .ok "00000000-0000-4000-8000-00000000000A".toList
  usernameOf _ := some "root".toList
  startTime _ := none
  redact := id

def sampleStart (process : ℕ) : List Char := Nat.toDigits 10 (process + 33)

theorem sampleStart_injective : Function.Injective sampleStart := by
  intro first second h
  have hvalues := congrArg (Inet.numeral 10) h
  rw [sampleStart, sampleStart, Py.numeral_decimal, Py.numeral_decimal] at hvalues
  exact Nat.add_right_cancel hvalues

theorem sample_kernel : Kernel sampleStart fun _ => sampleLook where
  stat := by
    intro n raw h
    have hraw : raw = sampleLine := (Except.ok.inj h).symm
    refine ⟨0, "a) S 1 b".toList, ['S'], 1, rfl, hraw ▸ ⟨"7 ".toList,
      "S 1 2 3 4 5 6 7 8 9 10 11 12 13 14 15 16 17 18 33 0".toList, rfl, by decide, by decide,
      (List.range' 2 17).map (Nat.toDigits 10), [['0']], ?_, rfl⟩⟩
    decide
  once _ _ _ _ _ _ hfirst _ := hfirst

def sampleEntries : List Entry := [⟨7, fun _ => sampleLook⟩]

theorem processes_faithful_sample : ∃ listing : Listing,
    enumerate_stable_processes sampleHost (fun _ => false) 10 true false sampleEntries = .ok listing ∧
      listing.items.length = 1 ∧
      (listing.items.map StableProcess.pid).Pairwise (· < ·) ∧
      (∀ record ∈ listing.items, ∃ entry ∈ sampleEntries,
        Listed sampleHost (fun _ => sampleStart) sampleEntries entry record) ∧
      (listing.partial_ = false →
        ∀ entry ∈ sampleEntries, (∃ record ∈ listing.items, record.pid = entry.pid) ∨ Gone entry.looks) :=
  ⟨_, rfl, rfl, @processes_faithful sampleHost (fun _ => false) 10 true false (fun _ => sampleStart) sampleEntries
    (List.nodup_singleton 7) (fun _ hentry => List.mem_singleton.1 hentry ▸ sample_kernel)
    (fun _ => sampleStart_injective) _ rfl⟩

/-! ### A process that is asked for again -/

structure ProcessRequest where
  pid : Option Json
  bootId : Option Json
  startTicks : Option Json
  exeInode : Option Json
  exeSha256 : Option Json

def invalidRequest (message : String) : Failure := .helper (invalidArgument message)

def text? : Option Json → Option (List Char)
  | some (.str text) => some text.toList
  | _ => none

/-- `text.isdigit()` -/
def isDigits (digit : Char → Bool) (text : List Char) : Bool := !text.isEmpty && text.all digit

/-- `^[0-9a-f]{64}$` -/
def isSha256 (text : List Char) : Bool :=
  text.length = 64 && text.all fun c => Inet.isDigit c || ('a' ≤ c && c ≤ 'f')

def optionalText (form : List Char → Bool) (message : String) (value : Option Json) :
    Except Failure (Option (List Char)) :=
  match value with
  | none => .ok none
  | some .null => .ok none
  | some (.str text) => if form text.toList then .ok (some text.toList) else .error (invalidRequest message)
  | some _ => .error (invalidRequest message)

/-- Whether a text of the request is not the process's own; a process without it is a `KeyError`. -/
def otherThan (given current : Option (List Char)) : Except Failure Bool :=
  match given, current with
  | none, _ => .ok false
  | some _, none => .error .other
  | some given, some current => .ok (current ≠ given)

def identityChanged (current : StableProcess) (boot ticks : List Char) (inode digest : Option (List Char)) :
    Except Failure Bool :=
  if current.bootId ≠ boot.map Char.toLower ∨ current.startTicks ≠ ticks then .ok true
  else do
    let moved ← otherThan inode (current.exe.map fun facts => Nat.toDigits 10 facts.inode)
    if moved then return true else otherThan digest (current.exeSha256.map String.toList)

variable (host) in
/-- `proc` is `/proc` over time, `digit` is `str.isdigit` of one character. -/
def process_request (digit : Char → Bool) (proc : ℕ → ℕ → Look) (moment : ℕ) (request : ProcessRequest) :
    Except Failure StableProcess := do
  let pid ← (safe_int request.pid 1 (2 ^ 31 - 1) "pid").mapError Failure.helper
  let boot ← orThrow ((text? request.bootId).filter isBootId) (invalidRequest "invalid stable process identity")
  let ticks ← orThrow ((text? request.startTicks).filter (isDigits digit))
    (invalidRequest "invalid stable process identity")
  let inode ← optionalText (isDigits digit) "invalid stable process executable inode" request.exeInode
  let digest ← optionalText isSha256 "invalid stable process executable digest" request.exeSha256
  let current ← (stable_process host pid.toNat (fun n => proc pid.toNat (moment + n)) [] true true).2
  let changed ← identityChanged current boot ticks inode digest
  if changed then .error (evidenceCollection "stable process identity changed; refusing PID reuse") else return current

theorem Kernel.shift {start : ℕ → List Char} {looks : ℕ → Look} (h : Kernel start looks) (moment : ℕ) :
    Kernel start fun n => looks (moment + n) where
  stat n := h.stat (moment + n)
  once process _ _ _ hm hn := h.once process _ _ _ (Nat.add_le_add_left hm moment) (Nat.add_le_add_left hn moment)

theorem safe_int_natural {value : ℕ} {low high number : ℤ} {name : String}
    (h : safe_int (some (.num value)) low high name = .ok number) : number.toNat = value := by
  obtain ⟨q, hq, rfl⟩ := Option.map_eq_some_iff.1 (orThrow_ok.1 h)
  obtain ⟨hq, -⟩ := Option.filter_eq_some_iff.1 hq
  cases hq
  exact congrArg Int.toNat (Rat.num_natCast value)

/-- What an answered request says: the record is that of the pid, with the texts of the request. -/
structure Answered (host : Host) (proc : ℕ → ℕ → Look) (moment : ℕ) (request : ProcessRequest) (pid : ℕ)
    (current : StableProcess) : Prop where
  number : ∃ value, safe_int request.pid 1 (2 ^ 31 - 1) "pid" = .ok value ∧ value.toNat = pid
  boot : ∃ boot, text? request.bootId = some boot ∧ current.bootId = boot.map Char.toLower
  read : (stable_process host pid (fun n => proc pid (moment + n)) [] true true).2 = .ok current
  startTicks : text? request.startTicks = some current.startTicks
  digest : ∀ digest, request.exeSha256 = some (.str digest) → current.exeSha256 = some digest

theorem identityChanged_false {current : StableProcess} {boot ticks : List Char} {inode digest : Option (List Char)}
    (h : identityChanged current boot ticks inode digest = .ok false) :
    current.bootId = boot.map Char.toLower ∧ current.startTicks = ticks ∧
      ∀ text, digest = some text → current.exeSha256.map String.toList = some text := by
  rw [identityChanged] at h
  split at h
  · cases h
  · rename_i hsame
    refine ⟨not_not.1 fun hne => hsame (.inl hne), not_not.1 fun hne => hsame (.inr hne), ?_⟩
    rintro text rfl
    obtain ⟨moved, -, h⟩ := bind_ok.1 h
    cases moved with
    | true => cases h
    | false =>
      rw [if_neg Bool.false_ne_true] at h
      cases hdigest : current.exeSha256.map String.toList with
      | none => rw [hdigest] at h; cases h
      | some found =>
        rw [hdigest] at h
        have hfound : decide (found ≠ text) = false := Except.ok.inj h
        simpa using hfound

theorem process_request_ok {digit : Char → Bool} {proc : ℕ → ℕ → Look} {moment : ℕ} {request : ProcessRequest}
    {current : StableProcess} (h : process_request host digit proc moment request = .ok current) :
    ∃ pid, Answered host proc moment request pid current := by
  obtain ⟨number, hnumber, h⟩ := bind_ok.1 h
  obtain ⟨boot, hboot, h⟩ := bind_ok.1 h
  obtain ⟨ticks, hticks, h⟩ := bind_ok.1 h
  obtain ⟨inode, -, h⟩ := bind_ok.1 h
  obtain ⟨digest, hdigest, h⟩ := bind_ok.1 h
  obtain ⟨found, hfound, h⟩ := bind_ok.1 h
  obtain ⟨changed, hchanged, h⟩ := bind_ok.1 h
  cases changed with
  | true => cases h
  | false =>
    rw [if_neg Bool.false_ne_true] at h
    cases pure_ok.1 h
    obtain ⟨hsameBoot, hsame, hdigests⟩ := identityChanged_false hchanged
    rw [orThrow_ok, Option.filter_eq_some_iff] at hticks hboot
    refine ⟨number.toNat, ⟨number, mapError_ok hnumber, rfl⟩, ⟨boot, hboot.1, hsameBoot⟩, hfound, hsame ▸ hticks.1,
      fun text htext => ?_⟩
    rw [htext, optionalText] at hdigest
    split at hdigest
    · cases hdigest
      obtain ⟨value, hvalue, hlist⟩ := Option.map_eq_some_iff.1 (hdigests _ rfl)
      rw [hvalue, String.toList_inj.1 hlist]
    · cases hdigest

/-- A request with the number and the start of a process that was recorded before is answered only of that process,
    which has kept its pid all the time from then on. -/
theorem process_request_same {digit : Char → Bool} {proc : ℕ → ℕ → Look} {pid : ℕ} {start : ℕ → List Char}
    (hkernel : Kernel start (proc pid)) (hstart : Function.Injective start) {before now : ℕ}
    {cache : Cache} {observed current : StableProcess}
    (hobserved : (stable_process host pid (fun n => proc pid (before + n)) cache includeHash includeContext).2 =
      .ok observed)
    {request : ProcessRequest} (hpid : request.pid = some (.num pid))
    (hticks : text? request.startTicks = some observed.startTicks)
    (h : process_request host digit proc now request = .ok current) :
    current.pid = observed.pid ∧ current.bootId = observed.bootId ∧
      ∃ process, Belongs start (fun n => proc pid (before + n)) process observed ∧
        Belongs start (fun n => proc pid (now + n)) process current ∧
        ∀ k, before ≤ k → k ≤ now + 6 → (proc pid k).holder = some process := by
  obtain ⟨found, hanswered⟩ := process_request_ok h
  obtain ⟨number, hnumber, rfl⟩ := hanswered.number
  rw [hpid] at hnumber
  have hread := hanswered.read
  rw [safe_int_natural hnumber] at hread
  have hsameTicks : current.startTicks = observed.startTicks :=
    Option.some.inj (hanswered.startTicks.symm.trans hticks)
  obtain ⟨hobservedPid, hobservedBoot, process, hfirst⟩ :=
    stable_process_belongs (hkernel.shift before) hstart hobserved
  obtain ⟨hcurrentPid, hcurrentBoot, other, hsecond⟩ := stable_process_belongs (hkernel.shift now) hstart hread
  have hsame : process = other :=
    hstart (hfirst.startTicks.symm.trans (hsameTicks.symm.trans hsecond.startTicks))
  subst hsame
  refine ⟨hcurrentPid.trans hobservedPid.symm, ?_, process, hfirst, hsecond, fun k hk hlast => ?_⟩
  · exact Except.ok.inj (hcurrentBoot.symm.trans hobservedBoot)
  · exact hkernel.once process before k (now + 6) hk hlast (hfirst.held 0 (Nat.zero_le 6)) (hsecond.held 6 (le_refl 6))

def sampleRequest : ProcessRequest where
  pid := some (.num ((7 : ℕ) : ℚ))
  bootId := some (.str "00000000-0000-4000-8000-00000000000A")
  startTicks := some (.str "33")
  exeInode := some (.str "5")
  exeSha256 := none

def sampleProc : ℕ → ℕ → Look := fun _ _ => sampleLook

theorem process_request_same_sample : ∃ observed current : StableProcess,
    (stable_process sampleHost 7 (fun n => sampleProc 7 (3 + n)) [] false false).2 = .ok observed ∧
      process_request sampleHost Inet.isDigit sampleProc 50 sampleRequest = .ok current ∧
      current.pid = observed.pid ∧ current.bootId = observed.bootId ∧
      ∃ process, Belongs sampleStart (fun n => sampleProc 7 (3 + n)) process observed ∧
        Belongs sampleStart (fun n => sampleProc 7 (50 + n)) process current ∧
        ∀ k, 3 ≤ k → k ≤ 50 + 6 → (sampleProc 7 k).holder = some process :=
  ⟨_, _, rfl, rfl, @process_request_same sampleHost false false Inet.isDigit sampleProc 7 sampleStart sample_kernel
    sampleStart_injective 3 50 [] _ _ rfl sampleRequest rfl rfl rfl⟩

end HuntWarden.Helper.ProcFs
