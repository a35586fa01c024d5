import HuntWarden.Helper.Exactness
import HuntWarden.Helper.ProcessTable

/-! Work on a process between two looks at who has its pid: the executable is copied to the spool, or a probe attaches
    to a virtual machine. Whatever happens to the pid in between, an answer is about the process that was asked for. -/

namespace HuntWarden.Helper.ProcFs

open Outcome

/-! ### The spool -/

/-- `ARTIFACT_TTL_SECONDS`, in milliseconds. -/
def artifactTtl : ℕ := 15 * 60 * 1000
def artifactMaxBytes : ℕ := 100 * 1024 * 1024

structure Artifact where
  token : String
  bytes : List ℕ
  mtime : ℕ

abbrev Spool := List Artifact

structure Staged where
  token : String
  sha256 : String
  size : ℕ

/-- `source.stat()` of what is staged. -/
structure SourceStat where
  regular : Bool
  size : ℕ

/-- What staging depends on besides the source: whether the spool's directories are as they have to be, the time, the
    new name, and the digest of bytes. -/
structure Staging where
  trusted : Except Failure Unit
  now : ℕ
  token : String
  sha256 : List ℕ → String

/-- Artifacts older than their time are swept. -/
def prepare_artifact_dir (staging : Staging) (spool : Spool) : Except Failure Spool :=
  staging.trusted.map fun _ => spool.filter fun artifact => !decide (artifact.mtime + artifactTtl < staging.now)

/-- A copy that fails is unlinked again. -/
def stage_artifact (staging : Staging) (file : Except OsError SourceStat) (content : Except OsError (List ℕ))
    (maximum : ℕ) (spool : Spool) : Spool × Except Failure Staged :=
  match prepare_artifact_dir staging spool with
  | .error failure => (spool, .error failure)
  | .ok swept =>
    match file with
    | .error error => (swept, .error (.os error))
    | .ok info =>
      if !info.regular || decide (maximum < info.size) || decide (artifactMaxBytes < info.size) then
        (swept, .error (evidenceCollection "file is not regular or exceeds collection limit"))
      else
        match content with
        | .error error => (swept, .error (.os error))
        | .ok bytes =>
          if maximum < bytes.length ∨ artifactMaxBytes < bytes.length then
            (swept, .error (evidenceCollection "file grew beyond collection limit"))
          else
            ({ token := staging.token, bytes, mtime := staging.now } :: swept,
              .ok { token := staging.token, sha256 := staging.sha256 bytes, size := bytes.length })

def unlink (token : String) (spool : Spool) : Spool := spool.filter fun artifact => artifact.token ≠ token

/-! ### The executable of a process -/

/-- `/proc/<pid>/exe` over time, as staging reads it. -/
structure ExeFiles where
  file : ℕ → ℕ → Except OsError SourceStat
  content : ℕ → ℕ → Except OsError (List ℕ)

variable (host : Host) (digit : Char → Bool) (proc : ℕ → ℕ → Look) (files : ExeFiles) (staging : Staging)

/-- The copy must have the digest that the process's record has; without one there is a `KeyError`. -/
def checkCopy (target : StableProcess) (spool : Spool) (staged : Staged) : Spool × Except Failure Staged :=
  match target.exeSha256, target.exe with
  | none, _ => (spool, .error .other)
  | some digest, exe =>
    if staged.sha256 ≠ digest then
      (unlink staged.token spool, .error (evidenceCollection "process executable changed during collection"))
    else if exe.isNone then (spool, .error .other)
    else (spool, .ok staged)

/-- The reads of the request are the moments from `moment` on, those of the copy come after them. -/
def collect_process_executable (moment : ℕ) (request : ProcessRequest) (maxBytes : Option Json) (spool : Spool) :
    Spool × Except Failure Staged :=
  match process_request host digit proc moment request with
  | .error failure => (spool, .error failure)
  | .ok target =>
    match safe_int maxBytes 1 artifactMaxBytes "maxBytes" with
    | .error error => (spool, .error (.helper error))
    | .ok maximum =>
      let outcome := stage_artifact staging (files.file target.pid (moment + 10))
        (files.content target.pid (moment + 11)) maximum.toNat spool
      match outcome.2 with
      | .error failure => (outcome.1, .error failure)
      | .ok staged => checkCopy target outcome.1 staged

/-- The process branch of `collect`: the process is looked at once more before the answer. -/
def collectProcess (moment : ℕ) (request : ProcessRequest) (maxBytes : Option Json) (spool : Spool) :
    Spool × Except Failure (Staged × StableProcess) :=
  let outcome := collect_process_executable host digit proc files staging moment request maxBytes spool
  match outcome.2 with
  | .error failure => (outcome.1, .error failure)
  | .ok staged =>
    (outcome.1, (process_request host digit proc (moment + 12) request).map fun current => (staged, current))

variable {host digit proc files staging}

theorem stage_artifact_ok {file : Except OsError SourceStat} {content : Except OsError (List ℕ)} {maximum : ℕ}
    {spool : Spool} {staged : Staged} (h : (stage_artifact staging file content maximum spool).2 = .ok staged) :
    ∃ bytes, content = .ok bytes ∧ bytes.length ≤ maximum ∧
      staged = { token := staging.token, sha256 := staging.sha256 bytes, size := bytes.length } ∧
      (stage_artifact staging file content maximum spool).1 =
        { token := staging.token, bytes, mtime := staging.now } ::
          spool.filter fun artifact => !decide (artifact.mtime + artifactTtl < staging.now) := by
  rw [stage_artifact] at h ⊢
  cases htrusted : staging.trusted with
  | error failure => rw [prepare_artifact_dir, htrusted] at h; cases h
  | ok _ =>
    simp only [prepare_artifact_dir, htrusted, Except.map] at h ⊢
    cases hfile : file with
    | error error => rw [hfile] at h; cases h
    | ok info =>
      simp only [hfile] at h ⊢
      by_cases hsize : (!info.regular || decide (maximum < info.size) || decide (artifactMaxBytes < info.size)) = true
      · rw [if_pos hsize] at h; cases h
      rw [if_neg hsize] at h ⊢
      cases hcontent : content with
      | error error => rw [hcontent] at h; cases h
      | ok bytes =>
        simp only [hcontent] at h ⊢
        by_cases hlong : maximum < bytes.length ∨ artifactMaxBytes < bytes.length
        · rw [if_pos hlong] at h; cases h
        rw [if_neg hlong] at h ⊢
        exact ⟨bytes, rfl, by omega, (Except.ok.inj h).symm, rfl⟩

theorem checkCopy_ok {target : StableProcess} {spool : Spool} {staged found : Staged}
    (h : (checkCopy target spool staged).2 = .ok found) :
    target.exeSha256 = some staged.sha256 ∧ found = staged ∧ (checkCopy target spool staged).1 = spool := by
  rw [checkCopy] at h ⊢
  cases hdigest : target.exeSha256 with
  | none => simp only [hdigest] at h; cases h
  | some digest =>
    simp only [hdigest] at h ⊢
    by_cases hsame : staged.sha256 = digest
    · rw [if_neg (not_not.2 hsame)] at h ⊢
      by_cases hexe : target.exe.isNone = true
      · rw [if_pos hexe] at h; cases h
      · rw [if_neg hexe] at h ⊢
        exact ⟨by rw [hsame], (Except.ok.inj h).symm, rfl⟩
    · rw [if_pos hsame] at h; cases h

theorem collect_process_executable_ok {moment : ℕ} {request : ProcessRequest} {maxBytes : Option Json} {spool : Spool}
    {staged : Staged}
    (h : (collect_process_executable host digit proc files staging moment request maxBytes spool).2 = .ok staged) :
    ∃ target bytes, process_request host digit proc moment request = .ok target ∧
      files.content target.pid (moment + 11) = .ok bytes ∧
      staged = { token := staging.token, sha256 := staging.sha256 bytes, size := bytes.length } ∧
      target.exeSha256 = some staged.sha256 ∧
      (collect_process_executable host digit proc files staging moment request maxBytes spool).1 =
        { token := staging.token, bytes, mtime := staging.now } ::
          spool.filter fun artifact => !decide (artifact.mtime + artifactTtl < staging.now) := by
  rw [collect_process_executable] at h ⊢
  cases htarget : process_request host digit proc moment request with
  | error failure => rw [htarget] at h; cases h
  | ok target =>
    simp only [htarget] at h ⊢
    cases hmaximum : safe_int maxBytes 1 artifactMaxBytes "maxBytes" with
    | error error => rw [hmaximum] at h; cases h
    | ok maximum =>
      simp only [hmaximum] at h ⊢
      cases hstaged : (stage_artifact staging (files.file target.pid (moment + 10))
          (files.content target.pid (moment + 11)) maximum.toNat spool).2 with
      | error failure => rw [hstaged] at h; cases h
      | ok copy =>
        simp only [hstaged] at h ⊢
        obtain ⟨bytes, hbytes, -, hcopy, hspool⟩ := stage_artifact_ok hstaged
        obtain ⟨hdigest, hsame, hafter⟩ := checkCopy_ok h
        exact ⟨target, bytes, rfl, hbytes, hsame ▸ hcopy, hsame ▸ hdigest, hafter.trans hspool⟩

/-- Two answers to one request are about one process, which has the pid from the first read to the last. -/
theorem Answered.same {start : ℕ → ℕ → List Char} (hkernel : ∀ pid, Kernel (start pid) (proc pid))
    (hstart : ∀ pid, Function.Injective (start pid)) {request : ProcessRequest} {first last pid pid' : ℕ}
    {target current : StableProcess} (hfirst : Answered host proc first request pid target)
    (hlast : Answered host proc last request pid' current) :
    target.pid = pid ∧ current.pid = pid ∧ ∃ process, start pid process = current.startTicks ∧
      Belongs (start pid) (fun n => proc pid (last + n)) process current ∧
      ∀ k, first ≤ k → k ≤ last + 6 → (proc pid k).holder = some process := by
  obtain ⟨number, hnumber, rfl⟩ := hfirst.number
  obtain ⟨number', hnumber', rfl⟩ := hlast.number
  have hsamePid : number' = number := Except.ok.inj (hnumber'.symm.trans hnumber)
  subst hsamePid
  have hticks : target.startTicks = current.startTicks :=
    Option.some.inj (hfirst.startTicks.symm.trans hlast.startTicks)
  obtain ⟨htargetPid, -, process, hbefore⟩ :=
    stable_process_belongs ((hkernel number'.toNat).shift first) (hstart number'.toNat) hfirst.read
  obtain ⟨hcurrentPid, -, other, hafter⟩ :=
    stable_process_belongs ((hkernel number'.toNat).shift last) (hstart number'.toNat) hlast.read
  have hsame : process = other :=
    hstart number'.toNat (hbefore.startTicks.symm.trans (hticks.trans hafter.startTicks))
  subst hsame
  refine ⟨htargetPid, hcurrentPid, process, hafter.startTicks.symm, hafter, fun k hk hend => ?_⟩
  exact (hkernel number'.toNat).once process first k (last + 6) hk hend (hbefore.held 0 (Nat.zero_le 6))
    (hafter.held 6 (le_refl 6))

variable (host proc files staging) in
/-- What a collected executable is: a copy of what the one process had for its executable, of the pid, the boot and the
    start that were asked for. -/
structure CollectedExecutable (start : ℕ → ℕ → List Char) (moment : ℕ) (request : ProcessRequest) (spool after : Spool)
    (staged : Staged) (current : StableProcess) : Prop where
  pid : ∃ number, safe_int request.pid 1 (2 ^ 31 - 1) "pid" = .ok number ∧ number.toNat = current.pid
  boot : ∃ boot, text? request.bootId = some boot ∧ boot_id host.bootId = .ok (boot.map Char.toLower) ∧
    current.bootId = boot.map Char.toLower
  asked : text? request.startTicks = some current.startTicks
  held : ∃ process, start current.pid process = current.startTicks ∧
    Belongs (start current.pid) (fun n => proc current.pid (moment + 12 + n)) process current ∧
    ∀ k, moment ≤ k → k ≤ moment + 12 + 6 → (proc current.pid k).holder = some process
  copied : ∃ bytes, files.content current.pid (moment + 11) = .ok bytes ∧ staged.sha256 = staging.sha256 bytes ∧
    staged.size = bytes.length ∧ { token := staged.token, bytes, mtime := staging.now } ∈ after
  kept : ∀ artifact ∈ spool, staging.now ≤ artifact.mtime + artifactTtl → artifact ∈ after
  digest : ∀ digest, request.exeSha256 = some (.str digest) →
    staged.sha256 = digest ∧ current.exeSha256 = some digest

/-- An executable that is collected was the requested process's own, copied while that process had the pid. -/
theorem collectProcess_faithful {start : ℕ → ℕ → List Char} (hkernel : ∀ pid, Kernel (start pid) (proc pid))
    (hstart : ∀ pid, Function.Injective (start pid)) {moment : ℕ} {request : ProcessRequest} {maxBytes : Option Json}
    {spool : Spool} {staged : Staged} {current : StableProcess}
    (h : (collectProcess host digit proc files staging moment request maxBytes spool).2 = .ok (staged, current)) :
    CollectedExecutable host proc files staging start moment request spool
      (collectProcess host digit proc files staging moment request maxBytes spool).1 staged current := by
  rw [collectProcess] at h ⊢
  cases hcollected : (collect_process_executable host digit proc files staging moment request maxBytes spool).2 with
  | error failure => simp only [hcollected] at h; cases h
  | ok copy =>
    simp only [hcollected] at h ⊢
    cases hcurrent : process_request host digit proc (moment + 12) request with
    | error failure => rw [hcurrent] at h; cases h
    | ok found =>
      rw [hcurrent] at h
      cases h
      obtain ⟨target, bytes, htarget, hbytes, hcopy, hdigest, hspool⟩ := collect_process_executable_ok hcollected
      obtain ⟨pid, hfirst⟩ := process_request_ok htarget
      obtain ⟨pid', hlast⟩ := process_request_ok hcurrent
      obtain ⟨htargetPid, hcurrentPid, process, hticks, hbelongs, hheld⟩ := hfirst.same hkernel hstart hlast
      obtain ⟨-, hbootId, -⟩ := stable_process_belongs ((hkernel pid').shift (moment + 12)) (hstart pid') hlast.read
      obtain ⟨boot, hasked, hboot⟩ := hlast.boot
      obtain ⟨number, hnumber, hpid⟩ := hlast.number
      have hsamePid : pid = pid' := by
        obtain ⟨number', hnumber', hpid'⟩ := hfirst.number
        cases hnumber.symm.trans hnumber'
        exact hpid'.symm.trans hpid
      subst hcurrentPid
      rw [htargetPid] at hbytes
      refine ⟨⟨number, hnumber, hpid.trans hsamePid.symm⟩, ⟨boot, hasked, hboot ▸ hbootId, hboot⟩, hlast.startTicks,
        ⟨process, hticks, hbelongs, hheld⟩, ⟨bytes, hbytes, ?_, ?_, ?_⟩, ?_, ?_⟩
      · rw [hcopy]
      · rw [hcopy]
      · rw [hspool, hcopy]
        exact List.mem_cons_self
      · intro artifact hartifact hyoung
        rw [hspool]
        exact List.mem_cons_of_mem _ (List.mem_filter.2 ⟨hartifact, by simpa using hyoung⟩)
      · intro digest hasked
        have hrecorded := hfirst.digest digest hasked
        exact ⟨Option.some.inj (hdigest.symm.trans hrecorded), hlast.digest digest hasked⟩

def sampleFiles : ExeFiles where
  file _ _ := .ok { regular := true, size := 3 }
  content _ _ := .ok [127, 69, 76]

def sampleStaging : Staging where
  trusted := .ok ()
  now := 5000000
  token := "t1"
  sha256 _ := "d5"

/-- An artifact past its time and one that is not. -/
def sampleSpool : Spool := [⟨"t0", [1], 0⟩, ⟨"t2", [2], 4999999⟩]

theorem sample_kernels (pid : ℕ) : Kernel sampleStart (sampleProc pid) := sample_kernel

theorem collectProcess_faithful_sample : ∃ staged current,
    (collectProcess sampleHost Inet.isDigit sampleProc sampleFiles sampleStaging 4 sampleRequest (some (.num 10))
      sampleSpool).2 = .ok (staged, current) ∧
    CollectedExecutable sampleHost sampleProc sampleFiles sampleStaging (fun _ => sampleStart) 4 sampleRequest
      sampleSpool (collectProcess sampleHost Inet.isDigit sampleProc sampleFiles sampleStaging 4 sampleRequest
        (some (.num 10)) sampleSpool).1 staged current :=
  ⟨_, _, rfl, @collectProcess_faithful sampleHost Inet.isDigit sampleProc sampleFiles sampleStaging
    (fun _ => sampleStart) sample_kernels (fun _ => sampleStart_injective) 4 sampleRequest (some (.num 10))
    sampleSpool _ _ rfl⟩

/-! ### Probes -/

inductive ProbeKind where
  | inventory | inspect | dump
  deriving DecidableEq

structure ProbeAnswer where
  objects : List Normalizer.WireObservation
  edges : List Normalizer.WireEdge
  gaps : List CoverageGap
  artifact : Option Payload

def staleRef (message : String) : Failure := .helper { code := .staleRef, message }

/-- `bool(value)` -/
def truthy : Json → Bool
  | .null => false
  | .bool b => b
  | .num q => q ≠ 0
  | .str text => text ≠ ""
  | .arr items => !items.isEmpty
  | .obj fields => !fields.isEmpty

def getOr (fields : Payload) (name : String) (fallback : Json) : Json := (fields.lookup name).getD fallback

variable (host digit proc) in
/-- One look at who has the pid of the identity. -/
def v2_bound_jvm (moment : ℕ) (identity : Payload) : Except Failure ℕ := do
  let pid ← (safe_int (identity.lookup "pid") 1 (2 ^ 31 - 1) "pid").mapError Failure.helper
  let boot ← orThrow (text? (identity.lookup "bootId")) (invalidRequest "invalid stable jvm identity")
  let ticks ← orThrow ((text? (identity.lookup "startTicks")).filter (isDigits digit))
    (invalidRequest "invalid stable jvm identity")
  let currentBoot ← observable (boot_id host.bootId)
  let current ← observable (proc_stat_fields (proc pid.toNat moment).stat)
  if currentBoot ≠ boot.map Char.toLower ∨ current.startTicks ≠ ticks then
    .error (staleRef "stable jvm identity changed")
  else return pid.toNat
where
  /-- A read that fails says that the machine is gone. -/
  observable {α : Type} : Except Failure α → Except Failure α
    | .error (.helper _) => .error (staleRef "jvm object is no longer observable")
    | .error (.os _) => .error (staleRef "jvm object is no longer observable")
    | outcome => outcome

variable (texts : Enumerate.Texts) (now : String)

def cut (length : ℕ) (text : String) : String := String.ofList (text.toList.take length)

def v2_edge (fromNamespace : NamespaceName) (fromFields : Payload) (relation : String) (toNamespace : NamespaceName)
    (toFields : Payload) : Except HelperError Normalizer.WireEdge := do
  let source ← v2_identity fromNamespace fromFields
  let target ← v2_identity toNamespace toFields
  return {
    relation
    fromIdentity := { namespace_ := fromNamespace, identity := source }
    toIdentity := { namespace_ := toNamespace, identity := target }
    observedAt := now }

/-- The mappings of a component: its own, and what it is reached by. -/
def mappingsOf (item : Payload) : List Json :=
  (match getOr item "mappings" (.arr []) with
    | .arr values => (values.take 100).map fun value => .str (Enumerate.str texts value)
    | _ => []) ++
  ["context", "mapping", "endpointPath"].filterMap fun key =>
    match fieldOf item key with
    | .null => none
    | value => some (.str (key ++ ":" ++ cut 1024 (Enumerate.str texts value)))

def componentFields (jvmDigest : String) (item : Payload) : Payload :=
  [("jvmDigest", .str jvmDigest),
    ("context", .str (Enumerate.str texts (getOr item "context" (.str "unknown")))),
    ("componentKind", .str (Enumerate.str texts
      (getOr item "componentKind" (getOr item "type" (getOr item "kind" (.str "component")))))),
    ("name", .str (Enumerate.str texts (getOr item "name" (getOr item "className" (.str "unknown"))))),
    ("className", .str (Enumerate.str texts (getOr item "className" (.str "unknown")))),
    ("classLoaderId", .str (Enumerate.str texts (getOr item "classLoaderId" (getOr item "loaderId" (.str "unknown"))))),
    ("mappings", .arr (mappingsOf texts item))]

/-- A component and the edge of the machine to it. -/
def component (jvmDigest : String) (identity item : Payload) :
    Except HelperError (Normalizer.WireObservation × Normalizer.WireEdge) := do
  let object ← v2_observation now .javaComponent (componentFields texts jvmDigest item) .pointInTime []
  let edge ← v2_edge now .jvm identity "hosts_component" .javaComponent (componentFields texts jvmDigest item)
  return (object, edge)

def objectItem : Json → Option Payload
  | .obj fields => some fields
  | _ => none

def warningText (result : Payload) : List String :=
  (match getOr result "warnings" (.arr []) with
    | .arr values => (values.take 20).map fun value => cut 512 (Enumerate.str texts value)
    | _ => []) ++
  if truthy (fieldOf result "error") then [cut 512 (Enumerate.str texts (fieldOf result "error"))] else []

def partialGap (result : Payload) : List CoverageGap :=
  if fieldOf result "partial" = .bool true then
    let detail := "; ".intercalate (warningText texts result)
    [{ code := "COLLECTOR_ERROR", detail := some (if detail = "" then "probe reported partial output" else detail),
       field := none, resumable := false }]
  else []

def isObject : Json → Bool
  | .obj _ => true
  | _ => false

/-- The loader of a class that was found. -/
def foundLoader (kind : ProbeKind) (result : Payload) : Option String :=
  match getOr result "classLoaderId" (fieldOf result "loaderId") with
  | .str loader =>
    if (fieldOf result "loaded" = .bool true ∨ kind = .dump ∧ isObject (fieldOf result "artifact") = true) ∧
        loader ≠ "" then
      some loader
    else none
  | _ => none

def classFields (jvmDigest loader : String) (result : Payload) : Payload :=
  [("jvmDigest", .str jvmDigest), ("className", .str (Enumerate.str texts (fieldOf result "className"))),
    ("loaderId", .str loader), ("codeSource", fieldOf result "codeSource"),
    ("modifiable", .bool (truthy (fieldOf result "modifiable")))] ++
  match fieldOf result "sha256" with
  | .str digest => if isSha256 digest.toList then [("bytecodeSha256", .str digest)] else []
  | _ => []

def missingClassGap : CoverageGap where
  code := "FIELD_UNAVAILABLE"
  field := some "class.loaderId"
  detail := some "probe did not return a uniquely loaded class"
  resumable := false

/-- A staged class without one of the fields is a `KeyError`. -/
def stagedArtifact (kind : ProbeKind) (result : Payload) : Except Failure (Option Payload) :=
  match fieldOf result "artifact" with
  | .obj staged =>
    if kind = .dump then
      if ["artifactToken", "sha256", "size", "expiresAt"].all fun name => (staged.lookup name).isSome then
        .ok (some [("token", fieldOf staged "artifactToken"), ("sha256", fieldOf staged "sha256"),
          ("size", fieldOf staged "size"), ("complete", .bool true), ("expiresAt", fieldOf staged "expiresAt")])
      else .error .other
    else .ok none
  | _ => .ok none

/-- The components of an inventory. -/
def inventoryAnswer (jvmDigest : String) (identity result : Payload) : Except HelperError ProbeAnswer :=
  match getOr result "items" (getOr result "components" (.arr [])) with
  | .arr items => do
    let found ← (items.filterMap objectItem).mapM (component texts now jvmDigest identity)
    return { objects := found.map Prod.fst, edges := found.map Prod.snd, gaps := partialGap texts result
             artifact := none }
  | _ => .error { code := .probeFailed, message := "probe returned invalid component list" }

/-- The class that was asked for, or why there is none. -/
def classAnswer (kind : ProbeKind) (jvmDigest : String) (identity result : Payload) : Except HelperError ProbeAnswer :=
  match foundLoader kind result with
  | some loader => do
    let fields := classFields texts jvmDigest loader result
    let object ← v2_observation now .class_ fields .pointInTime []
    let loads ← v2_edge now .jvm identity "loads_class" .class_ fields
    let loaded ← v2_edge now .class_ fields "loaded_by" .jvm identity
    return { objects := [object], edges := [loads, loaded], gaps := partialGap texts result, artifact := none }
  | none =>
    .ok {
      objects := []
      edges := []
      gaps := if fieldOf result "partial" = .bool true then partialGap texts result else [missingClassGap]
      artifact := none }

/-- The answer to what a probe gives. -/
def answerOf (kind : ProbeKind) (jvmDigest : String) (identity result : Payload) : Except HelperError ProbeAnswer :=
  if kind = .inventory then inventoryAnswer texts now jvmDigest identity result
  else classAnswer texts now kind jvmDigest identity result

variable (host digit proc) in
/-- The probe branch. `probe` is what a probe answers that attaches to a pid at a moment, `digestOf` the digest of an
    identity. -/
def v2_probe (digestOf : Payload → String) (probe : ProbeKind → ℕ → ℕ → Except Failure Payload) (moment : ℕ)
    (kind : ProbeKind) (identity : Payload) : Except Failure ProbeAnswer := do
  let pid ← v2_bound_jvm host digit proc moment identity
  let result ← probe kind pid (moment + 1)
  let _ ← v2_bound_jvm host digit proc (moment + 2) identity
  let answer ← (answerOf texts now kind (digestOf identity) identity result).mapError Failure.helper
  let artifact ← stagedArtifact kind result
  return { answer with artifact }

/-! ### What a probe answers -/

theorem observable_ok {α : Type} {outcome : Except Failure α} {a : α}
    (h : v2_bound_jvm.observable outcome = .ok a) : outcome = .ok a := by
  unfold v2_bound_jvm.observable at h
  split at h
  · cases h
  · cases h
  · exact h

/-- One look at the identity: it is of this boot, and the process that has its pid has its start. -/
theorem v2_bound_jvm_ok {start : ℕ → ℕ → List Char} (hkernel : ∀ pid, Kernel (start pid) (proc pid)) {moment pid : ℕ}
    {identity : Payload} (h : v2_bound_jvm host digit proc moment identity = .ok pid) :
    (∃ number, safe_int (identity.lookup "pid") 1 (2 ^ 31 - 1) "pid" = .ok number ∧ number.toNat = pid) ∧
      (∃ boot, text? (identity.lookup "bootId") = some boot ∧ boot_id host.bootId = .ok (boot.map Char.toLower)) ∧
      ∃ process, (proc pid moment).holder = some process ∧
        text? (identity.lookup "startTicks") = some (start pid process) := by
  obtain ⟨number, hnumber, h⟩ := bind_ok.1 h
  obtain ⟨boot, hboot, h⟩ := bind_ok.1 h
  obtain ⟨ticks, hticks, h⟩ := bind_ok.1 h
  obtain ⟨currentBoot, hcurrentBoot, h⟩ := bind_ok.1 h
  obtain ⟨current, hcurrent, h⟩ := bind_ok.1 h
  have hread : proc_stat_fields (proc number.toNat moment).stat = .ok current := observable_ok hcurrent
  by_cases hchanged : currentBoot ≠ boot.map Char.toLower ∨ current.startTicks ≠ ticks
  · rw [if_pos hchanged] at h
    cases h
  rw [if_neg hchanged] at h
  cases pure_ok.1 h
  obtain ⟨raw, process, name, ppid, -, hholder, -, -, -, hstart⟩ := proc_stat_fields_ok (hkernel number.toNat) hread
  have hsame : current.startTicks = ticks := not_not.1 fun hne => hchanged (.inr hne)
  have hsameBoot : currentBoot = boot.map Char.toLower := not_not.1 fun hne => hchanged (.inl hne)
  rw [orThrow_ok] at hboot
  rw [orThrow_ok, Option.filter_eq_some_iff] at hticks
  exact ⟨⟨number, mapError_ok hnumber, rfl⟩, ⟨boot, hboot, hsameBoot ▸ observable_ok hcurrentBoot⟩, process, hholder,
    by rw [hticks.1, ← hsame, hstart]⟩

theorem lookup_selected (fields : Payload) (name : String) (names : List String) :
    (names.filterMap fun other =>
      ((fields.lookup other).filter (· ≠ .null)).map fun value => (other, value)).lookup name =
      if name ∈ names then (fields.lookup name).filter (· ≠ .null) else none := by
  induction names with
  | nil => rfl
  | cons other names ih =>
    rw [List.filterMap_cons]
    by_cases hsame : name = other
    · subst hsame
      rw [if_pos List.mem_cons_self]
      cases hvalue : (fields.lookup name).filter (· ≠ .null) with
      | none =>
        simp only [Option.map_none]
        rw [ih, hvalue, ite_self]
      | some value => simp
    · have hmem : name ∈ other :: names ↔ name ∈ names := by simp [hsame]
      simp only [hmem]
      cases hvalue : (fields.lookup other).filter (· ≠ .null) with
      | none => exact ih
      | some value =>
        simp only [Option.map_some]
        rw [List.lookup_cons, beq_eq_false_iff_ne.2 hsame]
        exact ih

/-- The fields of a namespace that a record has, looked up. -/
theorem fieldOf_projected (namespace_ : NamespaceName) (fields : Payload) {name : String}
    (h : name ∈ v2NamespaceFields namespace_) : fieldOf (projected namespace_ fields) name = fieldOf fields name := by
  rw [fieldOf, projected, lookup_selected, if_pos h, fieldOf]
  cases fields.lookup name with
  | none => rfl
  | some value =>
    by_cases hnull : value = .null
    · rw [hnull]
      rfl
    · rw [Option.filter_some, if_pos (by simpa using hnull)]

/-- The identity of an object is that of the record it was made from. -/
theorem identity_of_observation {namespace_ : NamespaceName} {fields : Payload} {consistency : Consistency}
    {requested : List String} {object : Normalizer.WireObservation}
    (hfields : ∀ name ∈ v2IdentityFields namespace_, name ∈ v2NamespaceFields namespace_)
    (h : v2_observation now namespace_ fields consistency requested = .ok object) :
    object.namespace_ = namespace_ ∧ v2_identity namespace_ fields = .ok object.identity := by
  obtain ⟨_, -, h⟩ := bind_ok.1 h
  obtain ⟨identity, hidentity, h⟩ := bind_ok.1 h
  cases pure_ok.1 h
  refine ⟨rfl, ?_⟩
  have hall : ∀ name ∈ v2IdentityFields namespace_, fieldOf (projected namespace_ fields) name = fieldOf fields name :=
    fun name hname => fieldOf_projected namespace_ fields (hfields name hname)
  rw [v2_identity] at hidentity ⊢
  rw [← hidentity]
  have hchecks : ((v2IdentityFields namespace_).all fun name =>
      fieldOf fields name ≠ .null ∧ fieldOf fields name ≠ .str "") =
      (v2IdentityFields namespace_).all fun name =>
        fieldOf (projected namespace_ fields) name ≠ .null ∧ fieldOf (projected namespace_ fields) name ≠ .str "" := by
    rw [Bool.eq_iff_iff, List.all_eq_true, List.all_eq_true]
    exact forall₂_congr fun name hname => by rw [hall name hname]
  have hpairs : (v2IdentityFields namespace_).map (fun name => (name, fieldOf fields name)) =
      (v2IdentityFields namespace_).map fun name => (name, fieldOf (projected namespace_ fields) name) :=
    List.map_congr_left fun name hname => by rw [hall name hname]
  rw [hchecks, hpairs]

theorem v2_identity_ok {namespace_ : NamespaceName} {fields identity : Payload}
    (h : v2_identity namespace_ fields = .ok identity) :
    identity = (v2IdentityFields namespace_).map fun name => (name, fieldOf fields name) := by
  obtain ⟨_, -, h⟩ := bind_ok.1 h
  obtain ⟨_, -, h⟩ := bind_ok.1 h
  exact (pure_ok.1 h).symm

/-- The virtual machine as an end of an edge. -/
def machine (identity : Payload) : Normalizer.WireEndpoint where
  namespace_ := .jvm
  identity := (v2IdentityFields .jvm).map fun name => (name, fieldOf identity name)

def endpointOf (object : Normalizer.WireObservation) : Normalizer.WireEndpoint where
  namespace_ := object.namespace_
  identity := object.identity

/-- An object of the machine: it carries the machine's digest. -/
def OfMachine (digest : String) (object : Normalizer.WireObservation) : Prop :=
  object.identity.lookup "jvmDigest" = some (.str digest)

variable {texts now}

theorem v2_edge_ok {source target : NamespaceName} {from_ to_ : Payload} {relation : String}
    {edge : Normalizer.WireEdge} (h : v2_edge now source from_ relation target to_ = .ok edge) :
    edge.fromIdentity.namespace_ = source ∧ v2_identity source from_ = .ok edge.fromIdentity.identity ∧
      edge.toIdentity.namespace_ = target ∧ v2_identity target to_ = .ok edge.toIdentity.identity := by
  obtain ⟨first, hfirst, h⟩ := bind_ok.1 h
  obtain ⟨second, hsecond, h⟩ := bind_ok.1 h
  cases pure_ok.1 h
  exact ⟨rfl, hfirst, rfl, hsecond⟩

/-- An endpoint with the identity of a record is the object that is made from the record. -/
theorem endpoint_eq_object {namespace_ : NamespaceName} {fields : Payload} {consistency : Consistency}
    {object : Normalizer.WireObservation} {endpoint : Normalizer.WireEndpoint}
    (hfields : ∀ name ∈ v2IdentityFields namespace_, name ∈ v2NamespaceFields namespace_)
    (hobject : v2_observation now namespace_ fields consistency [] = .ok object)
    (hnamespace : endpoint.namespace_ = namespace_)
    (hidentity : v2_identity namespace_ fields = .ok endpoint.identity) : endpoint = endpointOf object := by
  obtain ⟨hobjectNamespace, hobjectIdentity⟩ := identity_of_observation now hfields hobject
  cases endpoint
  cases hnamespace.trans hobjectNamespace.symm
  cases Except.ok.inj (hidentity.symm.trans hobjectIdentity)
  rfl

theorem endpoint_eq_machine {identity : Payload} {endpoint : Normalizer.WireEndpoint}
    (hnamespace : endpoint.namespace_ = .jvm) (hidentity : v2_identity .jvm identity = .ok endpoint.identity) :
    endpoint = machine identity := by
  cases endpoint
  cases hnamespace
  cases v2_identity_ok hidentity
  rfl

theorem component_identity : ∀ name ∈ v2IdentityFields .javaComponent, name ∈ v2NamespaceFields .javaComponent := by
  decide

theorem class_identity : ∀ name ∈ v2IdentityFields .class_, name ∈ v2NamespaceFields .class_ := by
  decide

/-- The digest comes first in the records, and so it is in the identity. -/
theorem ofMachine_component {digest : String} {item : Payload} {object : Normalizer.WireObservation}
    (h : v2_observation now .javaComponent (componentFields texts digest item) .pointInTime [] = .ok object) :
    OfMachine digest object := by
  obtain ⟨-, hidentity⟩ := identity_of_observation now component_identity h
  rw [OfMachine, v2_identity_ok hidentity]
  rfl

theorem ofMachine_class {digest loader : String} {result : Payload} {object : Normalizer.WireObservation}
    (h : v2_observation now .class_ (classFields texts digest loader result) .pointInTime [] = .ok object) :
    OfMachine digest object := by
  obtain ⟨-, hidentity⟩ := identity_of_observation now class_identity h
  rw [OfMachine, v2_identity_ok hidentity]
  rfl

/-- Objects and edges belong together: every edge joins the machine and an object, every object is reached by an edge
    from the machine. -/
structure Linked (digest : String) (identity : Payload) (answer : ProbeAnswer) : Prop where
  edges : ∀ edge ∈ answer.edges, ∃ object ∈ answer.objects,
    edge.fromIdentity = machine identity ∧ edge.toIdentity = endpointOf object ∨
      edge.fromIdentity = endpointOf object ∧ edge.toIdentity = machine identity
  objects : ∀ object ∈ answer.objects, OfMachine digest object ∧
    ∃ edge ∈ answer.edges, edge.fromIdentity = machine identity ∧ edge.toIdentity = endpointOf object

theorem inventoryAnswer_linked {digest : String} {identity result : Payload} {answer : ProbeAnswer}
    (h : inventoryAnswer texts now digest identity result = .ok answer) : Linked digest identity answer := by
  rw [inventoryAnswer] at h
  split at h
  · rename_i items hitems
    obtain ⟨found, hfound, h⟩ := bind_ok.1 h
    cases pure_ok.1 h
    have hpairs : ∀ pair ∈ found, OfMachine digest pair.1 ∧ pair.2.fromIdentity = machine identity ∧
        pair.2.toIdentity = endpointOf pair.1 := by
      intro pair hpair
      obtain ⟨item, -, hitem⟩ := mem_of_mapM hfound hpair
      obtain ⟨object, hobject, hrest⟩ := bind_ok.1 hitem
      obtain ⟨edge, hedge, hrest⟩ := bind_ok.1 hrest
      cases pure_ok.1 hrest
      obtain ⟨hfrom, hmachine, hto, hrecord⟩ := v2_edge_ok hedge
      exact ⟨ofMachine_component hobject, endpoint_eq_machine hfrom hmachine,
        endpoint_eq_object component_identity hobject hto hrecord⟩
    refine ⟨fun edge hedge => ?_, fun object hobject => ?_⟩
    · obtain ⟨pair, hpair, rfl⟩ := List.mem_map.1 hedge
      exact ⟨pair.1, List.mem_map_of_mem hpair, .inl (hpairs pair hpair).2⟩
    · obtain ⟨pair, hpair, rfl⟩ := List.mem_map.1 hobject
      exact ⟨(hpairs pair hpair).1, pair.2, List.mem_map_of_mem hpair, (hpairs pair hpair).2⟩
  · cases h

theorem classAnswer_linked {kind : ProbeKind} {digest : String} {identity result : Payload} {answer : ProbeAnswer}
    (h : classAnswer texts now kind digest identity result = .ok answer) :
    Linked digest identity answer ∧ (answer.objects = [] → answer.gaps ≠ []) := by
  rw [classAnswer] at h
  split at h
  · obtain ⟨object, hobject, h⟩ := bind_ok.1 h
    obtain ⟨first, hfirst, h⟩ := bind_ok.1 h
    obtain ⟨second, hsecond, h⟩ := bind_ok.1 h
    cases pure_ok.1 h
    obtain ⟨hfrom, hmachine, hto, hrecord⟩ := v2_edge_ok hfirst
    have hloads : first.fromIdentity = machine identity ∧ first.toIdentity = endpointOf object :=
      ⟨endpoint_eq_machine hfrom hmachine, endpoint_eq_object class_identity hobject hto hrecord⟩
    obtain ⟨hfrom, hrecord, hto, hmachine⟩ := v2_edge_ok hsecond
    have hloaded : second.fromIdentity = endpointOf object ∧ second.toIdentity = machine identity :=
      ⟨endpoint_eq_object class_identity hobject hfrom hrecord, endpoint_eq_machine hto hmachine⟩
    refine ⟨⟨fun edge hedge => ⟨object, List.mem_singleton_self _, ?_⟩, fun other hother => ?_⟩,
      fun hnone => by cases hnone⟩
    · rcases List.mem_pair.1 hedge with rfl | rfl
      · exact .inl hloads
      · exact .inr hloaded
    · cases List.mem_singleton.1 hother
      exact ⟨ofMachine_class hobject, first, List.mem_cons_self, hloads⟩
  · cases h
    refine ⟨⟨by simp, by simp⟩, fun _ => ?_⟩
    dsimp only
    split
    · rename_i hpartial
      rw [partialGap, if_pos hpartial]
      exact List.cons_ne_nil _ _
    · exact List.cons_ne_nil _ _

variable (host proc texts now) in
/-- What an answered probe says: the identity is of this boot, one process has its pid and its start from before the
    probe attaches until after it, and the answer is made of what that probe gave. -/
structure Probed (start : ℕ → ℕ → List Char) (probe : ProbeKind → ℕ → ℕ → Except Failure Payload) (moment : ℕ)
    (kind : ProbeKind) (identity : Payload) (digest : String) (answer : ProbeAnswer) : Prop where
  boot : ∃ boot, text? (identity.lookup "bootId") = some boot ∧ boot_id host.bootId = .ok (boot.map Char.toLower)
  held : ∃ number process result,
    safe_int (identity.lookup "pid") 1 (2 ^ 31 - 1) "pid" = .ok number ∧
      text? (identity.lookup "startTicks") = some (start number.toNat process) ∧
      (∀ k, moment ≤ k → k ≤ moment + 2 → (proc number.toNat k).holder = some process) ∧
      probe kind number.toNat (moment + 1) = .ok result ∧
      ∃ found artifact, answerOf texts now kind digest identity result = .ok found ∧
        stagedArtifact kind result = .ok artifact ∧ answer = { found with artifact }
  linked : Linked digest identity answer
  missing : kind ≠ .inventory → answer.objects = [] → answer.gaps ≠ []

theorem answerOf_linked {kind : ProbeKind} {digest : String} {identity result : Payload} {answer : ProbeAnswer}
    (h : answerOf texts now kind digest identity result = .ok answer) :
    Linked digest identity answer ∧ (kind ≠ .inventory → answer.objects = [] → answer.gaps ≠ []) := by
  rw [answerOf] at h
  by_cases hkind : kind = .inventory
  · rw [if_pos hkind] at h
    exact ⟨inventoryAnswer_linked h, fun hother => absurd hkind hother⟩
  · rw [if_neg hkind] at h
    obtain ⟨hlinked, hmissing⟩ := classAnswer_linked h
    exact ⟨hlinked, fun _ => hmissing⟩

/-- An answer of a probe is about the machine that was asked for: its process had the pid when the probe attached, and
    objects and edges are all that machine's. -/
theorem v2_probe_faithful {start : ℕ → ℕ → List Char} (hkernel : ∀ pid, Kernel (start pid) (proc pid))
    (hstart : ∀ pid, Function.Injective (start pid)) {digestOf : Payload → String}
    {probe : ProbeKind → ℕ → ℕ → Except Failure Payload} {moment : ℕ} {kind : ProbeKind} {identity : Payload}
    {answer : ProbeAnswer} (h : v2_probe host digit proc texts now digestOf probe moment kind identity = .ok answer) :
    Probed host proc texts now start probe moment kind identity (digestOf identity) answer := by
  obtain ⟨pid, hfirst, hprobe⟩ := bind_ok.1 h
  obtain ⟨result, hresult, hagain⟩ := bind_ok.1 hprobe
  obtain ⟨again, hlast, hread⟩ := bind_ok.1 hagain
  obtain ⟨found, hfound, hstaged⟩ := bind_ok.1 hread
  obtain ⟨artifact, hartifact, hanswered⟩ := bind_ok.1 hstaged
  cases pure_ok.1 hanswered
  obtain ⟨⟨number, hnumber, rfl⟩, hboot, process, hholder, hticks⟩ := v2_bound_jvm_ok hkernel hfirst
  obtain ⟨⟨number', hnumber', rfl⟩, -, other, hholder', hticks'⟩ := v2_bound_jvm_ok hkernel hlast
  cases Except.ok.inj (hnumber.symm.trans hnumber')
  have hsame : process = other := hstart number.toNat (Option.some.inj (hticks.symm.trans hticks'))
  subst hsame
  have hheld : ∀ k, moment ≤ k → k ≤ moment + 2 → (proc number.toNat k).holder = some process :=
    fun k hk hend => (hkernel number.toNat).once process moment k (moment + 2) hk hend hholder hholder'
  obtain ⟨hlinked, hmissing⟩ := answerOf_linked (mapError_ok hfound)
  exact ⟨hboot, ⟨number, process, result, hnumber, hticks, hheld, hresult, found, artifact, mapError_ok hfound,
    hartifact, rfl⟩, ⟨hlinked.edges, hlinked.objects⟩, hmissing⟩

def sampleMachine : Payload :=
  [("bootId", .str "00000000-0000-4000-8000-00000000000A"), ("pid", .num ((7 : ℕ) : ℚ)), ("startTicks", .str "33")]

def sampleProbe : ProbeKind → ℕ → ℕ → Except Failure Payload := fun _ _ _ =>
  .ok [("loaded", .bool true), ("className", .str "a.B"), ("loaderId", .str "app")]

theorem v2_probe_faithful_sample : ∃ answer : ProbeAnswer,
    v2_probe sampleHost Inet.isDigit sampleProc Enumerate.plainTexts "2026-01-01T00:00:00Z" (fun _ => "d1")
      sampleProbe 2 .inspect sampleMachine = .ok answer ∧
    answer.objects.length = 1 ∧
    Probed sampleHost sampleProc Enumerate.plainTexts "2026-01-01T00:00:00Z" (fun _ => sampleStart) sampleProbe 2
      .inspect sampleMachine "d1" answer :=
  ⟨_, rfl, rfl, @v2_probe_faithful sampleHost Inet.isDigit sampleProc Enumerate.plainTexts "2026-01-01T00:00:00Z"
    (fun _ => sampleStart) sample_kernels (fun _ => sampleStart_injective) (fun _ => "d1") sampleProbe 2 .inspect
    sampleMachine _ rfl⟩

end HuntWarden.Helper.ProcFs
