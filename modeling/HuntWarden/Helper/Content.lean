import HuntWarden.Helper.Match
import HuntWarden.Lib.Kernel

/-! The content of files while the target changes: what `read`, `match` and `collect` return for a file is
    taken, call by call, from the object that was opened for the reference. -/

namespace HuntWarden.Helper

open Outcome ChangingFiles Normalizer

abbrev HelperProgram := Program ℕ HelperError

/-- What the helper uses besides the file system, and how many reads a request has time for. -/
structure ContentEnv where
  engines : Match.Env
  decode : String → List UInt8 → Option String
  sha256 : List UInt8 → String
  /-- `/proc/self/fd` is there. -/
  procfs : Bool
  fuel : ℕ

variable (fs : ChangingFiles) (env : ContentEnv)

def staleRef (message : String) : HelperError := { code := .staleRef, message }

def timedOut : HelperError := { code := .toolTimeout, message := "operation timed out" }

/-! ### Opening -/

def locatorPath (value : Option Json) : Except HelperError String := do
  let path ← orThrow ((value.bind Json.asString?).filter fun path =>
      startsWith "/" path ∧ Char.ofNat 0 ∉ path.toList ∧ ".." ∉ pathParts path)
    (invalidArgument "file locator must be an absolute traversal-free path")
  require (!(pathParts path).isEmpty) (invalidArgument "file locator cannot be root")
  return path

/-- `text.removesuffix(suffix)` -/
def removeSuffix (suffix text : String) : String :=
  if endsWith suffix text then String.ofList (text.toList.take (text.length - suffix.length)) else text

/-- The open object, and the path that it is known by. -/
def openRegular (value : Option Json) : HelperProgram (ℕ × String) := do
  let path ← Program.reads fun _ => locatorPath value
  let root ← call fun _ => .ok fs.root
  let o ← fs.openPath (staleRef "file locator changed, escaped, or became unreadable") root
    (pathParts path)
  call fun _ => require (fs.kind o = .regular) {
    code := .permissionDenied
    message := "file primitive rejects devices, FIFOs, sockets, and directories" }
  let canonical ← call fun n => .ok (fs.path n o)
  return (o, match canonical with
    | some canonical => removeSuffix " (deleted)" canonical
    | none => path)

/-- `fstat` -/
def fileAt (o : ℕ) (canonical : String) (n : ℕ) : OpenFile where
  canonical := canonical
  regular := fs.kind o = .regular
  device := fs.device o
  inode := fs.inode o
  size := (fs.attributes n o).size
  mode := (fs.attributes n o).mode
  uid := (fs.attributes n o).uid
  gid := (fs.attributes n o).gid
  mtime := (fs.attributes n o).mtime
  content := fs.content n o
  readable := fs.readable n o

/-- `v2_sha256_fd`: the bytes that are hashed. -/
def hashedBytes (o : ℕ) : HelperProgram (List UInt8) :=
  fs.readOn o (1024 * 1024) (fun _ => .ok ()) timedOut env.fuel 0

def fileHash (includeHash : Bool) (o : ℕ) : HelperProgram (Option String) :=
  if includeHash then do
    let bytes ← hashedBytes fs env o
    return some (env.sha256 bytes)
  else pure none

/-- The open object with its fields, and its hash if it is asked for. -/
def boundFile (params : Json) (includeHash : Bool) :
    HelperProgram (ℕ × OpenFile × Option String) := do
  let ref ← Program.reads fun _ => v2_ref_params params
  Program.reads fun _ => require (ref.namespace_ = .file)
    (invalidArgument "operation only accepts file refs")
  let opened ← openRegular fs (ref.locator.lookup "path")
  let file ← call fun n => .ok (fileAt fs opened.1 opened.2 n)
  let hash ← fileHash fs env includeHash opened.1
  Program.reads fun _ => require (sameIdentity file ref.identity)
    (staleRef "stable file identity changed")
  return (opened.1, file, hash)

/-! ### Reading -/

def observed (file : OpenFile) (content : List (String × Json)) : Except HelperError WireObservation :=
  v2_observation env.engines.now .file (v2_file_fields_fd file ++ content) .objectStable []

/-- The encoding that the request names. -/
def encodingOf (params : Json) : String :=
  ((params.get? "encoding").bind Json.asString?).getD "utf-8"

def v2_read (params : Json) : HelperProgram WireObservation := do
  let (o, file, _) ← boundFile fs env params false
  Program.reads fun _ => require (v2_content_class file.canonical ≠ .deniedText) {
    code := .permissionDenied
    message := "DENIED_TEXT cannot be read" }
  let offset ← Program.reads fun _ => safe_int (params.get? "offset") 0 file.size "offset"
  let length ← Program.reads fun _ => safe_int (params.get? "length") 1 65536 "length"
  let raw ← call fun n => .ok (fs.bytesAt o offset.toNat length.toNat n)
  let text ← Program.reads fun _ => orThrow (env.decode (encodingOf params) raw)
    (invalidArgument "unknown encoding")
  Program.reads fun _ => observed env file
    [("content", .str (env.engines.redactSecretText text length.toNat))]

/-! ### Matching -/

/-- One file; YARA opens the object again through the descriptor. -/
def matchOpen (request : Match.Request) (o : ℕ) (file : OpenFile) : HelperProgram Match.Visit :=
  if v2_content_class file.canonical = .deniedText then do
    Program.reads fun _ => require (!request.includeContext) {
      code := .permissionDenied
      message := "DENIED_TEXT does not permit match context" }
    return .skipped
  else do
    let raw ← call fun n => .ok (fs.bytesAt o 0 Match.matchWindowBytes n)
    let finding ← call fun n => Match.search env.engines request
      { file with content := fs.content n o } raw
    Program.reads fun _ => Match.visitOf env.engines request file raw finding

def matchBinding (request : Match.Request) (binding : Json) : HelperProgram Match.Visit :=
  if Match.isFileBinding binding then do
    let (o, file, _) ← boundFile fs env binding false
    matchOpen fs env request o file
  else pure .skipped

/-- The loop ends early once there are enough hits. -/
def matchBindings (request : Match.Request) : List Json → List Match.Visit →
    HelperProgram (List Match.Visit)
  | [], visits => pure visits
  | binding :: refs, visits =>
    if request.maximum ≤ (Match.hitsOf visits).length then pure visits
    else do
      let visit ← matchBinding fs env request binding
      matchBindings request refs (visits ++ [visit])

def v2_match (params : Json) : HelperProgram Match.Result := do
  let request ← Program.reads fun _ => Match.requestOf env.engines params
  let visits ← matchBindings fs env request request.refs []
  return { request, visits }

/-! ### Collecting -/

def artifactMaxBytes : ℕ := 100 * 1024 * 1024

structure Artifact where
  bytes : List UInt8
  sha256 : String
  size : ℕ
  complete : Bool
  deriving DecidableEq

def evidenceCollection (message : String) : HelperError := { code := .evidenceCollection, message }

/-- `stage_artifact`, which opens the object again through its descriptor. -/
def stageArtifact (o maximum : ℕ) : HelperProgram (List UInt8) := do
  call fun n => require (fs.kind o = .regular ∧ (fs.attributes n o).size ≤ maximum ∧
      (fs.attributes n o).size ≤ artifactMaxBytes)
    (evidenceCollection "file is not regular or exceeds collection limit")
  fs.readOn o (256 * 1024)
    (fun size => require (size ≤ maximum ∧ size ≤ artifactMaxBytes)
      (evidenceCollection "file grew beyond collection limit")) timedOut env.fuel 0

/-- `collect` of a file. -/
def collect (params : Json) : HelperProgram (WireObservation × Artifact) := do
  let (o, file, hash) ← boundFile fs env params true
  Program.reads fun _ => require env.procfs {
    code := .unsupportedCapability
    message := "procfs is unavailable; fd-based Evidence collection is not supported" }
  let maximum ← Program.reads fun _ =>
    safe_int (params.get? "maxBytes") 1 artifactMaxBytes "maxBytes"
  let bytes ← stageArtifact fs env o maximum.toNat
  let sha256 := env.sha256 bytes
  Program.reads fun _ => require (hash = some sha256)
    (staleRef "file changed during Evidence collection")
  let observation ← Program.reads fun _ => observed env file [("sha256", .str (hash.getD ""))]
  return (observation, {
    bytes
    sha256
    size := bytes.length
    complete := decide (bytes.length = file.size) })

/-! ### What is bound to a reference -/

/-- The object is the regular file that the reference identifies, and its path led to it through
    directories only. -/
structure Bound (fs : ChangingFiles) (ref : RefParams) (o : ℕ) : Prop where
  file : ref.namespace_ = .file
  regular : fs.kind o = .regular
  mountId : ref.identity.lookup "mountId" = some (.str (toString (fs.device o)))
  device : ref.identity.lookup "device" = some (.str (toString (fs.device o)))
  inode : ref.identity.lookup "inode" = some (.str (toString (fs.inode o)))
  walked : ∃ path n, ref.locator.lookup "path" = some (.str path) ∧
    fs.Walked n fs.root (pathParts path) o

/-- An open object with its fields as they were observed, for a reference that it is bound to. -/
structure Opened (fs : ChangingFiles) (params : Json) (o : ℕ) (file : OpenFile) : Prop where
  bound : ∃ ref, v2_ref_params params = .ok ref ∧ Bound fs ref o
  observed : ∃ canonical n, file = fileAt fs o canonical n

variable {fs env} {params : Json} {n o : ℕ} {file : OpenFile}

theorem sameIdentity_fileAt {canonical : String} {identity : Payload}
    (h : sameIdentity (fileAt fs o canonical n) identity = true) :
    identity.lookup "mountId" = some (.str (toString (fs.device o))) ∧
      identity.lookup "device" = some (.str (toString (fs.device o))) ∧
      identity.lookup "inode" = some (.str (toString (fs.inode o))) := by
  have hkey := fun key hkey => of_decide_eq_true (List.all_eq_true.1 h key hkey)
  exact ⟨(hkey "mountId" (by decide)).symm, (hkey "device" (by decide)).symm,
    (hkey "inode" (by decide)).symm⟩

theorem locatorPath_ok {value : Option Json} {path : String} (h : locatorPath value = .ok path) :
    value = some (.str path) := by
  simp only [locatorPath, bind_ok, orThrow_ok, require_ok, pure_ok] at h
  obtain ⟨path', hpath, -, -, rfl⟩ := h
  obtain ⟨hpath, -⟩ := Option.filter_eq_some_iff.1 hpath
  obtain ⟨json, rfl, hjson⟩ := Option.bind_eq_some_iff.1 hpath
  cases json <;> simp_all [Json.asString?]

theorem openRegular_walked {value : Option Json} :
    Program.Ensures (openRegular fs value) n
      (fun opened _ => fs.kind opened.1 = .regular ∧ ∃ path n,
        value = some (.str path) ∧ fs.Walked n fs.root (pathParts path) opened.1)
      fun _ _ => True := by
  rw [openRegular, Program.ensures_bind, Program.ensures_reads]
  refine ⟨fun path hpath => ?_, fun _ _ => trivial⟩
  rw [Program.ensures_bind, ensures_call]
  rintro root hroot
  obtain rfl := Except.ok.inj hroot
  rw [Program.ensures_bind]
  refine openPath_walked.mono (fun o n' hwalked => ?_) fun _ _ h => h
  rw [Program.ensures_bind, ensures_call]
  intro _ hregular
  rw [Program.ensures_bind, ensures_call]
  intro canonical _
  exact ⟨of_decide_eq_true (require_ok.1 hregular), path, _, locatorPath_ok hpath, hwalked⟩

theorem fileHash_taken {includeHash : Bool} :
    Program.Ensures (fileHash fs env includeHash o) n
      (fun hash _ => ∀ sha256, hash = some sha256 →
        ∃ t bytes, fs.Taken o (1024 * 1024) t 0 bytes ∧ sha256 = env.sha256 bytes)
      fun _ _ => True := by
  rw [fileHash]
  cases includeHash with
  | false => exact fun _ h => nomatch h
  | true =>
    rw [if_pos rfl, Program.ensures_bind, hashedBytes]
    refine readOn_taken.mono (fun bytes _ htaken => ?_) fun _ _ h => h
    rintro sha256 hhash
    exact ⟨n, bytes, htaken, (Option.some.inj hhash).symm⟩

theorem boundFile_opened {includeHash : Bool} :
    Program.Ensures (boundFile fs env params includeHash) n
      (fun opened _ => Opened fs params opened.1 opened.2.1 ∧ ∀ sha256, opened.2.2 = some sha256 →
        ∃ t bytes, fs.Taken opened.1 (1024 * 1024) t 0 bytes ∧ sha256 = env.sha256 bytes)
      fun _ _ => True := by
  rw [boundFile, Program.ensures_bind, Program.ensures_reads]
  refine ⟨fun ref href => ?_, fun _ _ => trivial⟩
  rw [Program.ensures_bind, Program.ensures_reads]
  refine ⟨fun _ hfile => ?_, fun _ _ => trivial⟩
  rw [Program.ensures_bind]
  refine openRegular_walked.mono (fun opened n' hopened => ?_) fun _ _ h => h
  obtain ⟨hregular, hwalked⟩ := hopened
  rw [Program.ensures_bind, ensures_call]
  intro file hread
  obtain rfl := Except.ok.inj hread
  rw [Program.ensures_bind]
  refine fileHash_taken.mono (fun hash _ hhash => ?_) fun _ _ h => h
  rw [Program.ensures_bind, Program.ensures_reads]
  refine ⟨fun _ hidentity => ?_, fun _ _ => trivial⟩
  obtain ⟨hmount, hdevice, hinode⟩ := sameIdentity_fileAt (require_ok.1 hidentity)
  have hbound : Bound fs ref opened.1 :=
    ⟨of_decide_eq_true (require_ok.1 hfile), hregular, hmount, hdevice, hinode, hwalked⟩
  exact ⟨⟨⟨ref, href, hbound⟩, opened.2, n', rfl⟩, hhash⟩

/-- The content of the answer was read in one call from the object of the reference. -/
def ContentRead (fs : ChangingFiles) (env : ContentEnv) (params : Json) (answer : WireObservation) :
    Prop :=
  ∃ o file t offset length text, Opened fs params o file ∧
    env.decode (encodingOf params) (fs.bytesAt o offset length t) = some text ∧
    observed env file [("content", .str (env.engines.redactSecretText text length))] = .ok answer

theorem read_contentRead :
    Program.Ensures (v2_read fs env params) n (fun answer _ => ContentRead fs env params answer)
      fun _ _ => True := by
  rw [v2_read, Program.ensures_bind]
  refine boundFile_opened.mono (fun opened n' hopened => ?_) fun _ _ h => h
  obtain ⟨o, file, hash⟩ := opened
  rw [Program.ensures_bind, Program.ensures_reads]
  refine ⟨fun _ _ => ?_, fun _ _ => trivial⟩
  rw [Program.ensures_bind, Program.ensures_reads]
  refine ⟨fun offset _ => ?_, fun _ _ => trivial⟩
  rw [Program.ensures_bind, Program.ensures_reads]
  refine ⟨fun length _ => ?_, fun _ _ => trivial⟩
  rw [Program.ensures_bind, ensures_call]
  rintro raw hraw
  obtain rfl := Except.ok.inj hraw
  rw [Program.ensures_bind, Program.ensures_reads]
  refine ⟨fun text htext => ?_, fun _ _ => trivial⟩
  rw [Program.ensures_reads]
  refine ⟨fun answer hanswer => ?_, fun _ _ => trivial⟩
  exact ⟨o, file, n', offset.toNat, length.toNat, text, hopened.1, orThrow_ok.1 htext, hanswer⟩

/-- The hit is what the engine found in the object of one of the references, in a call to it or in the
    bytes that were read from it. -/
def HitFound (fs : ChangingFiles) (env : ContentEnv) (request : Match.Request)
    (hit : WireObservation) : Prop :=
  ∃ binding ∈ request.refs, ∃ o file t t' finding visit, Opened fs binding o file ∧
    Match.search env.engines request { file with content := fs.content t' o }
      (fs.bytesAt o 0 Match.matchWindowBytes t) = .ok finding ∧
    Match.visitOf env.engines request file (fs.bytesAt o 0 Match.matchWindowBytes t) finding =
      .ok visit ∧
    visit.hit = some hit

theorem matchBinding_found {request : Match.Request} {binding : Json} (hbinding : binding ∈ request.refs) :
    Program.Ensures (matchBinding fs env request binding) n
      (fun visit _ => ∀ hit, visit.hit = some hit → HitFound fs env request hit)
      fun _ _ => True := by
  rw [matchBinding]
  split
  · rw [Program.ensures_bind]
    refine boundFile_opened.mono (fun opened n' hopened => ?_) fun _ _ h => h
    obtain ⟨o, file, hash⟩ := opened
    dsimp only
    rw [matchOpen]
    split
    · rw [Program.ensures_bind, Program.ensures_reads]
      exact ⟨fun _ _ => fun hit hhit => (nomatch hhit), fun _ _ => trivial⟩
    · rw [Program.ensures_bind, ensures_call]
      rintro raw hraw
      obtain rfl := Except.ok.inj hraw
      rw [Program.ensures_bind, ensures_call]
      intro finding hfinding
      rw [Program.ensures_reads]
      refine ⟨fun visit hvisit hit hhit => ?_, fun _ _ => trivial⟩
      exact ⟨binding, hbinding, o, file, n', n' + 1, finding, visit, hopened.1, hfinding, hvisit, hhit⟩
  · exact fun hit hhit => nomatch hhit

theorem matchBindings_found {request : Match.Request} {refs : List Json} {visits : List Match.Visit}
    (hrefs : refs ⊆ request.refs)
    (hvisits : ∀ hit ∈ Match.hitsOf visits, HitFound fs env request hit) :
    Program.Ensures (matchBindings fs env request refs visits) n
      (fun visits _ => ∀ hit ∈ Match.hitsOf visits, HitFound fs env request hit)
      fun _ _ => True := by
  induction refs generalizing visits n with
  | nil => exact hvisits
  | cons binding refs ih =>
    rw [matchBindings]
    split
    · exact hvisits
    · rw [Program.ensures_bind]
      refine (matchBinding_found (hrefs List.mem_cons_self)).mono (fun visit n' hvisit => ?_)
        fun _ _ h => h
      refine ih (fun _ h => hrefs (List.mem_cons_of_mem _ h)) fun hit hhit => ?_
      rw [Match.hitsOf, List.filterMap_append, List.mem_append] at hhit
      rcases hhit with hhit | hhit
      · exact hvisits hit hhit
      · obtain ⟨visit', hmem, hhit⟩ := List.mem_filterMap.1 hhit
        rw [List.mem_singleton.1 hmem] at hhit
        exact hvisit hit hhit

theorem match_found :
    Program.Ensures (v2_match fs env params) n
      (fun result _ => ∀ hit ∈ result.hits, HitFound fs env result.request hit) fun _ _ => True := by
  rw [v2_match, Program.ensures_bind, Program.ensures_reads]
  refine ⟨fun request _ => ?_, fun _ _ => trivial⟩
  rw [Program.ensures_bind]
  exact matchBindings_found (List.Subset.refl _) fun hit hhit => nomatch hhit

/-- The bytes of the artifact were read from the object of the reference, its hash is the one that was
    observed, and it is marked complete exactly when its size is. -/
structure ArtifactTaken (fs : ChangingFiles) (env : ContentEnv) (params : Json)
    (answer : WireObservation × Artifact) (o : ℕ) (file : OpenFile) : Prop where
  opened : Opened fs params o file
  taken : ∃ t, fs.Taken o (256 * 1024) t 0 answer.2.bytes
  hash : answer.2.sha256 = env.sha256 answer.2.bytes
  observed : observed env file [("sha256", .str answer.2.sha256)] = .ok answer.1
  hashed : ∃ t bytes, fs.Taken o (1024 * 1024) t 0 bytes ∧ answer.2.sha256 = env.sha256 bytes
  size : answer.2.size = answer.2.bytes.length
  complete : answer.2.complete = true ↔ answer.2.size = file.size

theorem collect_taken :
    Program.Ensures (collect fs env params) n
      (fun answer _ => ∃ o file, ArtifactTaken fs env params answer o file) fun _ _ => True := by
  rw [collect, Program.ensures_bind]
  refine boundFile_opened.mono (fun opened n' hopened => ?_) fun _ _ h => h
  obtain ⟨o, file, hash⟩ := opened
  obtain ⟨hopened, hhash⟩ := hopened
  rw [Program.ensures_bind, Program.ensures_reads]
  refine ⟨fun _ _ => ?_, fun _ _ => trivial⟩
  rw [Program.ensures_bind, Program.ensures_reads]
  refine ⟨fun maximum _ => ?_, fun _ _ => trivial⟩
  rw [Program.ensures_bind, stageArtifact, Program.ensures_bind, ensures_call]
  intro _ _
  refine readOn_taken.mono (fun bytes _ htaken => ?_) fun _ _ h => h
  rw [Program.ensures_bind, Program.ensures_reads]
  refine ⟨fun _ hsame => ?_, fun _ _ => trivial⟩
  have hsame : hash = some (env.sha256 bytes) := of_decide_eq_true (require_ok.1 hsame)
  rw [Program.ensures_bind, Program.ensures_reads]
  refine ⟨fun answer hanswer => ?_, fun _ _ => trivial⟩
  subst hsame
  refine ⟨o, file, hopened, ⟨_, htaken⟩, rfl, hanswer, hhash _ rfl, rfl, ?_⟩
  exact decide_eq_true_iff

/-- `/etc/motd` on device 1, in whose place there is a link to another file from some call on. -/
def swappedFiles (swapped : ℕ) : ChangingFiles where
  kind o := if o ≤ 1 then .directory else if o = 3 then .link else .regular
  device _ := 1
  inode o := o
  root := 0
  entry n dir name :=
    if dir = 0 ∧ name = "etc" then some 1
    else if dir = 1 ∧ name = "motd" then some (if n < swapped then 2 else 3)
    else none
  target _ _ := some 4
  allowed _ _ := true
  attributes _ _ := ⟨3, 0o644, 0, 0, "2026-01-01T00:00:00Z"⟩
  content _ o := if o = 2 then [0x6B, 0x65, 0x79] else []
  readable _ _ := 4096
  path _ _ := none

def sampleContentEnv : ContentEnv where
  engines := Match.sampleEnv []
  decode _ bytes := some (String.ofList (bytes.map fun byte => Char.ofNat byte.toNat))
  sha256 bytes := toString bytes.length
  procfs := true
  fuel := 3

/-- Three bytes of the file. -/
def readParams : Json :=
  .obj [("namespace", .str "file"),
    ("identity", .obj [("mountId", .str "1"), ("device", .str "1"), ("inode", .str "2")]),
    ("locator", .obj [("path", .str "/etc/motd")]), ("offset", .num 0), ("length", .num 3)]

/-- The swap comes too late to matter, or makes the request fail. -/
example :
    (((v2_read (swappedFiles 3) sampleContentEnv readParams).run 0).1.toOption.bind fun answer =>
      answer.fields.lookup "content") = some (.str "key") ∧
    ((v2_read (swappedFiles 2) sampleContentEnv readParams).run 0).1.toOption.isNone := by
  decide

end HuntWarden.Helper
