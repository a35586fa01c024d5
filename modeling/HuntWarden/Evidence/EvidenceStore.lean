import HuntWarden.Facts.Normalizer
import HuntWarden.Lib.Runs
import HuntWarden.Lib.Table

/-! The evidence store. An artifact is written to a temporary file, renamed, and only then is its record put
    into the database; a crash can come between any two of these. A call has one attempt at a time, since its
    tool waits for it, and is replayed after a crash or when the attempt has ended; attempts of other calls go
    on beside it. Anything else can happen to the files at any time. -/

namespace HuntWarden.EvidenceStore

open Outcome Normalizer

abbrev Bytes := List UInt8

/-- An id that `createId` has drawn for a task or an epoch: there is no colon in it. -/
abbrev DrawnId := { text : String // ':' ∉ text.toList }

/-- A path below the directory of the evidence: the task's directory, and a file name that begins with the id
    of an evidence. -/
structure Path where
  taskId : String
  evidenceId : String
  rest : String
  deriving DecidableEq, Repr

inductive Node where
  | file (bytes : Bytes)
  | directory
  deriving DecidableEq, Repr

abbrev Files := List (Path × Node)

/-- What an evidence is bound to. `epochId` is the text under that name in the metadata. -/
structure EvidenceBinding where
  taskId : DrawnId
  epochId : Option DrawnId
  host : String
  type : String
  source : String
  tool : String
  toolCallId : Option String
  metadata : Payload
  deriving DecidableEq

structure Evidence extends EvidenceBinding where
  evidenceId : String
  sha256 : Option String
  storagePath : Option Path
  deriving DecidableEq

/-- The ids of evidence: drawn at random, or the digest of a text. -/
structure EvidenceIds where
  createId : ℕ → String
  createDeterministicId : String → String
  createId_injective : Function.Injective createId
  deterministic_injective : Function.Injective createDeterministicId
  disjoint : ∀ n text, createId n ≠ createDeterministicId text

/-! ### File names -/

/-- `basename(value)` -/
def basename (value : String) : List Char := ((value.toList.splitOn '/').filter (· ≠ [])).getLastD []

def isSafeChar (ch : Char) : Bool := ch.isAlphanum || ch = '.' || ch = '_' || ch = '-'

def safeName (value : String) : String :=
  let replaced := (basename value).flatMap fun ch =>
    if isSafeChar ch then [ch] else List.replicate (Js.charUnits ch).length '_'
  let name := String.ofList (replaced.take 120)
  if name = "" then "artifact.bin" else name

def finalPath (taskId : DrawnId) (evidenceId source : String) : Path := ⟨taskId, evidenceId, safeName source⟩

/-- `${finalPath}.${process.pid}.tmp` -/
def tempPath (final : Path) (pid : String) : Path := { final with rest := s!"{final.rest}.{pid}.tmp" }

/-! ### Looking for the record of a call -/

/-- The tool call of a binding, if it has one. -/
def callOf (binding : EvidenceBinding) : Option String := Js.truthyText binding.toolCallId

/-- `input.epochId ?? "LEGACY"` -/
def epochText (binding : EvidenceBinding) : String :=
  (binding.epochId.map (·.val)).getD "LEGACY"

def evidenceSeed (binding : EvidenceBinding) (call : String) : String :=
  s!"{binding.taskId.val}:{epochText binding}:{call}"

def sameBinding (existing input : EvidenceBinding) : Bool :=
  existing.epochId = input.epochId && existing.host = input.host && existing.type = input.type &&
    existing.source = input.source && existing.tool = input.tool

def recoveryUncertain (message : String) : Thrown := securityError .recoveryUncertain message

def evidenceCollection (message : String) : Thrown := securityError .evidenceCollection message

def findBoundEvidence (records : List Evidence) (input : EvidenceBinding) :
    Except Thrown (Option Evidence) :=
  match callOf input with
  | none => .ok none
  | some call =>
    match records.filter fun item => item.taskId = input.taskId ∧ item.toolCallId = some call with
    | [] => .ok none
    | [existing] =>
      if sameBinding existing.toEvidenceBinding input then .ok (some existing)
      else .error (recoveryUncertain "ToolCall Evidence 已绑定其他 Epoch、主机、类型、来源或工具，拒绝复用")
    | _ => .error (recoveryUncertain "同一 ToolCall 存在多份 Evidence，拒绝自动选择")

section

variable (hash : Bytes → String)

/-- `stat` and `hashFile` find a file of this digest there. -/
def holds (files : Files) (path : Path) (sha256 : String) (size : Option ℚ) : Bool :=
  match files.lookup path with
  | some (.file bytes) => hash bytes = sha256 && size.all fun expected => (bytes.length : ℚ) = expected
  | _ => false

def verifyExistingArtifact (files : Files) (existing : Evidence) (expectedSha256 : Option String)
    (expectedSize : Option ℚ) : Except Thrown Unit := do
  let incomplete := evidenceCollection "幂等 Evidence 缺少落盘路径或摘要"
  let path ← orThrow existing.storagePath incomplete
  let sha256 ← orThrow (Js.truthyText existing.sha256) incomplete
  require ((Js.truthyText expectedSha256).all (· = sha256))
    (evidenceCollection "同一 ToolCall 的 Evidence 摘要冲突")
  require (holds hash files path sha256 expectedSize)
    (evidenceCollection "幂等 Evidence 文件完整性或大小校验失败")

/-! ### Attempts -/

/-- Where the bytes of an artifact come from. -/
inductive Content where
  /-- `putBuffer` -/
  | buffer (data : Bytes)
  /-- `putStream` -/
  | stream
  deriving DecidableEq

structure PutInput extends EvidenceBinding where
  content : Content
  deriving DecidableEq

inductive Phase where
  /-- A record of the call is there, and its file is being checked. -/
  | verifying (existing : Evidence)
  /-- `putBuffer` looks whether the file has been renamed already. -/
  | looking
  | opening
  | writing
  | renaming
  | committing
  deriving DecidableEq

/-- A call of `putBuffer` or `putStream` under way, with the bytes it has. -/
structure Attempt where
  input : PutInput
  evidenceId : String
  data : Bytes
  phase : Phase
  deriving DecidableEq

/-- What an attempt is resumed by. -/
inductive Event where
  | proceeds
  /-- A piece of a stream. -/
  | chunk (bytes : Bytes)
  /-- The end of a stream, as the transfer reports it. -/
  | transferred (size : ℕ) (sha256 : String)
  | fails
  deriving DecidableEq

/-- What a resumed attempt does: to the files, to itself, and when it ends with a record. -/
structure Effect where
  files : Files
  next : Option Attempt
  committed : Option Evidence := none
  returned : Option Evidence := none

def writeFile (files : Files) (path : Path) (node : Node) : Files := OrderedMap.upsert path (fun _ => node) files

def removeFile (files : Files) (path : Path) : Files := files.filter (·.1 ≠ path)

/-- Bytes written to the end of an open file. -/
def appendFile (files : Files) (path : Path) (bytes : Bytes) : Files :=
  match files.lookup path with
  | some (.file before) => writeFile files path (.file (before ++ bytes))
  | _ => files

namespace Attempt

variable (a : Attempt)

def final : Path := finalPath a.input.taskId a.evidenceId a.input.source

/-- The handler of `putStream` removes the temporary file. -/
def abandon (files : Files) (pid : String) : Effect where
  files := match a.input.content with
    | .buffer _ => files
    | .stream => removeFile files (tempPath a.final pid)
  next := none

/-- The digest and the size that an existing record is held against. -/
def expected : Option String × Option ℚ :=
  match a.input.content with
  | .buffer data => (some (hash data), some data.length)
  | .stream =>
    let text (name : String) := (a.input.metadata.lookup name).bind Json.asString?
    ((text "remoteSha256").or (text "sourceDigest"), (a.input.metadata.lookup "remoteSize").bind Json.asNumber?)

def rangeOf (metadata : Payload) (size : ℕ) : Json :=
  match metadata.lookup "range" with
  | none | some .null => .obj [("start", .num 0), ("length", .num size),
      ("complete", .bool (metadata.lookup "complete" = some (.bool true)))]
  | some range => range

/-- The record of an artifact that has been stored. -/
def record (now : String) : Evidence where
  toEvidenceBinding :=
    { a.input.toEvidenceBinding with
      toolCallId := callOf a.input.toEvidenceBinding
      metadata := spread a.input.metadata
        [("range", rangeOf a.input.metadata a.data.length), ("artifactDigest", .str (hash a.data)),
          ("artifactSize", .num a.data.length), ("integrityStatus", .str "VERIFIED"),
          ("integrityCheckedAt", .str now)] }
  evidenceId := a.evidenceId
  sha256 := some (hash a.data)
  storagePath := some a.final

def advance (files : Files) (pid now : String) (event : Event) : Effect :=
  let temp := tempPath a.final pid
  match a.phase, event with
  | .verifying existing, .proceeds =>
    match verifyExistingArtifact hash files existing (a.expected hash).1 (a.expected hash).2 with
    | .ok _ => { files := files, next := none, returned := some existing }
    | .error _ => ⟨files, none, none, none⟩
  | .looking, .proceeds =>
    match files.lookup a.final with
    | none => ⟨files, some { a with phase := .opening }, none, none⟩
    | some (.file present) =>
      if hash present = hash a.data then ⟨files, some { a with phase := .committing }, none, none⟩
      else ⟨files, none, none, none⟩
    | some .directory => ⟨files, none, none, none⟩
  | .opening, .proceeds =>
    -- "wx": a temporary file that is left over is an error
    if (files.lookup temp).isSome then ⟨files, none, none, none⟩
    else ⟨writeFile files temp (.file []), some { a with phase := .writing }, none, none⟩
  | .writing, .proceeds =>
    match a.input.content with
    | .buffer data => ⟨appendFile files temp data, some { a with phase := .renaming }, none, none⟩
    | .stream => ⟨files, some a, none, none⟩
  | .writing, .chunk bytes =>
    match a.input.content with
    | .buffer _ => ⟨files, some a, none, none⟩
    | .stream => ⟨appendFile files temp bytes, some { a with data := a.data ++ bytes }, none, none⟩
  | .writing, .transferred size sha256 =>
    match a.input.content with
    | .buffer _ => ⟨files, some a, none, none⟩
    | .stream =>
      if size = a.data.length ∧ sha256 = hash a.data then
        ⟨files, some { a with phase := .renaming }, none, none⟩
      else a.abandon files pid
  | .renaming, .proceeds =>
    match files.lookup temp, files.lookup a.final with
    | none, _ | _, some .directory => a.abandon files pid
    | some node, _ =>
      ⟨writeFile (removeFile files temp) a.final node, some { a with phase := .committing }, none, none⟩
  | .committing, .proceeds =>
    if (files.lookup a.final).isSome then
      { files := files, next := none, committed := some (a.record hash now), returned := some (a.record hash now) }
    else a.abandon files pid
  | .writing, .fails | .renaming, .fails | .committing, .fails => a.abandon files pid
  | _, .fails => ⟨files, none, none, none⟩
  | _, _ => ⟨files, some a, none, none⟩

end Attempt

/-! ### Reconciliation -/

/-- The bytes under the path of the record are those of its digest. -/
def intact (files : Files) (item : Evidence) (path : Path) : Bool :=
  (Js.truthyText item.sha256).any fun sha256 => holds hash files path sha256 none

def sizeAt (files : Files) (path : Path) : ℕ :=
  match files.lookup path with
  | some (.file bytes) => bytes.length
  | _ => 0

/-- What is wrong with the file, or what the system says where there is none. -/
def integrityReason (files : Files) (unread : Path → String) (path : Path) : String :=
  match files.lookup path with
  | some (.file _) => "本地文件摘要与 Evidence 元数据不一致"
  | _ => unread path

/-- The record as `reconcileTask` writes it back. -/
def reconciled (files : Files) (unread : Path → String) (now : String) (item : Evidence) : Evidence :=
  match item.storagePath with
  | none => item
  | some path =>
    { item with metadata := spread item.metadata <|
        if intact hash files item path then
          [("artifactDigest", .str (item.sha256.getD "")), ("artifactSize", .num (sizeAt files path)),
            ("integrityStatus", .str "VERIFIED"), ("integrityCheckedAt", .str now)]
        else
          [("complete", .bool false), ("integrityStatus", .str "FAILED"),
            ("integrityReason", .str (integrityReason files unread path)), ("integrityCheckedAt", .str now)] }

end

/-! ### The machine -/

/-- The records in the database, the files, the attempts of the running process, how many ids have been drawn,
    and what has been returned to whom. -/
structure System where
  records : Table Evidence.evidenceId
  files : Files
  inFlight : List Attempt
  pid : String
  drawn : ℕ
  returned : List (EvidenceBinding × Evidence)

def System.empty : System := ⟨.empty, [], [], "", 0, []⟩

/-- The same tool call of the same task. -/
def SameCall (x y : EvidenceBinding) : Prop :=
  x.taskId = y.taskId ∧ (callOf x).isSome ∧ callOf x = callOf y

instance (x y : EvidenceBinding) : Decidable (SameCall x y) :=
  inferInstanceAs (Decidable (_ ∧ _ ∧ _))

/-- What is passed to `putStructured`. -/
structure StructuredInput extends EvidenceBinding where
  sha256 : Option String
  storagePath : Option Path

/-- The entries that a tool adds to the metadata of its evidence. -/
structure Annotation where
  entityVersionRef : String
  captureSourceRef : Option String
  artifactSubjectRef : Option String

def Annotation.entries (added : Annotation) : Payload :=
  ("entityVersionRef", .str added.entityVersionRef) ::
    (added.captureSourceRef.map fun ref => ("captureSourceRef", Json.str ref)).toList ++
    (added.artifactSubjectRef.map fun ref => ("artifactSubjectRef", Json.str ref)).toList

inductive Op where
  | begin (input : PutInput)
  | advance (position : ℕ) (now : String) (event : Event)
  | structured (input : StructuredInput)
  | annotate (evidenceId : String) (added : Annotation)
  /-- `reconcileTask`, which may be cut off after some of the records; `unread` is what the system says of a path
      that it cannot read a file from. -/
  | reconcile (taskId : DrawnId) (unread : Path → String) (now : String) (cut : Option ℕ)
  /-- The process ends, and another one starts. -/
  | crash (pid : String)
  /-- Something else changes a file. -/
  | tamper (path : Path) (node : Option Node)

section

variable (ids : EvidenceIds) (hash : Bytes → String)

/-- The id of a new record. -/
def newId (s : System) (binding : EvidenceBinding) : String :=
  match callOf binding with
  | some call => ids.createDeterministicId (evidenceSeed binding call)
  | none => ids.createId s.drawn

/-- An attempt of the call is under way. -/
def underWay (s : System) (binding : EvidenceBinding) : Bool :=
  s.inFlight.any fun a => SameCall a.input.toEvidenceBinding binding

def System.start (s : System) (attempt : Attempt) : System :=
  { s with inFlight := s.inFlight ++ [attempt], drawn := s.drawn + 1 }

def begin_ (s : System) (input : PutInput) : System :=
  if underWay s input.toEvidenceBinding then s
  else
    match findBoundEvidence s.records.rows input.toEvidenceBinding with
    | .error _ => s
    | .ok (some existing) => s.start ⟨input, existing.evidenceId, [], .verifying existing⟩
    | .ok none =>
      let evidenceId := newId ids s input.toEvidenceBinding
      match input.content with
      | .buffer data => s.start ⟨input, evidenceId, data, .looking⟩
      | .stream => s.start ⟨input, evidenceId, [], .opening⟩

def resume (s : System) (position : ℕ) (a : Attempt) (effect : Effect) : System where
  records := (effect.committed.map s.records.put).getD s.records
  files := effect.files
  inFlight := match effect.next with
    | some next => s.inFlight.set position next
    | none => s.inFlight.eraseIdx position
  pid := s.pid
  drawn := s.drawn
  returned := s.returned ++ (effect.returned.map fun item => (a.input.toEvidenceBinding, item)).toList

def structuredRecord (s : System) (input : StructuredInput) : Evidence :=
  { input with evidenceId := newId ids s input.toEvidenceBinding }

def putStructured (s : System) (input : StructuredInput) : System :=
  if underWay s input.toEvidenceBinding then s
  else
    match findBoundEvidence s.records.rows input.toEvidenceBinding with
    | .error _ => s
    | .ok (some existing) =>
      if (Js.truthyText input.sha256).all fun sha256 => existing.sha256 = some sha256 then
        { s with returned := s.returned ++ [(input.toEvidenceBinding, existing)] }
      else s
    | .ok none =>
      let item := structuredRecord ids s input
      { s with
        records := s.records.put item
        drawn := s.drawn + 1
        returned := s.returned ++ [(input.toEvidenceBinding, item)] }

def annotated (added : Annotation) (item : Evidence) : Evidence :=
  { item with metadata := spread item.metadata added.entries }

def listEvidence (s : System) (taskId : DrawnId) : List Evidence :=
  s.records.rows.filter fun item => item.taskId = taskId

/-- The records written back one by one. -/
def putAll (records : Table Evidence.evidenceId) (items : List Evidence) : Table Evidence.evidenceId :=
  items.foldl Table.put records

def reconcileTask (s : System) (taskId : DrawnId) (unread : Path → String) (now : String) (cut : Option ℕ) : System :=
  let items := match cut with
    | some n => (listEvidence s taskId).take n
    | none => listEvidence s taskId
  { s with records := putAll s.records (items.map (reconciled hash s.files unread now)) }

def step (s : System) : Op → System
  | .begin input => begin_ ids s input
  | .advance position now event =>
    match s.inFlight[position]? with
    | some a => resume s position a (a.advance hash s.files s.pid now event)
    | none => s
  | .structured input => putStructured ids s input
  | .annotate evidenceId added =>
    match s.records.get? evidenceId with
    | some item => { s with records := s.records.put (annotated added item) }
    | none => s
  | .reconcile taskId unread now cut => reconcileTask hash s taskId unread now cut
  | .crash pid => { s with inFlight := [], pid := pid }
  | .tamper path (some node) => { s with files := writeFile s.files path node }
  | .tamper path none => { s with files := removeFile s.files path }

def runOps (ops : List Op) : System := Runs.run (step ids hash) .empty ops

end

end HuntWarden.EvidenceStore
