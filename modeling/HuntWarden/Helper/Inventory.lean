import HuntWarden.Helper.Files
import HuntWarden.Lib.OrderedMap
import HuntWarden.Lib.Paging

/-! The collectors that page by themselves: processes by their pid, files along a walk of the directories,
    log records in the order in which they are read. Each visits a stretch of its entries, keeps the
    rows that the predicate accepts, and says how far it came. -/

namespace HuntWarden.Helper

open Outcome

def enumerateScanPageLimit : ℕ := 5000
def walkVisitLimit : ℕ := 200000
def walkMaxDepth : ℕ := 12
def deadlineWarning : String := "达到时间预算，结果不完整"
def skipUnreadable : String := "路径因权限或 I/O 错误被跳过"
def skipDepth : String := "目录因超过遍历深度上限被跳过"
def skipBoundary : String := "目录因跨越文件系统边界被跳过"
def skipSymlink : String := "符号链接目录被跳过"
def skipLogRecord : String := "日志行因无法解析时间被跳过"

structure SkipLedger where
  counts : List (String × ℕ) := []
  notes : List String := []
  expired : Bool := false

namespace SkipLedger

def add (ledger : SkipLedger) (reason : String) : SkipLedger :=
  { ledger with counts := OrderedMap.upsert reason (fun count => count.getD 0 + 1) ledger.counts }

def note (ledger : SkipLedger) (message : String) : SkipLedger :=
  if message ∈ ledger.notes then ledger else { ledger with notes := ledger.notes ++ [message] }

def expire (ledger : SkipLedger) : SkipLedger := { ledger with expired := true }

def partial_ (ledger : SkipLedger) : Bool :=
  !ledger.counts.isEmpty || !ledger.notes.isEmpty || ledger.expired

def warnings (ledger : SkipLedger) : List String :=
  (Paging.sortBy (fun a b => cmp a.1 b.1) ledger.counts).map (fun (reason, count) => s!"{count} 个{reason}") ++
    ledger.notes ++ if ledger.expired then [deadlineWarning] else []

end SkipLedger

/-- What a collector gives for one page. -/
structure Inventory where
  rows : List Payload
  warnings : List String
  partial_ : Bool
  scannedCount : ℕ
  matchedCount : ℕ
  nextOffset : ℕ
  upperBound : Option ℕ
  complete : Bool

/-- `row[name] = value` -/
def setField (name : String) (value : Json) (row : Payload) : Payload :=
  OrderedMap.upsert name (fun _ => value) row

/-- Without a predicate every row is wanted. -/
def accepts (namespace_ : NamespaceName) (predicate : Option Predicate) (row : Payload) :
    Except HelperError Bool :=
  match predicate with
  | none => .ok true
  | some predicate => v2_predicate namespace_ row predicate

/-- The row, if it is wanted. -/
def wanted (namespace_ : NamespaceName) (predicate : Option Predicate) (row : Payload) :
    Except HelperError (Option Payload) :=
  (accepts namespace_ predicate row).map fun keep => if keep then some row else none

variable (deadline : ℕ → Bool) (predicate : Option Predicate) (maximum : ℕ)

/-! ### Processes -/

/-- A directory of `/proc` and what can be read in it. `exeSha256` is read only on request, `mapsSummary`
    only for the rows of a page. -/
structure ProcessEntry where
  pid : ℕ
  stable : Except HelperError Payload
  exeSha256 : Except HelperError (Option String)
  mapsSummary : Json

def stable_process (entry : ProcessEntry) (includeHash : Bool) : Except HelperError Payload := do
  let digest ← if includeHash then entry.exeSha256 else .ok none
  let fields ← entry.stable
  return digest.elim fields fun digest => setField "exeSha256" (.str digest) fields

def transient_process_observation_error (error : HelperError) : Bool :=
  error.message ∈ ["process no longer exists", "process disappeared during collection"]

def processRow (value : Payload) : Payload :=
  setField "command" ((value.lookup "command").getD (fieldOf value "comm"))
    (setField "exe" (fieldOf value "exePath") value)

structure ProcessScan where
  rows : List Payload
  warnings : List String
  scanned : ℕ
  matched : ℕ
  nextPid : ℕ
  complete : Bool

/-- The loop over the directories in the order of their pids. -/
def scanProcesses (includeHash : Bool) : List ProcessEntry → ProcessScan → Except HelperError ProcessScan
  | [], s => .ok s
  | entry :: entries, s =>
    if enumerateScanPageLimit ≤ s.scanned then .ok { s with complete := false }
    else if deadline s.scanned then
      .ok { s with warnings := s.warnings ++ [deadlineWarning], complete := false }
    else
      let s := { s with scanned := s.scanned + 1, nextPid := entry.pid }
      match stable_process entry includeHash with
      | .error error =>
        scanProcesses includeHash entries
          (if transient_process_observation_error error then s
            else { s with warnings := s.warnings ++ [s!"PID {entry.pid}: {error.message}"] })
      | .ok value =>
        accepts .process predicate (processRow value) >>= fun keep =>
          if keep then
            let s := { s with rows := s.rows ++ [processRow value], matched := s.matched + 1 }
            if maximum ≤ s.rows.length then .ok { s with complete := false }
            else scanProcesses includeHash entries s
          else scanProcesses includeHash entries s

/-- The largest pid there is. -/
def lastPid (entries : List ProcessEntry) (start : ℕ) : ℕ :=
  if entries.isEmpty then start else (entries.map ProcessEntry.pid).foldr max 0

/-- The processes after one pid up to another, in order. -/
def processesBetween (entries : List ProcessEntry) (start upper : ℕ) : List ProcessEntry :=
  Paging.sortBy (fun a b => cmp a.pid b.pid)
    (entries.filter fun entry => start < entry.pid ∧ entry.pid ≤ upper)

def v2_process_inventory (entries : List ProcessEntry) (startAfterPid : ℕ) (includeHash : Bool)
    (upperBound : Option ℕ) : Except HelperError Inventory := do
  let upper := upperBound.getD (lastPid entries startAfterPid)
  let selected := processesBetween entries startAfterPid upper
  let s ← scanProcesses deadline predicate maximum includeHash selected {
    rows := [], warnings := [], scanned := 0, matched := 0, nextPid := startAfterPid, complete := true }
  return {
    rows := s.rows
    warnings := s.warnings.take 100
    partial_ := !s.warnings.isEmpty
    scannedCount := s.scanned
    matchedCount := s.matched
    nextOffset := s.nextPid
    upperBound := some upper
    complete := if selected.length = s.scanned then true else s.complete }

/-! ### Files -/

/-- A name in a directory that is no directory, as `lstat` and `v2_file_fields` see it; `replaced` is no
    regular file any more when its fields are read. -/
inductive FileEntry where
  | unreadable
  | special
  | replaced
  | regular (fields : Payload)

/-- What `lstat` says of a directory in a directory. -/
inductive SubdirectoryKind where
  | unreadable | symlink | boundary | plain
  deriving DecidableEq

mutual
/-- A directory as `os.walk` finds it. -/
inductive Tree where
  | unreadable
  | directory (files : List (String × FileEntry)) (subdirectories : Subdirectories)

inductive Subdirectories where
  | nil
  | cons (name : String) (kind : SubdirectoryKind) (tree : Tree) (rest : Subdirectories)
end

/-- What the walk comes across, one after the other. -/
inductive WalkEvent where
  | directory
  | skipped (reason : String)
  | file (entry : FileEntry)

/-- Why a directory at this depth is not entered. -/
def skipReason (depth : ℕ) (kind : SubdirectoryKind) : Option String :=
  match kind with
  | .unreadable => some skipUnreadable
  | .symlink => some (if walkMaxDepth < depth then skipDepth else skipSymlink)
  | .boundary => some (if walkMaxDepth < depth then skipDepth else skipBoundary)
  | .plain => if walkMaxDepth < depth then some skipDepth else none

mutual
/-- `os.walk` and the loops over a directory, in sorted order. -/
def walk (depth : ℕ) : Tree → List WalkEvent
  | .unreadable => [.skipped skipUnreadable]
  | .directory files subdirectories =>
    let below := Paging.sortBy (fun a b => cmp a.1 b.1) (walkSubdirectories (depth + 1) subdirectories)
    .directory :: below.filterMap (fun (_, reason, _) => reason.map .skipped) ++
      (Paging.sortBy (fun a b => cmp a.1 b.1) files).map (fun (_, entry) => .file entry) ++
      below.flatMap fun (_, reason, events) => if reason.isNone then events else []

def walkSubdirectories (depth : ℕ) : Subdirectories → List (String × Option String × List WalkEvent)
  | .nil => []
  | .cons name kind tree rest =>
    (name, skipReason depth kind, walk depth tree) :: walkSubdirectories depth rest
end

structure FileScan where
  ledger : SkipLedger
  rows : List Payload
  directories : ℕ
  visited : ℕ
  scanned : ℕ
  matched : ℕ
  complete : Bool

/-- One file that is not skipped. -/
def visitFile (entry : FileEntry) (s : FileScan) : Except HelperError FileScan :=
  match entry with
  | .unreadable => .ok { s with ledger := s.ledger.add skipUnreadable }
  | .special => .ok s
  | .replaced => .error (invalidArgument "file primitive only accepts regular files")
  | .regular facts =>
    (accepts .file predicate facts).map fun keep =>
      if keep then { s with matched := s.matched + 1, rows := s.rows ++ [facts] } else s

/-- The loop over the walk. -/
def scanFiles (startOffset : ℕ) : List WalkEvent → FileScan → Except HelperError FileScan
  | [], s => .ok s
  | .directory :: events, s =>
    if deadline s.directories then .ok { s with ledger := s.ledger.expire, complete := false }
    else scanFiles startOffset events { s with directories := s.directories + 1 }
  | .skipped reason :: events, s =>
    scanFiles startOffset events { s with ledger := s.ledger.add reason }
  | .file entry :: events, s =>
    let s := { s with visited := s.visited + 1 }
    if s.visited ≤ startOffset then scanFiles startOffset events s
    else if min walkVisitLimit enumerateScanPageLimit ≤ s.scanned then .ok { s with complete := false }
    else
      visitFile predicate entry { s with scanned := s.scanned + 1 } >>= fun s =>
        if maximum ≤ s.rows.length then .ok { s with complete := false }
        else scanFiles startOffset events s

/-- `root` is `none` when the root of the scope cannot be looked at any more. -/
def v2_file_inventory (root : Option Tree) (startOffset : ℕ) : Except HelperError Inventory :=
  match root with
  | none => .ok {
      rows := []
      warnings := (SkipLedger.add {} skipUnreadable).warnings
      partial_ := true
      scannedCount := 0
      matchedCount := 0
      nextOffset := startOffset
      upperBound := none
      complete := true }
  | some tree => do
    let s ← scanFiles deadline predicate maximum startOffset (walk 0 tree) {
      ledger := {}, rows := [], directories := 0, visited := 0, scanned := 0, matched := 0,
      complete := true }
    return {
      rows := s.rows
      warnings := s.ledger.warnings
      partial_ := s.ledger.partial_
      scannedCount := s.scanned
      matchedCount := s.matched
      nextOffset := startOffset + s.scanned
      upperBound := none
      complete := s.complete }

/-! ### Log events -/

structure LogRecord where
  timestamp : ℕ
  program : Option String
  pid : Option String
  auditType : Option String
  message : String

/-- What reading a log gives, line by line: a record, or something for the ledger; the deadline ends
    it. -/
inductive LogLine where
  | record (record : LogRecord)
  | unparsed
  | skipped (reason : String)
  | noted (message : String)
  | expired

/-- A file of the log set, by the name of its source. -/
structure LogFile where
  source : String
  lines : List LogLine

/-- The logs of the target. `journalctl` is what the program prints for a start and a number of lines;
    `setLines` is what listing the files has for the ledger. -/
structure LogSources where
  journalctl : Option (ℕ → ℕ → List LogLine)
  setLines : List LogLine
  files : List LogFile

/-- How the texts of a log event are made. -/
structure LogTexts where
  utc_iso : ℕ → String
  log_source_id : String → String
  log_event_cursor : String → String → Option String → String → String
  redact_secret_text : String → ℕ → String
  sha256 : String → String

def journalSource : String := "journald"
def journalMaxRecords : ℕ := 5000

def LogLine.isRecord : LogLine → Bool
  | .record _ => true
  | _ => false

/-- The lines for the ledger come before the records, none of which is older than `since`. -/
def journal_records (journalctl : ℕ → ℕ → List LogLine) (since : ℕ) : List LogLine :=
  let lines := journalctl since journalMaxRecords
  let records := lines.filter fun
    | .record record => since ≤ record.timestamp
    | _ => false
  lines.filter (fun line => !line.isRecord) ++
    (if journalMaxRecords ≤ records.length then
      [.noted s!"journald 读取达到 {journalMaxRecords} 条上限，更早事件未纳入"] else []) ++ records

/-- What the scan comes across: every file begins with a look at the deadline. -/
inductive LogEvent where
  | file
  | line (source : String) (line : LogLine)

def logEvents (sources : LogSources) (cutoff : ℕ) : List LogEvent :=
  (sources.journalctl.elim [] fun journalctl => journal_records journalctl cutoff).map
      (.line journalSource) ++
    sources.setLines.map (.line "") ++
    sources.files.flatMap fun file => .file :: file.lines.map (.line file.source)

variable (texts : LogTexts)

/-- `log_record_key` -/
def log_record_key (record : LogRecord) : ℕ × String × String :=
  (record.timestamp / 1000000, record.program.getD "", texts.sha256 record.message)

def logRow (source : String) (record : LogRecord) : Payload :=
  let timestamp := texts.utc_iso record.timestamp
  let present : Option String → Option String := fun value => value.filter (· ≠ "")
  [("sourceId", .str (texts.log_source_id source)),
   ("cursor", .str (texts.log_event_cursor source timestamp record.program record.message)),
   ("timestamp", .str timestamp),
   ("program", record.program.elim .null .str),
   ("message", .str (texts.redact_secret_text record.message 8192)),
   ("fields", .obj ((present record.pid).toList.map (fun pid => ("pid", .str pid)) ++
     (present record.auditType).toList.map fun type => ("auditType", .str type)))]

structure LogScan where
  ledger : SkipLedger
  rows : List Payload
  seen : List (ℕ × String × String)
  logicalOffset : ℕ
  scanned : ℕ
  matched : ℕ
  complete : Bool
  files : ℕ

/-- A record that is not skipped. -/
def absorb (source : String) (record : LogRecord) (s : LogScan) : Except HelperError LogScan :=
  (accepts .logEvent predicate (logRow texts source record)).map fun keep =>
    if keep then { s with rows := s.rows ++ [logRow texts source record], matched := s.matched + 1 } else s

/-- The loop over the lines. -/
def scanLog (startOffset cutoff : ℕ) : List LogEvent → LogScan → Except HelperError LogScan
  | [], s => .ok s
  | .file :: events, s =>
    if deadline s.files then
      .ok { s with ledger := s.ledger.expire, complete := s.scanned = 0 }
    else scanLog startOffset cutoff events { s with files := s.files + 1 }
  | .line _ .expired :: _, s =>
    .ok { s with ledger := s.ledger.expire, complete := s.scanned = 0 }
  | .line _ .unparsed :: events, s =>
    scanLog startOffset cutoff events { s with ledger := s.ledger.add skipLogRecord }
  | .line _ (.skipped reason) :: events, s =>
    scanLog startOffset cutoff events { s with ledger := s.ledger.add reason }
  | .line _ (.noted message) :: events, s =>
    scanLog startOffset cutoff events { s with ledger := s.ledger.note message }
  | .line source (.record record) :: events, s =>
    if record.timestamp < cutoff ∨ log_record_key texts record ∈ s.seen then
      scanLog startOffset cutoff events s
    else
      let s := { s with seen := log_record_key texts record :: s.seen }
      if s.logicalOffset < startOffset then
        scanLog startOffset cutoff events { s with logicalOffset := s.logicalOffset + 1 }
      else if enumerateScanPageLimit ≤ s.scanned ∨ maximum ≤ s.rows.length then
        .ok { s with complete := false }
      else
        absorb predicate texts source record
          { s with logicalOffset := s.logicalOffset + 1, scanned := s.scanned + 1 } >>= fun s =>
            if enumerateScanPageLimit ≤ s.scanned ∨ maximum ≤ s.rows.length then
              .ok { s with complete := false }
            else scanLog startOffset cutoff events s

/-- `v2_log_event_inventory`, for the window that begins at the cutoff. -/
def v2_log_event_inventory (sources : LogSources) (cutoff startOffset : ℕ) :
    Except HelperError Inventory := do
  let s ← scanLog deadline predicate maximum texts startOffset cutoff (logEvents sources cutoff) {
    ledger := {}, rows := [], seen := [], logicalOffset := 0, scanned := 0, matched := 0,
    complete := true, files := 0 }
  let warnings := if sources.journalctl.isNone ∧ sources.files = [] then
    ["通用日志数据源不可用：journald 与 syslog/messages 均不存在"] else []
  return {
    rows := s.rows
    warnings := (warnings ++ s.ledger.warnings).take 200
    partial_ := !warnings.isEmpty || s.ledger.partial_
    scannedCount := s.scanned
    matchedCount := s.matched
    nextOffset := startOffset + s.scanned
    upperBound := none
    complete := s.complete }

/-- The records in the window, each counted where it is first seen. -/
def distinctRecords (texts : LogTexts) (cutoff : ℕ) :
    List (ℕ × String × String) → List LogEvent → List (String × LogRecord)
  | _, [] => []
  | seen, .line source (.record record) :: events =>
    if record.timestamp < cutoff ∨ log_record_key texts record ∈ seen then
      distinctRecords texts cutoff seen events
    else (source, record) :: distinctRecords texts cutoff (log_record_key texts record :: seen) events
  | seen, _ :: events => distinctRecords texts cutoff seen events

end HuntWarden.Helper
