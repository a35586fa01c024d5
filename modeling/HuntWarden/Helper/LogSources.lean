import HuntWarden.Helper.LogMerge

/-! The log sources of a host and the events of its logs. What kind a source is of is told from its path, by
    tests that come one after the other; which logs a collector reads is told by patterns of names. The
    first characters of the names keep the patterns apart, and with them the kinds. -/

namespace HuntWarden.Helper.LogRelation

open Outcome

/-! ### Names of log files -/

/-- `glob` of one name, for patterns whose only wildcard is `*`. -/
def glob : List Char → List Char → Bool
  | [], name => name.isEmpty
  | c :: pattern, name =>
    if c = '*' then name.tails.any (glob pattern)
    else match name with
      | [] => false
      | d :: rest => c = d && glob pattern rest

def matchesAny (patterns : List String) (name : String) : Bool :=
  patterns.any fun pattern => glob pattern.toList name.toList

def logDirectory : String := "/var/log"
def auditLogDirectory : String := "/var/log/audit"

def authLogPatterns : List String :=
  ["auth.log", "auth.log.*", "secure", "secure-*", "secure.*", "sudo.log", "sudo.log.*", "sudo-io.log",
    "sudo-io.log.*"]

def loginDatabaseNames : List String := ["wtmp", "btmp"]

def auditLogPatterns : List String := ["audit.log", "audit.log.*"]

def systemLogPatterns : List String :=
  ["syslog", "syslog.*", "messages", "messages-*", "messages.*", "daemon.log", "daemon.log.*", "kern.log",
    "kern.log.*"]

/-- The servers, whose logs are in their directory and in the directories of their sites. -/
def webAccessLogPatterns : List (String × List String) :=
  [("nginx", ["access*.log", "access*.log.*"]), ("apache2", ["access*.log", "access*.log.*"]),
    ("httpd", ["access_log*"])]

def logFileLimit : ℕ := 20
def collectorLimit : ℕ := 5000

/-! ### The logs of a host -/

/-- A regular file that is no link; the name is the last part of its path. -/
structure LogFileOf (α : Type) where
  name : String
  plain : '/' ∉ name.toList
  records : List α

structure AuditLine where
  moment : ℕ
  text : String

/-- An access log, by the directory it is found in and the directory that this one is. -/
structure AccessLog where
  server : String × List String
  site : Option String
  resolved : String
  name : String
  plain : '/' ∉ name.toList
  known : server ∈ webAccessLogPatterns
  listed : matchesAny server.2 name = true

/-- A line of `last` that tells of a login. -/
structure LoginLine where
  moment : ℕ
  username : String
  address : Option String
  text : String

/-- A login database; a link to another file is read, but is no source. -/
structure LoginDatabase where
  name : String
  known : name ∈ loginDatabaseNames
  link : Option String
  lines : List LoginLine

structure TransportEntry extends JournalEntry where
  audit : Bool

structure JournalStore where
  path : String
  generation : String
  entries : List TransportEntry

/-- The logs of a host. `directory` and `auditDirectory` are what the directories resolve to; the files are
    listed the newest first. -/
structure LogTree where
  journal : Option JournalStore
  directory : String
  auditDirectory : String
  logs : List (LogFileOf LogRecord)
  audits : List (LogFileOf AuditLine)
  access : List AccessLog
  logins : List LoginDatabase
  generation : String → String

/-- How the texts of the events are made. -/
structure EventTexts extends AuthTexts where
  audit_field : String → String → Option String
  optional_integer : Json → Json
  str : Json → String

/-- A path in a directory. -/
def pathIn (directory name : String) : String := directory ++ "/" ++ name

def LogTree.log_file_set (tree : LogTree) (patterns : List String) : List (String × List LogRecord) :=
  ((tree.logs.filter fun file => matchesAny patterns file.name).take logFileLimit).map fun file =>
    (pathIn tree.directory file.name, file.records)

/-- `log_source_key` of a login database. -/
def LogTree.loginSource (tree : LogTree) (database : LoginDatabase) : String :=
  database.link.getD (pathIn tree.directory database.name)

section Collectors

variable (texts : EventTexts) (tree : LogTree)

def loginRow (source name : String) (line : LoginLine) : Payload :=
  let failed := name = "btmp"
  let timestamp := texts.utc_iso line.moment
  [("timestamp", .str timestamp),
   ("eventType", .str (if failed then "authentication_failure" else "session_login")),
   ("username", .str line.username), ("sourceAddress", line.address.elim .null .str), ("program", .str name),
   ("success", .bool !failed), ("source", .str source), ("sourceId", .str (texts.log_source_id source)),
   ("cursor", .str (texts.log_event_cursor source timestamp (some name) line.text))]

/-- The rows of `binary_login_events`, before their number is limited. -/
def binary_login_events (cutoff : ℕ) : List LoginEvent :=
  tree.logins.flatMap fun database =>
    (database.lines.filter fun line => decide (cutoff ≤ line.moment)).map fun line =>
      let row := loginRow texts (tree.loginSource database) database.name line
      { moment := line.moment
        sourceId := texts.log_source_id (tree.loginSource database)
        cursor := texts.log_event_cursor (tree.loginSource database) (texts.utc_iso line.moment)
          (some database.name) line.text
        row }

/-- The logs as the collectors of log and authentication events read them. -/
def LogTree.host (cutoff : ℕ) : HostLogs where
  journal := tree.journal.map fun store => store.entries.map (·.toJournalEntry)
  files := tree.log_file_set (systemLogPatterns ++ authLogPatterns)
  authFiles := tree.log_file_set authLogPatterns
  logins := binary_login_events texts tree cutoff

def audit_exec_event (text : String) (moment : ℕ) (source : String) : Payload :=
  let field : String → Json := fun name => (texts.audit_field text name).elim .null .str
  let timestamp := texts.utc_iso moment
  let comm := texts.redact_secret_text ((texts.audit_field text "comm").getD "") 256
  [("timestamp", .str timestamp), ("eventType", .str "process_exec"), ("pid", field "pid"),
   ("ppid", field "ppid"), ("uid", field "uid"), ("auid", field "auid"), ("comm", .str comm),
   ("exe", .str (texts.redact_secret_text ((texts.audit_field text "exe").getD "") 4096)),
   ("source", .str source), ("sourceId", .str (texts.log_source_id source)),
   ("cursor", .str (texts.log_event_cursor source timestamp (some comm) text))]

/-- A record of a system call: the text, its time and its source. -/
structure ExecRecord where
  text : String
  moment : ℕ
  source : String

/-- `key` of `absorb` in `query_exec_events`. -/
def execKey (record : ExecRecord) : String × String × String × String :=
  (texts.utc_iso record.moment, (texts.audit_field record.text "pid").getD "",
    texts.redact_secret_text ((texts.audit_field record.text "comm").getD "") 256,
    texts.redact_secret_text ((texts.audit_field record.text "exe").getD "") 4096)

structure ExecCollection where
  seen : List (String × String × String × String)
  collected : List ExecRecord
  limited : Bool

def absorbExec (ceiling cutoff : ℕ) (s : ExecCollection) (record : ExecRecord) : ExecCollection :=
  if s.limited ∨ record.moment < cutoff then s
  else if s.seen.contains (execKey texts record) then s
  else
    { seen := execKey texts record :: s.seen, collected := s.collected ++ [record]
      limited := ceiling ≤ s.collected.length + 1 }

def isSyscall (record : LogRecord) : Bool :=
  record.auditType = some "SYSCALL" ∨ "SYSCALL".toList <+: record.message.toList ∨
    occursIn "type=SYSCALL" record.message

/-- The audit logs, then what the journal has of the audit transport. -/
def execStream (cutoff maximum : ℕ) : List ExecRecord :=
  ((tree.audits.filter fun file => matchesAny auditLogPatterns file.name).take logFileLimit).flatMap (fun file =>
      (file.records.filter fun line => occursIn "type=SYSCALL" line.text).map fun line =>
        ⟨line.text, line.moment, pathIn tree.auditDirectory file.name⟩) ++
    tree.journal.elim [] fun store =>
      ((journalRecords ((store.entries.filter (·.audit)).map (·.toJournalEntry)) (fun _ => true) cutoff
        maximum).filter fun entry => isSyscall entry.2).map fun entry =>
          ⟨entry.2.message, entry.2.timestamp, entry.1⟩

def collectExec (cutoff maximum : ℕ) : List ExecRecord :=
  ((execStream tree cutoff maximum).foldl (absorbExec texts (eventCeiling maximum) cutoff)
    ⟨[], [], false⟩).collected

def query_exec_events (cutoff maximum : ℕ) : List Payload :=
  latestItems maximum ((collectExec texts tree cutoff maximum).map fun record =>
    (record.moment, audit_exec_event texts record.text record.moment record.source))

/-- `v2_event_row` -/
def v2_event_row (namespace_ : NamespaceName) (value : Payload) : Payload :=
  let row := ["sourceId", "cursor", "timestamp"].map fun name => (name, fieldOf value name)
  match namespace_ with
  | .logEvent => row ++ [("program", fieldOf value "program"), ("message", fieldOf value "message"),
      ("fields", if fieldOf value "fields" = .null then .obj [] else fieldOf value "fields")]
  | .authEvent => row ++ [("eventType", (value.lookup "eventType").getD (.str "auth")),
      ("username", fieldOf value "username"), ("sourceAddress", fieldOf value "sourceAddress"),
      ("program", fieldOf value "program"), ("success", fieldOf value "success")]
  | _ => row ++ [("pid", texts.optional_integer (fieldOf value "pid")),
      ("uid", texts.optional_integer (fieldOf value "uid")),
      ("executable", (value.lookup "executable").getD (fieldOf value "exe")),
      ("arguments", fieldOf value "arguments"), ("cwd", fieldOf value "cwd")]

/-- `v2_query_events` -/
def v2_query_events (cutoff maximum : ℕ) : NamespaceName → List Payload
  | .logEvent => query_log_events texts.toLogTexts (tree.host texts cutoff) cutoff maximum
  | .authEvent => query_auth_events texts.toAuthTexts (tree.host texts cutoff) cutoff maximum
  | _ => query_exec_events texts tree cutoff maximum

end Collectors

/-! ### Sources -/

inductive SourceKind where
  | journald | loginDb | audit | webAccess | auth | system
  deriving DecidableEq, Repr

def SourceKind.name : SourceKind → String
  | .journald => "journald"
  | .loginDb => "login_db"
  | .audit => "audit"
  | .webAccess => "web_access"
  | .auth => "auth"
  | .system => "system"

/-- `LOG_SOURCE_EVENT_KINDS`, nothing for a kind without an entry. -/
def logSourceEventKinds : SourceKind → List NamespaceName
  | .journald => [.logEvent, .authEvent, .execEvent]
  | .auth => [.authEvent, .logEvent]
  | .audit => [.execEvent]
  | .system => [.logEvent]
  | .webAccess | .loginDb => []

/-- A path that the patterns find, as it is found and as it resolves. -/
structure SourceFile where
  raw : String
  directory : String
  name : String

def SourceFile.path (file : SourceFile) : String := pathIn file.directory file.name

def beginsWith (start text : String) : Bool := start.toList <+: text.toList

def sourceKind (file : SourceFile) : SourceKind :=
  if loginDatabaseNames.contains file.name then .loginDb
  else if occursIn "/audit/" file.raw then .audit
  else if occursIn "access" file.name then .webAccess
  else if ["auth", "secure", "sudo"].any fun start => beginsWith start file.name then .auth
  else .system

structure SourceRow where
  sourceId : String
  generation : String
  kind : SourceKind
  path : String

section Relation

variable (texts : EventTexts) (tree : LogTree)

def AccessLog.directory (file : AccessLog) : String :=
  let server := pathIn logDirectory file.server.1
  file.site.elim server (pathIn server)

/-- The files that the patterns of all logs find. -/
def sourceFiles : List SourceFile :=
  ((tree.logs.filter fun file => matchesAny (systemLogPatterns ++ authLogPatterns) file.name).map fun file =>
      ⟨pathIn logDirectory file.name, tree.directory, file.name⟩) ++
    ((tree.audits.filter fun file => matchesAny auditLogPatterns file.name).map fun file =>
      ⟨pathIn auditLogDirectory file.name, tree.auditDirectory, file.name⟩) ++
    (tree.access.map fun file => ⟨pathIn file.directory file.name, file.resolved, file.name⟩) ++
    (tree.logins.filter fun database => database.link.isNone).map fun database =>
      ⟨pathIn logDirectory database.name, tree.directory, database.name⟩

def sourceRow (file : SourceFile) : SourceRow where
  sourceId := texts.log_source_id file.path
  generation := tree.generation file.raw
  kind := sourceKind file
  path := file.path

def v2_journal_source_row (store : JournalStore) : SourceRow where
  sourceId := texts.log_source_id journalSource
  generation := store.generation
  kind := .journald
  path := store.path

/-- `v2_log_source_rows`: the journal, then the files by their paths. -/
def v2_log_source_rows : List SourceRow :=
  ((tree.journal.map (v2_journal_source_row texts)).toList ++
    (Paging.sortBy (fun a b => cmp a.raw b.raw) (sourceFiles tree)).map (sourceRow texts tree)).take collectorLimit

/-- What the relation is asked of. -/
structure ContainsRequest where
  identity : Payload
  locator : Payload

structure RelationGap where
  code : String
  detail : String
  resumable : Bool
  deriving DecidableEq

structure Contained where
  current : SourceRow
  rows : List (NamespaceName × Payload)
  gaps : List RelationGap

def isStr : Json → Bool
  | .str _ => true
  | _ => false

def sourceChangedGap : RelationGap where
  code := "SOURCE_CHANGED"
  detail := "日志源 generation 已推进；关系按当前源内容执行并绑定原请求引用"
  resumable := false

def unavailableGap (kind : SourceKind) : RelationGap where
  code := "CAPABILITY_UNAVAILABLE"
  detail := s!"日志源类型 {kind.name} 不产生 log_event/auth_event/exec_event 事实"
  resumable := false

/-- The order of the rows of a relation: the namespace, then the texts of the identity. -/
def relationKey (row : NamespaceName × Payload) : List String :=
  row.1.name :: (v2IdentityFields row.1).map fun name => texts.str ((row.2.lookup name).getD (.str ""))

/-- The events of one namespace that the relation keeps. -/
def relatedRows (cutoff : ℕ) (sourceId : Json) (target : NamespaceName) : List (NamespaceName × Payload) :=
  ((v2_query_events texts tree cutoff collectorLimit target).filter fun value =>
    fieldOf value "sourceId" = sourceId).map fun value => (target, v2_event_row texts target value)

/-- `v2_relate` of a log source and `contains`, before its page is cut out. -/
def relate_contains (cutoff : ℕ) (request : ContainsRequest) : Except HelperError Contained := do
  let sourceId := fieldOf request.identity "sourceId"
  let generation := fieldOf request.identity "generation"
  let path := fieldOf request.locator "path"
  require (isStr sourceId && isStr generation)
    ⟨.invalidArgument, "log_source relation requires sourceId and generation"⟩
  match (v2_log_source_rows texts tree).find? fun source => .str source.sourceId = sourceId with
  | none => .error ⟨.staleRef, "log_source object no longer exists"⟩
  | some observed =>
    require (path = .null ∨ path = .str observed.path)
      ⟨.staleRef, "log_source path no longer matches the bound source"⟩
    let wanted := logSourceEventKinds observed.kind
    let rows := wanted.flatMap (relatedRows texts tree cutoff sourceId)
    return {
      current := { observed with generation := texts.str generation }
      rows := Paging.sortBy (fun a b => cmp (relationKey texts a) (relationKey texts b)) rows
      gaps := (if .str observed.generation = generation then [] else [sourceChangedGap]) ++
        if wanted = [] then [unavailableGap observed.kind] else [] }

end Relation

variable {tree : LogTree}

/-! ### Names -/

/-- A name begins like the pattern that finds it, as far as there is no wildcard. -/
theorem glob_begins : ∀ {start pattern name : List Char}, '*' ∉ start → start <+: pattern →
    glob pattern name = true → start <+: name
  | [], _, name, _, _, _ => List.nil_prefix
  | c :: start, pattern, name, hstart, hpattern, h => by
      obtain ⟨rest, rfl⟩ := hpattern
      rw [List.mem_cons, not_or] at hstart
      rw [List.cons_append] at h
      cases name with
      | nil =>
        rw [glob, if_neg fun heq => hstart.1 heq.symm] at h
        cases h
      | cons d name =>
        rw [glob, if_neg fun heq => hstart.1 heq.symm] at h
        obtain ⟨hd, hrest⟩ := Bool.and_eq_true_iff.1 h
        obtain rfl := of_decide_eq_true hd
        exact List.cons_prefix_cons.2 ⟨rfl, glob_begins hstart.2 (List.prefix_append ..) hrest⟩

/-- The first three characters tell the logs apart. -/
def front (name : String) : List Char := name.toList.take 3

/-- The patterns begin with three characters that are no wildcards. -/
def Fronted (patterns : List String) : Bool :=
  patterns.all fun pattern => decide (3 ≤ pattern.toList.length) && !(front pattern).contains '*'

theorem front_of_matches {patterns : List String} {name : String} (hpatterns : Fronted patterns = true)
    (h : matchesAny patterns name = true) : front name ∈ patterns.map front := by
  obtain ⟨pattern, hpattern, hglob⟩ := List.any_eq_true.1 h
  obtain ⟨hlength, hplain⟩ := Bool.and_eq_true_iff.1 (List.all_eq_true.1 hpatterns pattern hpattern)
  have hstar : '*' ∉ front pattern := fun hmem => by
    rw [List.contains_iff_mem.2 hmem] at hplain
    cases hplain
  obtain ⟨rest, hrest⟩ := glob_begins hstar (List.take_prefix ..) hglob
  have htake : (front pattern).length = 3 := List.length_take_of_le (of_decide_eq_true hlength)
  have hname : front name = (front pattern ++ rest).take 3 := congrArg (List.take 3) hrest.symm
  rw [← htake, List.take_left] at hname
  exact List.mem_map.2 ⟨pattern, hpattern, hname.symm⟩

theorem toList_pathIn (directory name : String) :
    (pathIn directory name).toList = directory.toList ++ '/' :: name.toList := by
  rw [pathIn, String.toList_append, String.toList_append, List.append_assoc]
  rfl

/-- What stands behind the last mark is told by the whole. -/
theorem rest_of_append {xs ys n m : List Char} (hn : '/' ∉ n) (hm : '/' ∉ m)
    (h : xs ++ '/' :: n = ys ++ '/' :: m) : n = m := by
  rcases List.append_eq_append_iff.1 h with ⟨mid, -, hrest⟩ | ⟨mid, -, hrest⟩
  · cases mid with
    | nil => exact (List.cons.inj hrest).2
    | cons c mid =>
      exact absurd ((List.cons.inj hrest).2 ▸ List.mem_append_right _ List.mem_cons_self) hn
  · cases mid with
    | nil => exact (List.cons.inj hrest).2.symm
    | cons c mid =>
      exact absurd ((List.cons.inj hrest).2 ▸ List.mem_append_right _ List.mem_cons_self) hm

/-- Paths that are one have one name. -/
theorem name_of_path {d e n m : String} (hn : '/' ∉ n.toList) (hm : '/' ∉ m.toList)
    (h : pathIn d n = pathIn e m) : n = m := by
  have hlist := congrArg String.toList h
  rw [toList_pathIn, toList_pathIn] at hlist
  exact String.toList_inj.1 (rest_of_append hn hm hlist)

theorem path_ne_journal {d n : String} : pathIn d n ≠ journalSource := fun h => by
  have hmem : '/' ∈ journalSource.toList := by
    rw [← h, toList_pathIn]
    exact List.mem_append_right _ List.mem_cons_self
  exact absurd hmem (by decide)

/-- A name in the directory of the logs makes no path through a directory of audit logs. -/
theorem not_audit_path {name : String} (hplain : '/' ∉ name.toList) :
    occursIn "/audit/" (pathIn logDirectory name) = false := by
  refine decide_eq_false fun ⟨before, after, hsplit⟩ => ?_
  rw [toList_pathIn] at hsplit
  have hlist : before ++ '/' :: ('a' :: 'u' :: 'd' :: 'i' :: 't' :: '/' :: after) =
      '/' :: 'v' :: 'a' :: 'r' :: '/' :: 'l' :: 'o' :: 'g' :: '/' :: name.toList := by
    rw [List.append_assoc] at hsplit
    exact hsplit
  -- the second mark would stand six places behind the first
  match before, hlist with
  | [], h => cases (List.cons.inj (List.cons.inj h).2).1
  | [_], h => cases (List.cons.inj (List.cons.inj h).2).1
  | [_, _], h => cases (List.cons.inj (List.cons.inj (List.cons.inj h).2).2).1
  | _ :: _ :: _ :: rest, h =>
    have hrest : (rest ++ ['/', 'a', 'u', 'd', 'i', 't']) ++ '/' :: after =
        ['r', '/', 'l', 'o', 'g', '/'] ++ name.toList := by
      rw [List.append_assoc]
      exact (List.cons.inj (List.cons.inj (List.cons.inj h).2).2).2
    rcases List.append_eq_append_iff.1 hrest with ⟨mid, hlong, htail⟩ | ⟨mid, -, htail⟩
    · have hlength := congrArg List.length hlong
      rw [List.length_append, List.length_append, List.length_cons, List.length_cons] at hlength
      obtain rfl : mid = [] := List.length_eq_zero_iff.1 (by simp at hlength; omega)
      rw [List.nil_append] at htail
      exact hplain (htail ▸ List.mem_cons_self)
    · exact hplain (htail ▸ List.mem_append_right _ List.mem_cons_self)

theorem audit_path (name : String) : occursIn "/audit/" (pathIn auditLogDirectory name) = true := by
  refine decide_eq_true ⟨"/var/log".toList, name.toList, ?_⟩
  rw [toList_pathIn]
  exact List.append_assoc ..

/-! ### The kinds of the sources -/

/-- No text of the one list is in the other. -/
def apart (xs ys : List (List Char)) : Bool := xs.all fun x => !ys.contains x

theorem not_mem_of_apart {xs ys : List (List Char)} {x : List Char} (h : apart xs ys = true) (hx : x ∈ xs) :
    x ∉ ys := fun hy => by
  have hnot := List.all_eq_true.1 h x hx
  rw [List.contains_iff_mem.2 hy] at hnot
  cases hnot

def logPatterns : List String := systemLogPatterns ++ authLogPatterns

/-- Every pattern begins with one of the texts. -/
def BeginWith (starts patterns : List String) : Bool :=
  patterns.all fun pattern => starts.any fun start =>
    !start.toList.contains '*' && start.toList.isPrefixOf pattern.toList

theorem begins_of_matches {starts patterns : List String} {name : String}
    (hstarts : BeginWith starts patterns = true) (h : matchesAny patterns name = true) :
    (starts.any fun start => beginsWith start name) = true := by
  obtain ⟨pattern, hpattern, hglob⟩ := List.any_eq_true.1 h
  obtain ⟨start, hstart, hbegins⟩ := List.any_eq_true.1 (List.all_eq_true.1 hstarts pattern hpattern)
  obtain ⟨hplain, hbegins⟩ := Bool.and_eq_true_iff.1 hbegins
  have hstar : '*' ∉ start.toList := fun hmem => by
    rw [List.contains_iff_mem.2 hmem] at hplain
    cases hplain
  exact List.any_eq_true.2 ⟨start, hstart,
    decide_eq_true (glob_begins hstar (List.isPrefixOf_iff_prefix.1 hbegins) hglob)⟩

theorem log_of_auth {name : String} (h : matchesAny authLogPatterns name = true) :
    matchesAny logPatterns name = true := by
  obtain ⟨pattern, hpattern, hglob⟩ := List.any_eq_true.1 h
  exact List.any_eq_true.2 ⟨pattern, List.mem_append_right _ hpattern, hglob⟩

/-- How a file is found. -/
inductive Found (tree : LogTree) (file : SourceFile) : Prop where
  | log (raw : file.raw = pathIn logDirectory file.name) (matched : matchesAny logPatterns file.name = true)
  | audit (raw : file.raw = pathIn auditLogDirectory file.name)
      (matched : matchesAny auditLogPatterns file.name = true)
  | access (matched : beginsWith "access" file.name = true)
  | login (known : file.name ∈ loginDatabaseNames)

theorem access_begins (file : AccessLog) : beginsWith "access" file.name = true := by
  have hservers : (webAccessLogPatterns.all fun server => BeginWith ["access"] server.2) = true := rfl
  have hbegins := begins_of_matches (List.all_eq_true.1 hservers _ file.known) file.listed
  rw [List.any_cons, List.any_nil, Bool.or_false] at hbegins
  exact hbegins

theorem access_front {name : String} (h : beginsWith "access" name = true) : front name = ['a', 'c', 'c'] := by
  obtain ⟨rest, hrest⟩ := of_decide_eq_true h
  rw [front, ← hrest]
  rfl

theorem login_plain {name : String} (h : name ∈ loginDatabaseNames) : '/' ∉ name.toList := by
  rcases List.mem_cons.1 h with rfl | h
  · decide
  · obtain rfl := List.mem_singleton.1 h
    decide

theorem found_of_mem {file : SourceFile} (h : file ∈ sourceFiles tree) :
    '/' ∉ file.name.toList ∧ Found tree file := by
  rcases List.mem_append.1 h with h | h
  · rcases List.mem_append.1 h with h | h
    · rcases List.mem_append.1 h with h | h
      · obtain ⟨log, hlog, rfl⟩ := List.mem_map.1 h
        exact ⟨log.plain, .log rfl (List.mem_filter.1 hlog).2⟩
      · obtain ⟨log, hlog, rfl⟩ := List.mem_map.1 h
        exact ⟨log.plain, .audit rfl (List.mem_filter.1 hlog).2⟩
    · obtain ⟨log, -, rfl⟩ := List.mem_map.1 h
      exact ⟨log.plain, .access (access_begins log)⟩
  · obtain ⟨database, -, rfl⟩ := List.mem_map.1 h
    exact ⟨login_plain database.known, .login database.known⟩

theorem log_front {name : String} (h : matchesAny logPatterns name = true) :
    front name ∈ logPatterns.map front := front_of_matches rfl h

theorem audit_front {name : String} (h : matchesAny auditLogPatterns name = true) :
    front name ∈ auditLogPatterns.map front := front_of_matches rfl h

theorem login_front {name : String} (h : name ∈ loginDatabaseNames) :
    front name ∈ loginDatabaseNames.map front := List.mem_map_of_mem h

/-- A file of the name of a log stands in the directory of the logs. -/
theorem raw_of_log {file : SourceFile} (h : file ∈ sourceFiles tree)
    (hmatch : matchesAny logPatterns file.name = true) : file.raw = pathIn logDirectory file.name := by
  have hfront := log_front hmatch
  cases (found_of_mem h).2 with
  | log raw _ => exact raw
  | audit _ matched => exact absurd hfront (not_mem_of_apart rfl (audit_front matched))
  | access matched =>
    have haccess : apart [['a', 'c', 'c']] (logPatterns.map front) = true := rfl
    exact absurd hfront (not_mem_of_apart haccess (List.mem_singleton.2 (access_front matched)))
  | login known => exact absurd hfront (not_mem_of_apart rfl (login_front known))

theorem contains_login {name : String} (h : front name ∉ loginDatabaseNames.map front) :
    ¬ loginDatabaseNames.contains name = true := fun hmem =>
  h (login_front (List.contains_iff_mem.1 hmem))

/-- A log is one of accesses, of authentications or of the system; the last are no logs of authentications. -/
theorem kind_of_log {file : SourceFile} (h : file ∈ sourceFiles tree)
    (hmatch : matchesAny logPatterns file.name = true) :
    sourceKind file = .webAccess ∨ sourceKind file = .auth ∨
      sourceKind file = .system ∧ matchesAny authLogPatterns file.name = false := by
  have hlogin := contains_login (not_mem_of_apart rfl (log_front hmatch))
  have haudit : ¬ occursIn "/audit/" file.raw = true := by
    rw [raw_of_log h hmatch, not_audit_path (found_of_mem h).1]
    exact Bool.false_ne_true
  rw [sourceKind, if_neg hlogin, if_neg haudit]
  by_cases haccess : occursIn "access" file.name = true
  · exact Or.inl (if_pos haccess)
  · rw [if_neg haccess]
    by_cases hauth : (["auth", "secure", "sudo"].any fun start => beginsWith start file.name) = true
    · exact Or.inr (Or.inl (if_pos hauth))
    · exact Or.inr (Or.inr ⟨if_neg hauth, Bool.eq_false_iff.2 fun hmatch => hauth (begins_of_matches rfl hmatch)⟩)

theorem kind_of_audit {file : SourceFile} (h : file ∈ sourceFiles tree)
    (hmatch : matchesAny auditLogPatterns file.name = true) : sourceKind file = .audit := by
  have hfront := audit_front hmatch
  have hlogin := contains_login (not_mem_of_apart rfl hfront)
  rw [sourceKind, if_neg hlogin]
  refine if_pos ?_
  cases (found_of_mem h).2 with
  | log _ matched => exact absurd hfront (not_mem_of_apart rfl (log_front matched))
  | audit raw _ =>
    rw [raw]
    exact audit_path _
  | access matched =>
    have haccess : apart [['a', 'c', 'c']] (auditLogPatterns.map front) = true := rfl
    exact absurd hfront (not_mem_of_apart haccess (List.mem_singleton.2 (access_front matched)))
  | login known => exact absurd hfront (not_mem_of_apart rfl (login_front known))

theorem sourceKind_ne_journald (file : SourceFile) : sourceKind file ≠ .journald := by
  rw [sourceKind]
  split
  · exact SourceKind.noConfusion
  · split
    · exact SourceKind.noConfusion
    · split
      · exact SourceKind.noConfusion
      · split <;> exact SourceKind.noConfusion

/-- Only a log may be one of authentications. -/
theorem kind_ne_auth {file : SourceFile} (h : file ∈ sourceFiles tree)
    (hmatch : matchesAny logPatterns file.name = false) : sourceKind file ≠ .auth := by
  rw [sourceKind]
  split
  · exact SourceKind.noConfusion
  next hlogin =>
  split
  · exact SourceKind.noConfusion
  next haudit =>
  refine ne_of_eq_of_ne (if_pos ?_) SourceKind.noConfusion
  cases (found_of_mem h).2 with
  | log _ matched =>
    rw [hmatch] at matched
    cases matched
  | audit raw _ =>
    rw [raw, audit_path] at haudit
    exact absurd rfl haudit
  | access matched => exact decide_eq_true (of_decide_eq_true matched).isInfix
  | login known => exact absurd (List.contains_iff_mem.2 known) hlogin

end HuntWarden.Helper.LogRelation
