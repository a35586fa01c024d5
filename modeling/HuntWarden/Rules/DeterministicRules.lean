import HuntWarden.Assessments.Validation
import HuntWarden.Playbooks.Registry

/-! The deterministic rules: what they match in the payload of a fact, and what they say of it. The reference
    of a rule opens every rationale it writes, and no reference opens another one's. -/

namespace HuntWarden.Rules

open Playbooks

inductive RuleVerdict where
  | suspicious | highlySuspicious
  deriving DecidableEq, Repr

def RuleVerdict.verdict : RuleVerdict → AssessmentVerdict
  | .suspicious => .suspicious
  | .highlySuspicious => .highlySuspicious

structure V2Rule where
  ruleId : String
  version : String
  category : CheckCategory
  namespace_ : NamespaceName
  verdict : RuleVerdict
  severity : Severity
  confidence : ℚ
  matches_ : Payload → Bool
  rationale : Payload → String

/-- `${rule.ruleId}@${rule.version}:` -/
def V2Rule.ruleRef (rule : V2Rule) : String := rule.ruleId ++ "@" ++ rule.version ++ ":"

def startsWith (text opening : String) : Bool := opening.toList.isPrefixOf text.toList

/-- Neither of two references opens the other. -/
def Apart (a b : String) : Prop := startsWith a b = false ∧ startsWith b a = false

instance (a b : String) : Decidable (Apart a b) := inferInstanceAs (Decidable (_ ∧ _))

theorem Apart.symm {a b : String} (h : Apart a b) : Apart b a := And.symm h

/-- Rules whose references can be told apart in a rationale. -/
structure Registry where
  rules : List V2Rule
  separate : (rules.map V2Rule.ruleRef).Pairwise Apart

/-! ### Patterns -/

/-- What follows each whole word of the text that is one of the words. -/
def afterWords (words : List String) : Option Char → List Char → List (List Char)
  | _, [] => []
  | before, ch :: rest =>
    (if before.all (!isWord ·) then
      words.filterMap fun word =>
        if word.toList.isPrefixOf (ch :: rest) && wordEnds ((ch :: rest).drop word.length).head? then
          some ((ch :: rest).drop word.length)
        else none
    else []) ++ afterWords words (some ch) rest

def isLineEnd (ch : Char) : Bool := ch.toNat ∈ [0x0A, 0x0D, 0x2028, 0x2029]

/-- What is left of a text behind `.*` -/
def behindAny : List Char → List (List Char)
  | [] => [[]]
  | ch :: rest => (ch :: rest) :: if isLineEnd ch then [] else behindAny rest

/-- `\\s*` and one of the words. -/
def spacedWord (words : List String) (after : Option Char → Bool) (text : List Char) : Bool :=
  startsWithOne words after (text.dropWhile Js.isSpace)

def lower (text : String) : List Char := text.toList.map Char.toLower

/-- `/\\b(?:curl|wget)\\b.*(?:\\||&&|;)\\s*(?:ba|z|da)?sh\\b/i` -/
def downloadsIntoShell (command : String) : Bool :=
  (afterWords ["curl", "wget"] none (lower command)).any fun rest =>
    (behindAny rest).any fun text => ["|", "&&", ";"].any fun separator =>
      separator.toList.isPrefixOf text &&
        spacedWord ["bash", "zsh", "dash", "sh"] wordEnds (text.drop separator.length)

/-- Behind white space the given character stands. -/
def spacedChar (ch : Char) (text : List Char) : Option (List Char) :=
  match text.dropWhile Js.isSpace with
  | [] => none
  | found :: rest => if found = ch then some rest else none

/-- One of the words opens the text, whatever follows it. -/
def wordsOpening (word : String) : Option Char → List Char → List (List Char)
  | _, [] => []
  | before, ch :: rest =>
    (if before.all (!isWord ·) && word.toList.isPrefixOf (ch :: rest) then
      [(ch :: rest).drop word.length] else []) ++ wordsOpening word (some ch) rest

/-- `/\\bNOPASSWD\\s*:\\s*ALL(?:\\s|$)/i` -/
def grantsAllWithoutPassword (statement : String) : Bool :=
  (wordsOpening "nopasswd" none (lower statement)).any fun rest =>
    (spacedChar ':' rest).any fun text =>
      spacedWord ["all"] (fun next => next.all Js.isSpace) text

def tempRoots : List String := ["/tmp/", "/var/tmp/", "/dev/shm/"]

/-- `["/tmp/", …].some((prefix) => path.startsWith(prefix))` -/
def inTempRoot (path : String) : Bool := tempRoots.any (startsWith path)

/-- `/(?:\\/tmp\\/|\\/var\\/tmp\\/|\\/dev\\/shm\\/)/` -/
def namesTempRoot (text : String) : Bool := matches_ (fun _ => true) tempRoots anything text

/-- `/(?:^|\\s)(?:\\/tmp\\/|\\/var\\/tmp\\/|\\/dev\\/shm\\/)/` -/
def startsInTempRoot (text : String) : Bool := matches_ Js.isSpace tempRoots anything text

/-! ### The rules -/

variable (t : Texts)

/-- `Number(payload.uid)` -/
def uid (payload : Payload) : Option ℚ := (field payload "uid").bind (Js.toNumber t.coercions)

def privilegedGroups : List String := ["sudo", "wheel", "admin"]

def inPrivilegedGroup (payload : Payload) : Bool :=
  ((field payload "groups").bind Json.asArray?).any fun groups =>
    groups.any fun group => t.toLowerCase (Js.toText t.coercions group) ∈ privilegedGroups

/-- `String(payload[name])` -/
def said (payload : Payload) (name : String) : String := textOf t (field payload name)

/-- The field is a text of which the test holds. -/
def textIs (name : String) (test : String → Bool) (payload : Payload) : Bool :=
  (textField payload name).any test

/-- The source of the code is missing, or among the temporary files. -/
def codeSourceSuspect (payload : Payload) : Bool :=
  match textField payload "codeSource" with
  | none => true
  | some codeSource => codeSource = "" || namesTempRoot codeSource

def accountUid0 : V2Rule where
  ruleId := "HW2-ACCOUNT-UID0-001"
  version := "2.0.0"
  category := .backdoorAccount
  namespace_ := .account
  verdict := .suspicious
  severity := .medium
  confidence := 4 / 5
  matches_ payload := uid t payload = some 0 && field payload "username" ≠ some (.str "root")
  rationale payload :=
    "账户 " ++ said t payload "username" ++ " 使用 UID 0；需结合授权来源、SSH trust 和登录事件裁定。"

def processTemp : V2Rule where
  ruleId := "HW2-PROCESS-TEMP-001"
  version := "2.0.0"
  category := .linuxIntrusionTriage
  namespace_ := .process
  verdict := .suspicious
  severity := .medium
  confidence := 7 / 10
  matches_ := textIs "exe" inTempRoot
  rationale payload :=
    "进程可执行文件位于临时目录：" ++ said t payload "exe" ++ "；需关联父子链、socket 与文件基线。"

def persistDownload : V2Rule where
  ruleId := "HW2-PERSIST-DOWNLOAD-001"
  version := "2.0.0"
  category := .linuxPersistence
  namespace_ := .persistence
  verdict := .suspicious
  severity := .medium
  confidence := 18 / 25
  matches_ := textIs "command" downloadsIntoShell
  rationale _ := "持久化命令包含下载后直接交给解释器执行的组合；需读取来源并固化完整 Evidence。"

def webYara : V2Rule where
  ruleId := "HW2-WEB-YARA-001"
  version := "2.3.0"
  category := .webshell
  namespace_ := .file
  verdict := .highlySuspicious
  severity := .high
  confidence := 43 / 50
  matches_ := textIs "content" fun content => startsWith content "YARA_MATCH:"
  rationale payload :=
    "Web 文件 " ++ said t payload "path" ++ " 命中内置版本化 YARA 组合规则；需结合请求、工作进程、基线与 Evidence 裁定。"

def accountPrivileged : V2Rule where
  ruleId := "HW2-ACCOUNT-PRIVILEGED-001"
  version := "2.1.0"
  category := .backdoorAccount
  namespace_ := .account
  verdict := .suspicious
  severity := .low
  confidence := 29 / 50
  matches_ payload := uid t payload ≠ some 0 && inPrivilegedGroup t payload
  rationale payload :=
    "非 root 账户 " ++ said t payload "username" ++ " 属于高权限组；需结合账户基线、SSH trust 与登录事件复核授权来源。"

def persistTempExec : V2Rule where
  ruleId := "HW2-PERSIST-TEMP-EXEC-001"
  version := "2.1.0"
  category := .linuxPersistence
  namespace_ := .unit
  verdict := .highlySuspicious
  severity := .high
  confidence := 41 / 50
  matches_ := textIs "execStart" startsInTempRoot
  rationale payload :=
    "systemd 单元 " ++ said t payload "name" ++ " 从临时目录启动程序；需固化 unit 文件与目标文件。"

def cronTempExec : V2Rule where
  ruleId := "HW2-CRON-TEMP-EXEC-001"
  version := "2.1.0"
  category := .linuxPersistence
  namespace_ := .cronEntry
  verdict := .suspicious
  severity := .medium
  confidence := 19 / 25
  matches_ := textIs "command" namesTempRoot
  rationale payload :=
    "Cron 来源 " ++ said t payload "source" ++ " 执行临时目录内容；需复核来源文件、文件身份与执行历史。"

def javaClassSource : V2Rule where
  ruleId := "HW2-JAVA-CLASS-SOURCE-001"
  version := "2.1.0"
  category := .javaMemoryShell
  namespace_ := .class_
  verdict := .suspicious
  severity := .high
  confidence := 39 / 50
  matches_ payload := field payload "modifiable" = some (.bool true) && codeSourceSuspect payload
  rationale payload :=
    "可修改类 " ++ said t payload "className" ++ " 的代码来源缺失或位于临时目录；需结合组件映射和 bytecode SHA-256 裁定。"

def execTemp : V2Rule where
  ruleId := "HW2-EXEC-TEMP-001"
  version := "2.1.0"
  category := .linuxIntrusionTriage
  namespace_ := .execEvent
  verdict := .suspicious
  severity := .medium
  confidence := 7 / 10
  matches_ := textIs "executable" inTempRoot
  rationale payload :=
    "执行事件显示临时目录程序：" ++ said t payload "executable" ++ "；需关联进程身份、文件与网络连接。"

def delegationNopasswdAll : V2Rule where
  ruleId := "HW2-DELEGATION-NOPASSWD-ALL-001"
  version := "2.2.0"
  category := .backdoorAccount
  namespace_ := .delegationRule
  verdict := .highlySuspicious
  severity := .high
  confidence := 21 / 25
  matches_ payload := field payload "mechanism" = some (.str "sudo") &&
    textIs "statement" grantsAllWithoutPassword payload
  rationale payload :=
    "委派配置 " ++ said t payload "source" ++ ":" ++ said t payload "line" ++
      " 授予无密码执行任意命令；需确认主体、来源和变更授权。"

def sshRootLogin : V2Rule where
  ruleId := "HW2-SSH-ROOT-LOGIN-001"
  version := "2.2.0"
  category := .backdoorAccount
  namespace_ := .sshTrustConfig
  verdict := .suspicious
  severity := .medium
  confidence := 37 / 50
  matches_ payload := field payload "effective" = some (.bool true) &&
    field payload "directive" = some (.str "permitrootlogin") && field payload "value" = some (.str "yes")
  rationale _ := "sshd 有效配置允许 root 直接登录；需结合 root 授权密钥、认证方式和登录事件复核。"

def packageIntegrity : V2Rule where
  ruleId := "HW2-PACKAGE-INTEGRITY-001"
  version := "2.2.0"
  category := .linuxIntrusionTriage
  namespace_ := .file
  verdict := .highlySuspicious
  severity := .high
  confidence := 22 / 25
  matches_ payload := field payload "baseline" = some (.str "package_db") &&
    field payload "baselineStatus" = some (.str "MISMATCH")
  rationale payload :=
    "文件 " ++ said t payload "path" ++ " 与软件包数据库基线不一致；需固化 Evidence 并关联进程、持久化和执行事件。"

/-- The references of the rules, in their order. -/
def ruleRefs : List String :=
  [("HW2-ACCOUNT-UID0-001", "2.0.0"), ("HW2-PROCESS-TEMP-001", "2.0.0"),
    ("HW2-PERSIST-DOWNLOAD-001", "2.0.0"), ("HW2-WEB-YARA-001", "2.3.0"),
    ("HW2-ACCOUNT-PRIVILEGED-001", "2.1.0"), ("HW2-PERSIST-TEMP-EXEC-001", "2.1.0"),
    ("HW2-CRON-TEMP-EXEC-001", "2.1.0"), ("HW2-JAVA-CLASS-SOURCE-001", "2.1.0"),
    ("HW2-EXEC-TEMP-001", "2.1.0"), ("HW2-DELEGATION-NOPASSWD-ALL-001", "2.2.0"),
    ("HW2-SSH-ROOT-LOGIN-001", "2.2.0"), ("HW2-PACKAGE-INTEGRITY-001", "2.2.0")].map
    fun (ruleId, version) => ruleId ++ "@" ++ version ++ ":"

theorem ruleRefs_apart : ruleRefs.Pairwise Apart := by decide

def deterministicRulesV2 : Registry where
  rules := [accountUid0 t, processTemp t, persistDownload, webYara t, accountPrivileged t,
    persistTempExec t, cronTempExec t, javaClassSource t, execTemp t, delegationNopasswdAll t,
    sshRootLogin, packageIntegrity t]
  separate := ruleRefs_apart

example : downloadsIntoShell "nohup CURL -s http://h/x | /bin/sh; wget h && zsh" = true := by
  decide

example : grantsAllWithoutPassword "www ALL=(ALL) NOPASSWD : ALL" = true := by decide

end HuntWarden.Rules
