import HuntWarden.Common.Errors
import HuntWarden.Lib.Outcome
import HuntWarden.Lib.Runs
import Mathlib.Data.List.Infix
import Mathlib.Logic.Function.Basic

/-! The write actions of the helper and their receipts. An invocation is a process of its own: it goes
    from one system call to the next, other processes run in between, and it may be killed anywhere.
    One event is one system call, with what the system answers. -/

namespace HuntWarden.Receipts

open Outcome

/-! ### The target -/

structure Identity where
  device : ℕ
  inode : ℕ
  deriving DecidableEq

/-- What a path leads to. `statDevice` is the device a link is followed to, none when it dangles. -/
structure Node where
  regular : Bool
  statDevice : Option ℕ
  sha256 : String
  mode : ℕ
  uid : ℕ
  gid : ℕ
  deriving DecidableEq

/-- `inspect_account` -/
structure Account where
  uid : ℕ
  gid : ℕ
  groups : List String
  shell : String
  home : String
  passwordLocked : Bool
  accountExpireDays : String
  deriving DecidableEq

/-- Files by path and by identity, directories with their device, and accounts by name. -/
structure Host where
  lstat : String → Option Identity
  node : Identity → Node
  directory : String → Option ℕ
  account : String → Option Account

namespace Host

/-- `stat(path).st_dev`, links followed. -/
def statDevice (host : Host) (path : String) : Option ℕ := do
  let identity ← host.lstat path
  if (host.node identity).regular then some identity.device else (host.node identity).statDevice

def rename (host : Host) (source target : String) (identity : Identity) : Host :=
  { host with
    lstat := Function.update (Function.update host.lstat source none) target (some identity) }

/-- `mkdir(parents, exist_ok)` on the given device, where there is no directory yet. -/
def makeDirectory (host : Host) (path : String) (device : ℕ) : Host :=
  { host with directory := Function.update host.directory path (some device) }

def chmod (host : Host) (identity : Identity) (mode : ℕ) : Host :=
  { host with node := Function.update host.node identity { host.node identity with mode } }

def setAccount (host : Host) (username : String) (account : Account) : Host :=
  { host with account := Function.update host.account username (some account) }

end Host

/-! ### Requests and receipts -/

inductive Action where
  | quarantineFile (path expectedSha256 expectedDevice expectedInode quarantineRoot : String)
  | disableAccount (username executorUsername : String)
  deriving DecidableEq

def Action.operation : Action → String
  | .quarantineFile .. => "quarantine_file"
  | .disableAccount .. => "disable_account"

structure WriteRequest where
  actionId : String
  action : Action
  deriving DecidableEq

inductive ReceiptStatus where
  | started | succeeded | failed
  deriving DecidableEq

inductive ActionResult where
  | reason (text : String)
  | quarantined (originalPath : String) (mode uid gid : ℕ) (sha256 quarantinePath : String)
      (quarantineMode : ℕ) (verifiedMode000 verifiedMissing : Bool)
  | inspected (before after : Account)
  deriving DecidableEq

structure Receipt where
  actionId : String
  operation : String
  status : ReceiptStatus
  argsDigest : String
  startedAt : ℕ
  result : Option ActionResult
  finishedAt : Option ℕ
  deriving DecidableEq

def Receipt.terminal (receipt : Receipt) : Bool := receipt.status ≠ .started

/-- The digest of a request, and the paths that the library makes of path texts. -/
structure Env where
  argsDigest : WriteRequest → String
  canonical : String → String
  resolve : String → String

/-! ### Checks before the receipt -/

def helperError (code : HelperErrorCode) (message : String) : HelperError := { code, message }

def hexOrDash (ch : Char) : Bool := ch.isDigit || ('a' ≤ ch ∧ ch ≤ 'f') || ch = '-'

/-- `action_id` -/
def isActionId (value : String) : Bool :=
  "ACT-".toList.isPrefixOf value.toList && (value.toList.drop 4).length = 36 &&
    (value.toList.drop 4).all hexOrDash

def isSha256 (value : String) : Bool :=
  value.toList.length = 64 && value.toList.all fun ch => ch.isDigit || ('a' ≤ ch ∧ ch ≤ 'f')

/-- `USERNAME`, whose letters match in either case. -/
def isUsername (value : String) : Bool :=
  match value.toList with
  | [] => false
  | first :: rest =>
    (first.isAlpha || first = '_') && rest.length ≤ 31 &&
      rest.all fun ch => ch.isAlphanum || ch = '_' || ch = '-'

/-- What an invocation has read before it looks for its receipt: the open file with its canonical
    path and the root of the quarantine, or the account. -/
inductive Subject where
  | file (source root : String) (before : Identity) (metadata : Node)
  | account (before : Account)
  deriving DecidableEq

/-- `v2_open_regular`, without the rules for path texts. -/
def openRegular (env : Env) (host : Host) (path : String) :
    Except HelperError (Identity × String) := do
  require ("/".toList.isPrefixOf path.toList)
    (helperError .invalidArgument "file locator must be an absolute traversal-free path")
  let identity ← orThrow (host.lstat (env.canonical path))
    (helperError .staleRef "file locator changed, escaped, or became unreadable")
  require (host.node identity).regular
    (helperError .permissionDenied
      "file primitive rejects devices, FIFOs, sockets, and directories")
  return (identity, env.canonical path)

def inspectAccount (host : Host) (username : String) : Except HelperError Account :=
  orThrow (host.account username) (helperError .invalidArgument "account does not exist")

/-- Everything an action does before `begin_receipt`. -/
def check (env : Env) (host : Host) (request : WriteRequest) : Except HelperError Subject := do
  require (isActionId request.actionId) (helperError .invalidArgument "invalid actionId")
  match request.action with
  | .quarantineFile path expectedSha256 expectedDevice expectedInode quarantineRoot =>
    let (identity, source) ← openRegular env host path
    require (isSha256 expectedSha256) (helperError .invalidArgument "invalid expectedSha256")
    require (toString identity.device = expectedDevice ∧ toString identity.inode = expectedInode)
      (helperError .staleRef "quarantine file identity changed")
    require ("/".toList.isPrefixOf quarantineRoot.toList)
      (helperError .invalidArgument "path must be absolute")
    return .file source (env.resolve quarantineRoot) identity (host.node identity)
  | .disableAccount username executorUsername =>
    require (isUsername username && isUsername executorUsername)
      (helperError .invalidArgument "invalid username")
    require (username ≠ "root" ∧ username ≠ executorUsername)
      (helperError .permissionDenied "root and active executor account cannot be disabled")
    let before ← inspectAccount host username
    return .account before

/-! ### An invocation -/

/-- What a quarantine works on: the receipt in hand and the file it opened. -/
structure Work where
  receipt : Receipt
  source : String
  root : String
  before : Identity
  metadata : Node
  deriving DecidableEq

/-- The last component of a path. -/
def baseName (path : String) : String :=
  String.ofList (path.toList.foldl (fun name ch => if ch = '/' then [] else name ++ [ch]) [])

def Work.targetDir (w : Work) : String := w.root ++ "/" ++ w.receipt.actionId

def Work.target (w : Work) : String := w.targetDir ++ "/" ++ baseName w.source

/-- The next system call. `made` is set once the invocation has created a directory. -/
inductive Phase where
  | checking
  | beginning (subject : Subject)
  | creating (subject : Subject)
  | hashing (w : Work)
  | makingRoot (w : Work)
  | makingDir (w : Work) (made : Bool)
  | checkingDevice (w : Work) (made : Bool)
  | checkingIdentity (w : Work) (made : Bool)
  | moving (w : Work)
  | checkingMove (w : Work)
  | rollingBack (w : Work)
  | sealing (w : Work)
  | verifying (w : Work)
  | locking (receipt : Receipt) (before : Account)
  | inspectingAfter (receipt : Receipt) (before : Account) (changed : Bool)
  | finishing (receipt : Receipt) (status : ReceiptStatus) (result : ActionResult)
  deriving DecidableEq

/-- The receipt an invocation has created or found. -/
def Phase.receipt? : Phase → Option Receipt
  | .checking | .beginning _ | .creating _ => none
  | .hashing w | .makingRoot w | .makingDir w _ | .checkingDevice w _ | .checkingIdentity w _
  | .moving w | .checkingMove w | .rollingBack w | .sealing w | .verifying w => some w.receipt
  | .locking receipt _ | .inspectingAfter receipt _ _ | .finishing receipt _ _ => some receipt

/-- `replayed` is the receipt of an earlier success with the same arguments, when there is one at the
    start of the invocation. -/
structure Invocation where
  request : WriteRequest
  replayed : Option Receipt
  phase : Phase
  deriving DecidableEq

inductive Change where
  | madeDirectory | renamed | renamedBack | chmod
  | usermod (changed : Bool)
  deriving DecidableEq

/-- The change that an action is for. -/
def Change.isEffect : Change → Bool
  | .renamed | .usermod _ => true
  | _ => false

def Change.changes : Change → Bool
  | .usermod changed => changed
  | _ => true

structure Entry where
  request : WriteRequest
  replayed : Option Receipt
  change : Change
  deriving DecidableEq

/-- How an invocation ends; `failed` is an exception of the system itself. -/
inductive Reply where
  | receipt (receipt : Receipt)
  | error (error : HelperError)
  | failed
  deriving DecidableEq

/-- What a system call answers: a number (the clock, the device of a new directory), the account that
    an external command left behind and its exit code, or an exception. -/
inductive Answer where
  | done (number : ℕ)
  | ran (account : Account) (exit : ℕ)
  | failed

inductive Event where
  | invoke (pid : ℕ) (request : WriteRequest)
  | advance (pid : ℕ) (answer : Answer)
  | crash (pid : ℕ)
  /-- Anybody else changes files, directories or accounts. -/
  | outside (host : Host)

structure State where
  host : Host
  receipts : String → Option Receipt
  running : ℕ → Option Invocation
  log : List Entry
  replies : List (Invocation × Reply)

namespace State

/-- A target on which no action was ever tried. -/
def start (host : Host) : State :=
  { host, receipts := fun _ => none, running := fun _ => none, log := [], replies := [] }

def goOn (s : State) (pid : ℕ) (inv : Invocation) (phase : Phase) : State :=
  { s with running := Function.update s.running pid (some { inv with phase }) }

def reply (s : State) (pid : ℕ) (inv : Invocation) (reply : Reply) : State :=
  { s with
    running := Function.update s.running pid none
    replies := s.replies ++ [(inv, reply)] }

def record (s : State) (inv : Invocation) (change : Change) (host : Host) : State :=
  { s with
    host
    log := s.log ++ [{ request := inv.request, replayed := inv.replayed, change }] }

/-- `atomic_json(receipt_path(actionId), receipt)` -/
def putReceipt (s : State) (inv : Invocation) (receipt : Receipt) : State :=
  { s with receipts := Function.update s.receipts inv.request.actionId (some receipt) }

end State

def sameArguments (env : Env) (request : WriteRequest) (receipt : Receipt) : Bool :=
  receipt.operation = request.action.operation && receipt.argsDigest = env.argsDigest request

/-- The work that follows `begin_receipt`. -/
def Subject.work (receipt : Receipt) : Subject → Phase
  | .file source root before metadata => .hashing { receipt, source, root, before, metadata }
  | .account before => .locking receipt before

def newReceipt (env : Env) (request : WriteRequest) (now : ℕ) : Receipt where
  actionId := request.actionId
  operation := request.action.operation
  status := .started
  argsDigest := env.argsDigest request
  startedAt := now
  result := none
  finishedAt := none

/-- The account is locked and expired. -/
def confirmed (account : Account) : Bool :=
  account.passwordLocked && account.accountExpireDays ∉ ["", "-1"]

def expectedSha256 : Action → String
  | .quarantineFile _ expectedSha256 .. => expectedSha256
  | .disableAccount .. => ""

def username : Action → String
  | .quarantineFile .. => ""
  | .disableAccount username _ => username

section

variable (env : Env) (s : State) (pid : ℕ) (inv : Invocation)

/-- `begin_receipt` when there is a receipt; a success is answered at once. -/
def beginExisting (subject : Subject) (existing : Receipt) : State :=
  if sameArguments env inv.request existing then
    if existing.status = .succeeded then s.reply pid inv (.receipt existing)
    else s.goOn pid inv (subject.work existing)
  else s.reply pid inv
    (.error (helperError .invalidArgument "actionId was already bound to different arguments"))

/-- `mkdir` of a directory that may be there already. -/
def makeDirectory (path : String) (device : ℕ) : State :=
  match s.host.directory path with
  | some _ => s
  | none => s.record inv .madeDirectory (s.host.makeDirectory path device)

def failWith (w : Work) (reason : String) : State :=
  s.goOn pid inv (.finishing w.receipt .failed (.reason reason))

/-- The two checks between the directories and the rename. -/
def checkDevice (w : Work) (made : Bool) : State :=
  match s.host.statDevice w.source, s.host.directory w.targetDir with
  | some device, some device' =>
    if device = device' then s.goOn pid inv (.checkingIdentity w made)
    else failWith s pid inv w "cross-filesystem quarantine refused"
  | _, _ => s.reply pid inv .failed

def checkIdentity (w : Work) : State :=
  match s.host.lstat w.source with
  | none => s.reply pid inv .failed
  | some identity =>
    if (s.host.node identity).regular ∧ identity = w.before then s.goOn pid inv (.moving w)
    else failWith s pid inv w "source identity changed before rename"

/-- `os.rename(source, target)` moves what is there now. -/
def renameSource (w : Work) : State :=
  match s.host.lstat w.source with
  | none => s.reply pid inv .failed
  | some identity =>
    (s.record inv .renamed (s.host.rename w.source w.target identity)).goOn pid inv
      (.checkingMove w)

def checkMove (w : Work) : State :=
  match s.host.lstat w.target with
  | none => s.reply pid inv .failed
  | some identity =>
    s.goOn pid inv (if identity = w.before then .sealing w else .rollingBack w)

def rollBack (w : Work) : State :=
  let failed := "rename target identity mismatch; rollback attempted"
  if (s.host.statDevice w.source).isSome then failWith s pid inv w failed
  else match s.host.lstat w.target with
    | none => s.reply pid inv .failed
    | some identity =>
      failWith (s.record inv .renamedBack (s.host.rename w.target w.source identity)) pid inv w
        failed

def sealTarget (w : Work) : State :=
  match s.host.lstat w.target with
  | none => s.reply pid inv .failed
  | some identity =>
    (s.record inv .chmod (s.host.chmod identity 0)).goOn pid inv (.verifying w)

def verify (w : Work) : State :=
  match s.host.lstat w.target with
  | none => s.reply pid inv .failed
  | some identity =>
    let quarantineMode := (s.host.node identity).mode
    s.goOn pid inv (.finishing w.receipt .succeeded (.quarantined w.source w.metadata.mode
      w.metadata.uid w.metadata.gid (expectedSha256 inv.request.action) w.target quarantineMode
      (quarantineMode = 0) (s.host.statDevice w.source).isNone))

/-- `usermod` has ended and left the account behind. -/
def lockAccount (receipt : Receipt) (before account : Account) (exit : ℕ) : State :=
  let name := username inv.request.action
  let changed := s.host.account name ≠ some account
  let s' := s.record inv (.usermod changed) (s.host.setAccount name account)
  if exit = 0 then s'.goOn pid inv (.inspectingAfter receipt before changed)
  else s'.reply pid inv (.error (helperError .unsupportedEnvironment "usermod"))

def inspectAfter (receipt : Receipt) (before : Account) : State :=
  match inspectAccount s.host (username inv.request.action) with
  | .error error => s.reply pid inv (.error error)
  | .ok after =>
    s.goOn pid inv (.finishing receipt (if confirmed after then .succeeded else .failed)
      (.inspected before after))

/-- `finish_receipt` -/
def finish (receipt : Receipt) (status : ReceiptStatus) (result : ActionResult) (now : ℕ) : State :=
  let receipt := { receipt with status, result := some result, finishedAt := some now }
  (s.putReceipt inv receipt).reply pid inv (.receipt receipt)

/-- One system call that comes back. -/
def proceed (number : ℕ) : State :=
  match inv.phase with
  | .checking =>
    match check env s.host inv.request with
    | .error error => s.reply pid inv (.error error)
    | .ok subject => s.goOn pid inv (.beginning subject)
  | .beginning subject =>
    match s.receipts inv.request.actionId with
    | some existing => beginExisting env s pid inv subject existing
    | none => s.goOn pid inv (.creating subject)
  | .creating subject =>
    let receipt := newReceipt env inv.request number
    (s.putReceipt inv receipt).goOn pid inv (subject.work receipt)
  | .hashing w =>
    if (s.host.node w.before).sha256 = expectedSha256 inv.request.action then
      s.goOn pid inv (.makingRoot w)
    else failWith s pid inv w "source hash changed"
  | .makingRoot w =>
    (makeDirectory s inv w.root number).goOn pid inv
      (.makingDir w (s.host.directory w.root).isNone)
  | .makingDir w made =>
    (makeDirectory s inv w.targetDir number).goOn pid inv
      (.checkingDevice w (made || (s.host.directory w.targetDir).isNone))
  | .checkingDevice w made => checkDevice s pid inv w made
  | .checkingIdentity w _ => checkIdentity s pid inv w
  | .moving w => renameSource s pid inv w
  | .checkingMove w => checkMove s pid inv w
  | .rollingBack w => rollBack s pid inv w
  | .sealing w => sealTarget s pid inv w
  | .verifying w => verify s pid inv w
  | .locking _ _ => s
  | .inspectingAfter receipt before _ => inspectAfter s pid inv receipt before
  | .finishing receipt status result => finish s pid inv receipt status result number

def advance (answer : Answer) : State :=
  match answer with
  | .failed => s.reply pid inv .failed
  | .done number => proceed env s pid inv number
  | .ran account exit =>
    match inv.phase with
    | .locking receipt before => lockAccount s pid inv receipt before account exit
    | _ => s

/-- The receipt of an earlier success with the arguments of the request. -/
def replayOf (request : WriteRequest) : Option Receipt :=
  (s.receipts request.actionId).filter fun receipt =>
    receipt.status = .succeeded && sameArguments env request receipt

end

def step (env : Env) (s : State) : Event → State
  | .invoke pid request =>
    match s.running pid with
    | some _ => s
    | none =>
      { s with running := Function.update s.running pid
                (some { request, replayed := replayOf env s request, phase := .checking }) }
  | .advance pid answer =>
    match s.running pid with
    | none => s
    | some inv => advance env s pid inv answer
  | .crash pid => { s with running := Function.update s.running pid none }
  | .outside host => { s with host }

end HuntWarden.Receipts
