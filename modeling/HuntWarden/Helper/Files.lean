import HuntWarden.Helper.Observation
import HuntWarden.Helper.Predicate
import Mathlib.Data.List.Infix

/-! Files as the primitives of the helper reach them: by a path without links, bound to the identity
    that the reference names. -/

namespace HuntWarden.Helper

open Outcome

/-- `safe_int`: a boolean is a number to Python. -/
def safe_int (value : Option Json) (minimum maximum : ℤ) (name : String) : Except HelperError ℤ :=
  let number := (value.bind Py.number?).filter fun q => q.den = 1 ∧ minimum ≤ q.num ∧ q.num ≤ maximum
  orThrow (number.map (·.num)) (invalidArgument s!"invalid {name}")

/-! ### Paths -/

/-- The text between the slashes. -/
def splitSlashes : List Char → List (List Char)
  | [] => [[]]
  | ch :: rest =>
    match splitSlashes rest with
    | [] => [[ch]]
    | part :: parts => if ch = '/' then [] :: part :: parts else (ch :: part) :: parts

/-- `PurePosixPath(value).parts` without the root. -/
def pathParts (value : String) : List String :=
  ((splitSlashes value.toList).filter fun part => part ≠ [] ∧ part ≠ ['.']).map String.ofList

def contains (part text : String) : Bool := decide (part.toList <:+: text.toList)

def startsWith (part text : String) : Bool := part.toList.isPrefixOf text.toList

def endsWith (part text : String) : Bool := part.toList.isSuffixOf text.toList

inductive ContentClass where
  | deniedText | sensitiveText | safeText
  deriving DecidableEq, Repr

def ContentClass.name : ContentClass → String
  | .deniedText => "DENIED_TEXT"
  | .sensitiveText => "SENSITIVE_TEXT"
  | .safeText => "SAFE_TEXT"

/-- `/proc/\d+/(?:mem|pagemap)` -/
def isProcessMemory (text : String) : Bool :=
  match splitSlashes text.toList with
  | [root, proc, pid, name] =>
    root = [] && proc = "proc".toList && (!pid.isEmpty && pid.all Char.isDigit) &&
      (name = "mem".toList || name = "pagemap".toList)
  | _ => false

def v2_content_class (text : String) : ContentClass :=
  if text ∈ ["/etc/shadow", "/etc/gshadow", "/proc/kcore"] || isProcessMemory text ||
      endsWith "id_rsa" text || endsWith "id_ed25519" text ||
      (contains "/.ssh/" text && endsWith ".pem" text) ||
      contains "/.aws/" text || contains "/.gnupg/" text || contains "/.kube/" text then
    .deniedText
  else if text ∈ ["/etc/os-release", "/usr/lib/os-release", "/proc/version", "/proc/uptime",
      "/etc/hostname"] then
    .safeText
  else .sensitiveText

/-! ### Open files -/

/-- What a path leads to. `size` is what `fstat` says, which is 0 for the files of `/proc` whatever is
    in them; `readable` is how much one read call gives at most. -/
structure OpenFile where
  canonical : String
  regular : Bool
  device : ℕ
  inode : ℕ
  size : ℕ
  mode : ℕ
  uid : ℕ
  gid : ℕ
  mtime : String
  content : List UInt8
  readable : ℕ
  deriving DecidableEq

/-- `os.read(descriptor, length)` at the given offset. -/
def OpenFile.read (file : OpenFile) (offset length : ℕ) : List UInt8 :=
  (file.content.drop offset).take (min length file.readable)

/-- The file at the end of the path when no component on the way is a link. -/
abbrev FileSystem := List String → Option OpenFile

def v2_open_regular (fs : FileSystem) (value : Option Json) : Except HelperError OpenFile := do
  let path ← orThrow ((value.bind Json.asString?).filter fun path =>
      startsWith "/" path ∧ Char.ofNat 0 ∉ path.toList ∧ ".." ∉ pathParts path)
    (invalidArgument "file locator must be an absolute traversal-free path")
  require (!(pathParts path).isEmpty) (invalidArgument "file locator cannot be root")
  let file ← orThrow (fs (pathParts path)) {
    code := .staleRef
    message := "file locator changed, escaped, or became unreadable" }
  require file.regular {
    code := .permissionDenied
    message := "file primitive rejects devices, FIFOs, sockets, and directories" }
  return file

/-- `v2_file_fields_fd`, without the hash. -/
def v2_file_fields_fd (file : OpenFile) : Payload :=
  [("mountId", .str (toString file.device)), ("device", .str (toString file.device)),
   ("inode", .str (toString file.inode)), ("path", .str file.canonical),
   ("canonicalPath", .str file.canonical), ("kind", .str "regular"), ("size", .num file.size),
   ("mode", .num file.mode), ("uid", .num file.uid), ("gid", .num file.gid),
   ("mtime", .str file.mtime), ("contentClass", .str (v2_content_class file.canonical).name)]

structure RefParams where
  namespace_ : NamespaceName
  identity : Payload
  locator : Payload

def NamespaceName.ofName? (name : String) : Option NamespaceName :=
  [.host, .process, .socket, .file, .account, .sshKey, .delegationRule, .sshTrustConfig, .cronEntry,
    .unit, .persistence, .module_, .logSource, .logEvent, .authEvent, .execEvent, .webStack, .webRoot,
    .jvm, .javaComponent, .class_, .package].find? fun namespace_ => namespace_.name = name

def asRecord? : Json → Option Payload
  | .obj fields => some fields
  | _ => none

def v2_ref_params (params : Json) : Except HelperError RefParams := do
  let invalid := invalidArgument "invalid object reference binding"
  let namespace_ ← orThrow (((params.get? "namespace").bind Json.asString?).bind
    NamespaceName.ofName?) invalid
  let identity ← orThrow ((params.get? "identity").bind asRecord?) invalid
  let locator ← orThrow (((params.get? "locator").getD (.obj [])) |> asRecord?) invalid
  return { namespace_, identity, locator }

/-- The open file has the identity that the reference names. -/
def sameIdentity (file : OpenFile) (identity : Payload) : Bool :=
  ["mountId", "device", "inode"].all fun key =>
    (v2_file_fields_fd file).lookup key = identity.lookup key

def v2_bound_file (fs : FileSystem) (params : Json) : Except HelperError OpenFile := do
  let ref ← v2_ref_params params
  require (ref.namespace_ = .file) (invalidArgument "operation only accepts file refs")
  let file ← v2_open_regular fs (ref.locator.lookup "path")
  require (sameIdentity file ref.identity) {
    code := .staleRef
    message := "stable file identity changed" }
  return file

end HuntWarden.Helper
