import HuntWarden.Helper.ProcessTable
import HuntWarden.Lib.Claims

/-! The sockets of a host, from the tables that the kernel keeps for each protocol and from the descriptors of the
    processes. An endpoint is written as bytes in hexadecimal, in the order of a little-endian word; it is shown as a
    text, and the text is taken apart again. A socket belongs to the process that has it open, unless two have. -/

namespace HuntWarden.Helper.Sockets

open Claims Inet Outcome ProcFs

/-! ### Endpoints -/

inductive SocketProtocol where
  | tcp | tcp6 | udp | udp6
  deriving DecidableEq

def SocketProtocol.text : SocketProtocol → String
  | .tcp => "tcp"
  | .tcp6 => "tcp6"
  | .udp => "udp"
  | .udp6 => "udp6"

def SocketProtocol.path (protocol : SocketProtocol) : String := "/proc/net/" ++ protocol.text

def SocketProtocol.ipv6 : SocketProtocol → Bool
  | .tcp => false
  | .tcp6 => true
  | .udp => false
  | .udp6 => true

def protocols : List SocketProtocol := [.tcp, .tcp6, .udp, .udp6]

/-- Four words, each with its bytes the other way round. -/
def reverseWords (raw : List ℕ) : List ℕ := [0, 4, 8, 12].flatMap fun index => ((raw.drop index).take 4).reverse

def pairs : List ℕ → List ℕ
  | high :: low :: rest => (high * 256 + low) :: pairs rest
  | _ => []

/-- `inet_ntop` of the bytes; `none` is its `ValueError`. -/
def addressText (raw : List ℕ) (ipv6 : Bool) : Option (List Char) :=
  if ipv6 then (Parts.ofList? (pairs (reverseWords raw))).map groupText
  else (Parts.ofList? raw.reverse).map quadText

/-- `none` is a `ValueError`. -/
def decode_endpoint (value : List Char) (ipv6 : Bool) : Option (List Char) :=
  match value.splitOn ':' with
  | [addressHex, portHex] => do
    let raw ← Py.fromHex? addressHex
    let address ← addressText raw ipv6
    let port ← Py.int? 16 portHex
    return address ++ ':' :: Py.intText port
  | _ => none

/-! ### Owners -/

structure Owner where
  processPid : ℕ
  ownerBootId : List Char
  ownerStartTicks : List Char
  ownerPidNamespace : List Char
  deriving DecidableEq

/-- What is read of a process for its sockets; an error among the descriptors ends their reading. -/
structure SocketLook where
  pidNamespace : Except OsError (List Char)
  descriptors : Except OsError (List (List Char))
  stat : Except OsError (List Char)

/-- `socket:\[(\d+)\]` -/
def socketInode (target : List Char) : Option (List Char) :=
  if "socket:[".toList.isPrefixOf target then
    match (target.drop 8).reverse with
    | ']' :: digits => if !digits.isEmpty && digits.all isDigit then some digits.reverse else none
    | _ => none
  else none

def ownerOf (process : StableProcess) (pidNamespace : List Char) : Owner where
  processPid := process.pid
  ownerBootId := process.bootId
  ownerStartTicks := process.startTicks
  ownerPidNamespace := pidNamespace.take 256

/-- What one process adds: warnings, and the sockets that it has open. -/
def processClaims (process : StableProcess) (look : SocketLook) :
    Except Failure (List String × List (List Char × Owner)) :=
  let pid := process.pid
  match look.pidNamespace with
  | .error .fileNotFound => .ok ([], [])
  | .error .processLookup => .ok ([], [])
  | .error _ => .ok ([s!"PID {pid}: cannot inspect process PID namespace"], [])
  | .ok pidNamespace =>
    match look.descriptors with
    | .error _ => .ok ([], [])
    | .ok targets =>
      match proc_stat_fields look.stat with
      | .error (.os _) => .ok ([], [])
      | .error failure => .error failure
      | .ok fields =>
        if fields.startTicks ≠ process.startTicks then
          .ok ([s!"PID {pid}: PID was reused during socket ownership collection"], [])
        else
          .ok ([], (targets.filterMap socketInode).map fun inode => (inode, ownerOf process pidNamespace))

/-- The loop over the processes. -/
def collectOwners (looks : ℕ → SocketLook) :
    List StableProcess → List String × Board (List Char) Owner → Except Failure (List String × Board (List Char) Owner)
  | [], s => .ok s
  | process :: processes, s =>
    processClaims process (looks process.pid) >>= fun added =>
      collectOwners looks processes (s.1 ++ added.1, s.2.claimAll added.2)

/-! ### Tables -/

/-- What reading a table gives; its first line is a title. -/
inductive TableRead where
  | missing
  | denied
  | lines (rows : List (List Char))

structure Connection where
  protocol : SocketProtocol
  local_ : List Char
  remote : List Char
  state : List Char
  inode : List Char
  owner : Option Owner

def stateName (code : List Char) : List Char :=
  if code = ['0', '1'] then "ESTABLISHED".toList
  else if code = ['0', '2'] then "SYN_SENT".toList
  else if code = ['0', '3'] then "SYN_RECV".toList
  else if code = ['0', '6'] then "TIME_WAIT".toList
  else if code = ['0', '7'] then "CLOSE".toList
  else if code = ['0', '8'] then "CLOSE_WAIT".toList
  else if code = ['0', 'A'] then "LISTEN".toList
  else code

/-- The connection of a line with its fields. -/
def connectionOf (board : Board (List Char) Owner) (protocol : SocketProtocol) (fields : List (List Char)) :
    Option Connection := do
  let localText ← decode_endpoint (fields.getD 1 []) protocol.ipv6
  let remoteText ← decode_endpoint (fields.getD 2 []) protocol.ipv6
  let inode := fields.getD 9 []
  return {
    protocol, inode
    local_ := localText
    remote := remoteText
    state := stateName (fields.getD 3 [])
    owner := board.owners inode }

structure Collected where
  items : List Connection
  warnings : List String

def Collected.warn (s : Collected) (message : String) : Collected := { s with warnings := s.warnings ++ [message] }

def Collected.line (s : Collected) (board : Board (List Char) Owner) (protocol : SocketProtocol)
    (fields : List (List Char)) : Collected :=
  match connectionOf board protocol fields with
  | some item => { s with items := s.items ++ [item] }
  | none => s.warn ("无法解析 " ++ protocol.text ++ " socket")

/-- The loop over the lines of a table, and whether it found enough. -/
def readLines (board : Board (List Char) Owner) (maximum : ℕ) (protocol : SocketProtocol) :
    List (List Char) → Collected → Collected × Bool
  | [], s => (s, false)
  | line :: lines, s =>
    if (Py.split line).length < 10 then
      readLines board maximum protocol lines (s.warn ("无法解析 " ++ protocol.path ++ " 记录"))
    else if maximum ≤ (s.line board protocol (Py.split line)).items.length then
      (s.line board protocol (Py.split line), true)
    else readLines board maximum protocol lines (s.line board protocol (Py.split line))

structure Connections where
  items : List Connection
  warnings : List String
  partial_ : Bool

def Collected.stop (s : Collected) (reason : String) : Connections :=
  { items := s.items, warnings := s.warnings.take 100 ++ [reason], partial_ := true }

def readTables (board : Board (List Char) Owner) (maximum : ℕ) (late : SocketProtocol → Bool)
    (tables : SocketProtocol → TableRead) : List SocketProtocol → Collected → Connections
  | [], s => { items := s.items, warnings := s.warnings.take 100, partial_ := !s.warnings.isEmpty }
  | protocol :: rest, s =>
    if late protocol then s.stop deadlineWarning
    else
      match tables protocol with
      | .missing => readTables board maximum late tables rest (s.warn (protocol.path ++ " 不可用"))
      | .denied => readTables board maximum late tables rest (s.warn ("无权读取 " ++ protocol.path))
      | .lines rows =>
        let read := readLines board maximum protocol (rows.drop 1) s
        if read.2 then read.1.stop "网络连接结果达到配置上限"
        else readTables board maximum late tables rest read.1

/-- `looks` is what is read for the sockets of a pid, `late` whether the deadline is over before a table. -/
def read_global_connections (host : Host) (deadline : ℕ → Bool) (entries : List Entry) (looks : ℕ → SocketLook)
    (late : SocketProtocol → Bool) (tables : SocketProtocol → TableRead) (maximum : ℕ) :
    Except Failure Connections := do
  let listing ← enumerate_stable_processes host deadline 5000 false false entries
  let warnings := if listing.partial_ then listing.warnings ++ ["套接字所有者进程枚举不完整"] else listing.warnings
  let owners ← collectOwners looks listing.items (warnings, Board.empty)
  return readTables owners.2 maximum late tables protocols { items := [], warnings := owners.1 }

/-! ### Rows -/

structure SocketRow where
  protocol : SocketProtocol
  localAddress : List Char
  localPort : ℤ
  remoteAddress : List Char
  remotePort : ℤ
  state : List Char
  inode : List Char
  owner : Option Owner

/-- An address and a port, from their text. -/
def splitEndpoint (text : List Char) : Except Failure (List Char × ℤ) := do
  let parts ← orThrow (Py.rsplit ':' text)
    (unsupportedEnvironment "collector produced an invalid socket endpoint")
  let port ← orThrow (Py.int? 10 parts.2) (unsupportedEnvironment "collector produced an invalid socket endpoint")
  return (parts.1, port)

def v2_socket_row (value : Connection) : Except Failure SocketRow := do
  let local_ ← splitEndpoint value.local_
  let remote ← splitEndpoint value.remote
  return {
    protocol := value.protocol
    localAddress := local_.1
    localPort := local_.2
    remoteAddress := remote.1
    remotePort := remote.2
    state := value.state
    inode := value.inode
    owner := value.owner }

/-- The socket branch of `v2_enumerate`. -/
def socketRows (host : Host) (deadline : ℕ → Bool) (entries : List Entry) (looks : ℕ → SocketLook)
    (late : SocketProtocol → Bool) (tables : SocketProtocol → TableRead) :
    Except Failure (List SocketRow × List String × Bool) := do
  let connections ← read_global_connections host deadline entries looks late tables 20000
  let rows ← connections.items.mapM v2_socket_row
  return (rows, connections.warnings, connections.partial_)

/-! ### What the kernel writes -/

structure KernelSocket where
  localAddress : Address
  localPort : ℕ
  remoteAddress : Address
  remotePort : ℕ
  state : ℕ
  inode : ℕ

/-- The bytes of an address, the most significant one first. -/
def addressBytes : Address → List ℕ
  | .v4 a => a.parts
  | .v6 a => a.parts.flatMap fun group => [group / 256, group % 256]

/-- An endpoint in a table: words in the order of a little-endian machine. -/
def endpointText : Address → ℕ → List Char
  | .v4 a, port => Py.hexBytes (addressBytes (.v4 a)).reverse ++ ':' :: Py.hexBytes [port / 256, port % 256]
  | .v6 a, port => Py.hexBytes (reverseWords (addressBytes (.v6 a))) ++ ':' :: Py.hexBytes [port / 256, port % 256]

def isV6 : Address → Bool
  | .v4 _ => false
  | .v6 _ => true

/-- The line of a socket in the table of a protocol. -/
structure Describes (protocol : SocketProtocol) (socket : KernelSocket) (line : List Char) : Prop where
  localFamily : isV6 socket.localAddress = protocol.ipv6
  remoteFamily : isV6 socket.remoteAddress = protocol.ipv6
  localPort : socket.localPort < 65536
  remotePort : socket.remotePort < 65536
  fields : ∃ number between more, Py.split line =
    number :: endpointText socket.localAddress socket.localPort ::
      endpointText socket.remoteAddress socket.remotePort :: Py.hexBytes [socket.state] ::
      between ++ Nat.toDigits 10 socket.inode :: more ∧ between.length = 5

/-- The text of an address. -/
def ntop : Address → List Char
  | .v4 a => quadText a
  | .v6 a => groupText a

theorem address_ntop (a : Address) : address (ntop a) = some a := by
  cases a with
  | v4 a => rw [ntop, address, dotted_quadText]
  | v6 a => exact address_groupText a

theorem parts_self {bits count : ℕ} (a : Parts bits count) : Parts.ofList? a.parts = some a :=
  ofList?_eq_some.2 rfl

theorem pairs_bytes (groups : List ℕ) : pairs (groups.flatMap fun group => [group / 256, group % 256]) = groups := by
  induction groups with
  | nil => rfl
  | cons group groups ih =>
    change (group / 256 * 256 + group % 256) :: pairs (groups.flatMap fun group => [group / 256, group % 256]) = _
    rw [ih, Nat.div_add_mod']

/-- Reversing the words twice changes nothing. -/
theorem reverseWords_twice {bytes : List ℕ} (h : bytes.length = 16) : reverseWords (reverseWords bytes) = bytes := by
  match bytes, h with
  | [b0, b1, b2, b3, b4, b5, b6, b7, b8, b9, b10, b11, b12, b13, b14, b15], _ => rfl

theorem mem_reverseWords {bytes : List ℕ} {byte : ℕ} (h : byte ∈ reverseWords bytes) : byte ∈ bytes := by
  obtain ⟨index, -, hbyte⟩ := List.mem_flatMap.1 h
  exact List.mem_of_mem_drop (List.mem_of_mem_take (List.mem_reverse.1 hbyte))

theorem addressBytes_lt (a : Address) : ∀ byte ∈ addressBytes a, byte < 256 := by
  cases a with
  | v4 a => exact a.bounded
  | v6 a =>
    intro byte hbyte
    obtain ⟨group, hgroup, hbyte⟩ := List.mem_flatMap.1 hbyte
    have hlt := a.bounded group hgroup
    rcases List.mem_pair.1 hbyte with rfl | rfl <;> omega

theorem addressBytes_v6_length (a : V6) : (addressBytes (.v6 a)).length = 16 := by
  have hlength := a.length_eq
  rw [addressBytes, List.length_flatMap]
  simp [hlength]

/-- An endpoint of a table, taken apart at its colon. -/
theorem splitOn_endpoint {bytes : List ℕ} (hbytes : ∀ byte ∈ bytes, byte < 256) {port : ℕ} (hport : port < 65536) :
    (Py.hexBytes bytes ++ ':' :: Py.hexBytes [port / 256, port % 256]).splitOn ':' =
      [Py.hexBytes bytes, Py.hexBytes [port / 256, port % 256]] := by
  have hpair : ∀ byte ∈ [port / 256, port % 256], byte < 256 := by
    intro byte hmem
    rcases List.mem_pair.1 hmem with rfl | rfl <;> omega
  have hleft : ∀ c ∈ Py.hexBytes bytes, (c == ':') = false := by
    intro c hc
    exact beq_false_of_ne fun heq => Py.notMem_hexBytes hbytes (heq ▸ hc)
  have hright : ∀ c ∈ Py.hexBytes [port / 256, port % 256], (c == ':') = false := by
    intro c hc
    exact beq_false_of_ne fun heq => Py.notMem_hexBytes hpair (heq ▸ hc)
  rw [List.splitOn, List.splitOnP_append_cons _ _ (by simp), List.splitOnP_eq_singleton hleft,
    List.splitOnP_eq_singleton hright]
  rfl

theorem decode_bytes {bytes : List ℕ} (hbytes : ∀ byte ∈ bytes, byte < 256) {port : ℕ} (hport : port < 65536)
    {ipv6 : Bool} {text : List Char} (haddress : addressText bytes ipv6 = some text) :
    decode_endpoint (Py.hexBytes bytes ++ ':' :: Py.hexBytes [port / 256, port % 256]) ipv6 =
      some (text ++ ':' :: Nat.toDigits 10 port) := by
  rw [decode_endpoint, splitOn_endpoint hbytes hport]
  simp only [Py.fromHex?_hexBytes hbytes, Py.int?_hexPair hport, haddress, Option.bind_eq_bind, Option.bind_some]
  rfl

/-- What the kernel wrote is read as the address and the port. -/
theorem decode_endpointText (a : Address) {port : ℕ} (hport : port < 65536) :
    decode_endpoint (endpointText a port) (isV6 a) = some (ntop a ++ ':' :: Nat.toDigits 10 port) := by
  have hraw := addressBytes_lt a
  cases a with
  | v4 a =>
    refine decode_bytes (fun byte hbyte => hraw byte (List.mem_reverse.1 hbyte)) hport ?_
    rw [addressText, if_neg (by simp [isV6]), List.reverse_reverse, addressBytes, parts_self]
    rfl
  | v6 a =>
    refine decode_bytes (fun byte hbyte => hraw byte (mem_reverseWords hbyte)) hport ?_
    rw [addressText, if_pos (show isV6 (.v6 a) = true from rfl), reverseWords_twice (addressBytes_v6_length a),
      addressBytes, pairs_bytes, parts_self]
    rfl

/-! ### Who has a socket open -/

/-- The process has a socket with this inode open, and its status line still says the same start. -/
structure Holds (process : StableProcess) (look : SocketLook) (inode : List Char) (owner : Owner) : Prop where
  pidNamespace : ∃ text, look.pidNamespace = .ok text ∧ owner = ownerOf process text
  descriptor : ∃ targets, look.descriptors = .ok targets ∧ ∃ target ∈ targets, socketInode target = some inode
  same : ∃ fields, proc_stat_fields look.stat = .ok fields ∧ fields.startTicks = process.startTicks

/-- A process without a namespace, without descriptors or with another start has none. -/
theorem processClaims_mem {process : StableProcess} {look : SocketLook} {added : List String × List (List Char × Owner)}
    (h : processClaims process look = .ok added) (inode : List Char) (owner : Owner) :
    (inode, owner) ∈ added.2 ↔ Holds process look inode owner := by
  rw [processClaims] at h
  cases hnamespace : look.pidNamespace with
  | error error =>
    rw [hnamespace] at h
    have hempty : added.2 = [] := by cases error <;> cases h <;> rfl
    rw [hempty]
    refine iff_of_false List.not_mem_nil fun hholds => ?_
    obtain ⟨text, htext, -⟩ := hholds.pidNamespace
    rw [hnamespace] at htext
    cases htext
  | ok pidNamespace =>
    rw [hnamespace] at h
    cases hdescriptors : look.descriptors with
    | error error =>
      rw [hdescriptors] at h
      cases h
      refine iff_of_false List.not_mem_nil fun hholds => ?_
      obtain ⟨targets, htargets, -⟩ := hholds.descriptor
      rw [hdescriptors] at htargets
      cases htargets
    | ok targets =>
      rw [hdescriptors] at h
      cases hstat : proc_stat_fields look.stat with
      | error failure =>
        rw [hstat] at h
        have hempty : added.2 = [] := by cases failure <;> cases h; rfl
        rw [hempty]
        refine iff_of_false List.not_mem_nil fun hholds => ?_
        obtain ⟨fields, hfields, -⟩ := hholds.same
        rw [hstat] at hfields
        cases hfields
      | ok fields =>
        rw [hstat] at h
        dsimp only at h
        by_cases hticks : fields.startTicks = process.startTicks
        · rw [if_neg (not_not.2 hticks)] at h
          cases h
          simp only [List.mem_map, List.mem_filterMap, Prod.mk.injEq]
          constructor
          · rintro ⟨found, ⟨target, htarget, hfound⟩, rfl, rfl⟩
            exact ⟨⟨pidNamespace, hnamespace, rfl⟩, ⟨targets, hdescriptors, target, htarget, hfound⟩,
              ⟨fields, hstat, hticks⟩⟩
          · rintro ⟨⟨text, htext, rfl⟩, ⟨others, hothers, target, htarget, hfound⟩, -⟩
            rw [hnamespace] at htext
            rw [hdescriptors] at hothers
            cases htext
            cases hothers
            exact ⟨inode, ⟨target, htarget, hfound⟩, rfl, rfl⟩
        · rw [if_pos hticks] at h
          cases h
          refine iff_of_false List.not_mem_nil fun hholds => ?_
          obtain ⟨others, hothers, hsame⟩ := hholds.same
          rw [hstat] at hothers
          cases hothers
          exact absurd hsame hticks

/-- Run lemma: the board has the claims of all processes, and no warning is taken back. -/
theorem collectOwners_board {looks : ℕ → SocketLook} {processes : List StableProcess}
    {s s' : List String × Board (List Char) Owner} (h : collectOwners looks processes s = .ok s') :
    (s'.1 = [] → s.1 = []) ∧ ∃ claims, s'.2 = s.2.claimAll claims ∧ ∀ inode owner,
      (inode, owner) ∈ claims ↔ ∃ process ∈ processes, Holds process (looks process.pid) inode owner := by
  induction processes generalizing s with
  | nil =>
    cases h
    exact ⟨id, [], rfl, by simp⟩
  | cons process processes ih =>
    obtain ⟨added, hadded, h⟩ := bind_ok.1 h
    obtain ⟨hwarnings, claims, hboard, hclaims⟩ := ih h
    refine ⟨fun hnone => (List.append_eq_nil_iff.1 (hwarnings hnone)).1, added.2 ++ claims, ?_, fun inode owner => ?_⟩
    · rw [hboard, claimAll_append]
    · rw [List.mem_append, processClaims_mem hadded, hclaims]
      simp only [List.mem_cons, exists_eq_or_imp]

/-! ### The lines of a table -/

/-- What is shown of a socket. -/
def connection (board : Board (List Char) Owner) (protocol : SocketProtocol) (socket : KernelSocket) : Connection where
  protocol := protocol
  local_ := ntop socket.localAddress ++ ':' :: Nat.toDigits 10 socket.localPort
  remote := ntop socket.remoteAddress ++ ':' :: Nat.toDigits 10 socket.remotePort
  state := stateName (Py.hexBytes [socket.state])
  inode := Nat.toDigits 10 socket.inode
  owner := board.owners (Nat.toDigits 10 socket.inode)

variable {board : Board (List Char) Owner} {maximum : ℕ} {protocol : SocketProtocol}

variable (board) in
/-- A described line is long enough, and is read as its socket. -/
theorem connectionOf_described {socket : KernelSocket} {line : List Char} (h : Describes protocol socket line) :
    10 ≤ (Py.split line).length ∧
      connectionOf board protocol (Py.split line) = some (connection board protocol socket) := by
  obtain ⟨number, between, more, hfields, hlength⟩ := h.fields
  have hlocal := decode_endpointText socket.localAddress h.localPort
  have hremote := decode_endpointText socket.remoteAddress h.remotePort
  rw [h.localFamily] at hlocal
  rw [h.remoteFamily] at hremote
  have hinode : (Py.split line).getD 9 [] = Nat.toDigits 10 socket.inode := by
    rw [hfields]
    simp [List.getD_eq_getElem?_getD, hlength]
  refine ⟨by rw [hfields]; simp [hlength]; omega, ?_⟩
  rw [connectionOf, hinode, hfields]
  simp only [List.cons_append, List.getD_cons_succ, List.getD_cons_zero, hlocal, hremote, Option.bind_eq_bind,
    Option.bind_some]
  rfl

/-- Run lemma over a table: its sockets are added in order, all of them unless there are enough. -/
theorem readLines_described {sockets : List KernelSocket} {lines : List (List Char)}
    (h : List.Forall₂ (Describes protocol) sockets lines) (s : Collected) :
    ∃ shown, shown <+: sockets ∧
      (readLines board maximum protocol lines s).1 =
        { s with items := s.items ++ shown.map (connection board protocol) } ∧
      ((readLines board maximum protocol lines s).2 = false → shown = sockets) := by
  induction h generalizing s with
  | nil => exact ⟨[], List.prefix_refl _, by simp [readLines], fun _ => rfl⟩
  | @cons socket line sockets lines hline hlines ih =>
    obtain ⟨hlong, hread⟩ := connectionOf_described board hline
    have hadded : s.line board protocol (Py.split line) =
        { s with items := s.items ++ [connection board protocol socket] } := by
      rw [Collected.line, hread]
    rw [readLines, if_neg (Nat.not_lt.2 hlong), hadded]
    split
    · exact ⟨[socket], by simp, rfl, fun hfalse => by cases hfalse⟩
    · obtain ⟨shown, hprefix, hitems, hall⟩ := ih { s with items := s.items ++ [connection board protocol socket] }
      refine ⟨socket :: shown, List.cons_prefix_cons.2 ⟨rfl, hprefix⟩, ?_, fun hfalse => by rw [hall hfalse]⟩
      rw [hitems]
      simp

/-! ### All tables -/

/-- The sockets of the tables that can be read, in the order of the protocols. -/
def listed (tables : SocketProtocol → TableRead) (sockets : SocketProtocol → List KernelSocket) :
    List SocketProtocol → List (SocketProtocol × KernelSocket)
  | [] => []
  | protocol :: rest =>
    match tables protocol with
    | .lines _ => (sockets protocol).map (Prod.mk protocol) ++ listed tables sockets rest
    | _ => listed tables sockets rest

variable (board maximum) in
/-- Run lemma over the tables. -/
theorem readTables_described (late : SocketProtocol → Bool) {tables : SocketProtocol → TableRead}
    {sockets : SocketProtocol → List KernelSocket}
    (htables : ∀ protocol rows, tables protocol = .lines rows →
      List.Forall₂ (Describes protocol) (sockets protocol) (rows.drop 1))
    (rest : List SocketProtocol) (s : Collected) :
    ∃ shown, shown <+: listed tables sockets rest ∧
      (readTables board maximum late tables rest s).items =
        s.items ++ shown.map (fun entry => connection board entry.1 entry.2) ∧
      ((readTables board maximum late tables rest s).partial_ = false →
        s.warnings = [] ∧ shown = listed tables sockets rest ∧
          ∀ protocol ∈ rest, ∃ rows, tables protocol = .lines rows) := by
  have hstop : ∀ (s : Collected) reason, ((s.stop reason).partial_ = false → False) := fun _ _ h => by cases h
  induction rest generalizing s with
  | nil =>
    refine ⟨[], List.prefix_refl _, (List.append_nil _).symm, fun hpartial => ⟨?_, rfl, by simp⟩⟩
    simpa [readTables] using hpartial
  | cons protocol rest ih =>
    rw [readTables, listed]
    by_cases hlate : late protocol = true
    · rw [if_pos hlate]
      exact ⟨[], List.nil_prefix, (List.append_nil _).symm, fun hpartial => (hstop _ _ hpartial).elim⟩
    rw [if_neg hlate]
    cases htable : tables protocol with
    | missing =>
      obtain ⟨shown, hprefix, hitems, hwhole⟩ := ih (s.warn (protocol.path ++ " 不可用"))
      refine ⟨shown, hprefix, hitems, fun hpartial => ?_⟩
      exact absurd (hwhole hpartial).1 (List.append_ne_nil_of_right_ne_nil _ (List.cons_ne_nil _ _))
    | denied =>
      obtain ⟨shown, hprefix, hitems, hwhole⟩ := ih (s.warn ("无权读取 " ++ protocol.path))
      refine ⟨shown, hprefix, hitems, fun hpartial => ?_⟩
      exact absurd (hwhole hpartial).1 (List.append_ne_nil_of_right_ne_nil _ (List.cons_ne_nil _ _))
    | lines rows =>
      obtain ⟨here, hhere, hread, hfull⟩ := readLines_described (htables protocol rows htable) s
      have hmap : (here.map (Prod.mk protocol)).map (fun entry => connection board entry.1 entry.2) =
          here.map (connection board protocol) := by
        rw [List.map_map]
        rfl
      dsimp only
      by_cases hmore : (readLines board maximum protocol (rows.drop 1) s).2 = true
      · rw [if_pos hmore]
        refine ⟨here.map (Prod.mk protocol), ?_, ?_, fun hpartial => (hstop _ _ hpartial).elim⟩
        · exact (hhere.map _).trans (List.prefix_append _ _)
        · rw [hmap, Collected.stop, hread]
      · rw [if_neg hmore]
        obtain ⟨shown, hprefix, hitems, hwhole⟩ := ih (readLines board maximum protocol (rows.drop 1) s).1
        have hall := hfull (by simpa using hmore)
        refine ⟨here.map (Prod.mk protocol) ++ shown, ?_, ?_, fun hpartial => ?_⟩
        · rw [hall]
          exact (List.prefix_append_right_inj _).2 hprefix
        · rw [hitems, hread, List.map_append, hmap, List.append_assoc]
        · obtain ⟨hwarnings, hshown, hread'⟩ := hwhole hpartial
          rw [hread] at hwarnings
          refine ⟨hwarnings, by rw [hall, hshown], fun other hother => ?_⟩
          rcases List.mem_cons.1 hother with rfl | hother
          · exact ⟨rows, htable⟩
          · exact hread' other hother

/-! ### The rows of the helper -/

theorem splitEndpoint_text (a : Address) (port : ℕ) :
    splitEndpoint (ntop a ++ ':' :: Nat.toDigits 10 port) = .ok (ntop a, (port : ℤ)) := by
  rw [splitEndpoint, Py.rsplit_append _ (Py.notMem_toDigits port)]
  change (orThrow (Py.int? 10 (Nat.toDigits 10 port)) _ >>= fun port => pure (ntop a, port)) = _
  rw [Py.int?_decimal]
  rfl

/-- A row says what the kernel has of a socket, and names the one process that has it open, if it is one. -/
structure Shows (processes : List StableProcess) (looks : ℕ → SocketLook) (entry : SocketProtocol × KernelSocket)
    (row : SocketRow) : Prop where
  protocol : row.protocol = entry.1
  localAddress : address row.localAddress = some entry.2.localAddress
  localPort : row.localPort = entry.2.localPort
  remoteAddress : address row.remoteAddress = some entry.2.remoteAddress
  remotePort : row.remotePort = entry.2.remotePort
  state : row.state = stateName (Py.hexBytes [entry.2.state])
  inode : row.inode = Nat.toDigits 10 entry.2.inode
  owner : ∀ owner, row.owner = some owner ↔
    (∃ process ∈ processes, Holds process (looks process.pid) row.inode owner) ∧
      ∀ other, (∃ process ∈ processes, Holds process (looks process.pid) row.inode other) → other = owner

theorem shows_of_row {processes : List StableProcess} {looks : ℕ → SocketLook} {claims : List (List Char × Owner)}
    (hboard : board = Board.empty.claimAll claims) (hclaims : ∀ inode owner,
      (inode, owner) ∈ claims ↔ ∃ process ∈ processes, Holds process (looks process.pid) inode owner)
    {entry : SocketProtocol × KernelSocket} {row : SocketRow}
    (h : v2_socket_row (connection board entry.1 entry.2) = .ok row) : Shows processes looks entry row := by
  rw [v2_socket_row, connection, splitEndpoint_text, splitEndpoint_text] at h
  cases h
  refine ⟨rfl, address_ntop _, rfl, address_ntop _, rfl, rfl, rfl, fun owner => ?_⟩
  rw [hboard, owners_eq_some, hclaims]
  refine and_congr_right fun _ => forall_congr' fun other => ?_
  rw [hclaims]

/-- The rows show the sockets of the tables in order, from the first one on; rows that are not partial show all sockets
    of all tables. -/
theorem socketRows_shown {host : Host} {deadline : ℕ → Bool} {entries : List Entry} {looks : ℕ → SocketLook}
    {late : SocketProtocol → Bool} {tables : SocketProtocol → TableRead}
    {sockets : SocketProtocol → List KernelSocket}
    (htables : ∀ protocol rows, tables protocol = .lines rows →
      List.Forall₂ (Describes protocol) (sockets protocol) (rows.drop 1))
    {rows : List SocketRow} {warnings : List String} {partial_ : Bool}
    (h : socketRows host deadline entries looks late tables = .ok (rows, warnings, partial_)) :
    ∃ listing, enumerate_stable_processes host deadline 5000 false false entries = .ok listing ∧
      ∃ shown, shown <+: listed tables sockets protocols ∧
        List.Forall₂ (Shows listing.items looks) shown rows ∧
        (partial_ = false → listing.partial_ = false ∧ shown = listed tables sockets protocols ∧
          ∀ protocol, ∃ rows, tables protocol = .lines rows) := by
  obtain ⟨connections, hconnections, h⟩ := bind_ok.1 h
  obtain ⟨read, hread, h⟩ := bind_ok.1 h
  cases h
  obtain ⟨listing, hlisting, h⟩ := bind_ok.1 hconnections
  obtain ⟨owners, howners, h⟩ := bind_ok.1 h
  cases h
  obtain ⟨hwarnings, claims, hboard, hclaims⟩ := collectOwners_board howners
  obtain ⟨shown, hprefix, hitems, hwhole⟩ := readTables_described owners.2 20000 late htables protocols
    { items := [], warnings := owners.1 }
  refine ⟨listing, hlisting, shown, hprefix, ?_, fun hpartial => ?_⟩
  · have hrows := forall₂_of_mapM (R := fun item row => v2_socket_row item = .ok row) (fun _ _ h => h) hread
    rw [hitems, List.nil_append, List.forall₂_map_left_iff] at hrows
    exact hrows.imp fun entry row hrow => shows_of_row hboard hclaims hrow
  · obtain ⟨hnone, hshown, hlines⟩ := hwhole hpartial
    refine ⟨?_, hshown, fun protocol => hlines protocol (by cases protocol <;> decide)⟩
    have hfirst := hwarnings hnone
    by_contra hlisted
    rw [if_pos (by simpa using hlisted)] at hfirst
    exact List.append_ne_nil_of_right_ne_nil _ (List.cons_ne_nil _ _) hfirst

def sampleSocket : KernelSocket where
  localAddress := .v4 ⟨[127, 0, 0, 1], rfl, by decide⟩
  localPort := 22
  remoteAddress := .v4 ⟨[0, 0, 0, 0], rfl, by decide⟩
  remotePort := 0
  state := 10
  inode := 99

def sampleTable : List Char :=
  "0: 0100007F:0016 00000000:0000 0A 00000000:00000000 00:00000000 00000000 0 0 99 1".toList

def sampleTables : SocketProtocol → TableRead
  | .tcp => .lines ["sl local_address".toList, sampleTable]
  | _ => .lines []

def sampleSockets : SocketProtocol → List KernelSocket
  | .tcp => [sampleSocket]
  | _ => []

def sampleSocketLook : SocketLook where
  pidNamespace := .ok "pid:[4026531836]".toList
  descriptors := .ok ["/dev/null".toList, "socket:[99]".toList]
  stat := .ok sampleLine

theorem sample_described : ∀ protocol rows, sampleTables protocol = .lines rows →
    List.Forall₂ (Describes protocol) (sampleSockets protocol) (rows.drop 1) := by
  intro protocol rows hrows
  cases protocol <;> cases hrows
  · refine .cons ⟨rfl, rfl, by decide, by decide, "0:".toList, ["00000000:00000000".toList, "00:00000000".toList,
      "00000000".toList, ['0'], ['0']], [['1']], ?_, rfl⟩ .nil
    decide
  · exact .nil
  · exact .nil
  · exact .nil

theorem socketRows_shown_sample : ∃ rows warnings,
    socketRows sampleHost (fun _ => false) sampleEntries (fun _ => sampleSocketLook) (fun _ => false) sampleTables =
      .ok (rows, warnings, false) ∧
    rows.map (fun row => row.owner.map Owner.processPid) = [some 7] ∧
    ∃ listing, enumerate_stable_processes sampleHost (fun _ => false) 5000 false false sampleEntries = .ok listing ∧
      ∃ shown, shown <+: listed sampleTables sampleSockets protocols ∧
        List.Forall₂ (Shows listing.items fun _ => sampleSocketLook) shown rows ∧
        (false = false → listing.partial_ = false ∧ shown = listed sampleTables sampleSockets protocols ∧
          ∀ protocol, ∃ rows, sampleTables protocol = .lines rows) :=
  ⟨_, _, rfl, rfl, @socketRows_shown sampleHost (fun _ => false) sampleEntries (fun _ => sampleSocketLook)
    (fun _ => false) sampleTables sampleSockets sample_described _ _ _ rfl⟩

end HuntWarden.Helper.Sockets
