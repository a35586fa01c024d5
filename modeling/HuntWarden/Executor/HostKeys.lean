import HuntWarden.Lib.Base64
import HuntWarden.Lib.Js
import HuntWarden.Lib.Runs
import Mathlib.Logic.Function.Basic

/-! Host keys. A key that an analyst confirms is added to `known_hosts` as a line of its own. Several confirmations
    may be under way, others may edit the file meanwhile, and each step may be the last. A host key is trusted only
    when it was confirmed by its own fingerprint or somebody else wrote it down. -/

namespace HuntWarden.HostKeys

open Runs

abbrev Key := List ℕ

inductive HostKeyTrustStatus where
  | trusted | unknown | changed | revoked
  deriving DecidableEq

structure KnownHostEntry where
  marker : Option (List Char)
  hosts : List (List Char)
  algorithm : List Char
  publicKey : Key
  deriving DecidableEq

/-- `createHmac("sha1", salt)`, the SHA-256 fingerprint, and how a pattern compares letters (flags `i` and `u`). -/
structure Primitives where
  hmacSha1 : Key → List Char → Key
  hostKeyFingerprint : Key → List Char
  fold : Char → Char

def knownHostToken (host : List Char) (port : ℕ) : List Char :=
  if port = 22 then host else '[' :: host ++ ']' :: ':' :: Nat.toDigits 10 port

/-- `none` where it throws. -/
def parseSshString : Key → Option (List Char)
  | a :: b :: c :: d :: rest =>
    if ((a * 256 + b) * 256 + c) * 256 + d < 1 ∨ rest.length < ((a * 256 + b) * 256 + c) * 256 + d ∨
        256 < ((a * 256 + b) * 256 + c) * 256 + d then none
    else some ((rest.take (((a * 256 + b) * 256 + c) * 256 + d)).map fun byte => Char.ofNat (byte % 128))
  | _ => none

/-- `line.trim().split(/\s+/u)`, without the empty field of an empty line. -/
def fieldsOf (line : List Char) : List (List Char) := (line.splitOnP Js.isSpace).filter fun field => !field.isEmpty

def entryOf (marker : Option (List Char)) : List (List Char) → Option KnownHostEntry
  | hostField :: algorithm :: encoded :: _ =>
    if Base64.decode encoded = [] ∨ parseSshString (Base64.decode encoded) ≠ some algorithm then none
    else some ⟨marker, hostField.splitOn ',', algorithm, Base64.decode encoded⟩
  | _ => none

def parseLine (line : List Char) : Option KnownHostEntry :=
  match fieldsOf line with
  | [] => none
  | first :: rest =>
    match first.head? with
    | some '#' => none
    | some '@' => entryOf (some first) rest
    | _ => entryOf none (first :: rest)

/-- The carriage return before a line end goes with the white space around the line. -/
def parseKnownHosts (text : List Char) : List KnownHostEntry := (text.splitOn '\n').filterMap parseLine

variable (prims : Primitives)

def isLineEnd (ch : Char) : Bool := ch.toNat ∈ [0x0A, 0x0D, 0x2028, 0x2029]

/-- A pattern with `*` and `?`, the whole text, letters by their fold. -/
def wildcardMatches : List Char → List Char → Bool
  | [], text => text.isEmpty
  | '*' :: pattern, text => (List.range (text.length + 1)).any fun n =>
    (text.take n).all (fun ch => !isLineEnd ch) && wildcardMatches pattern (text.drop n)
  | '?' :: pattern, ch :: text => !isLineEnd ch && wildcardMatches pattern text
  | p :: pattern, ch :: text => prims.fold p = prims.fold ch && wildcardMatches pattern text
  | _ :: _, [] => false

/-- `|1|salt|hash` -/
def hashedHostMatches (pattern candidate : List Char) : Bool :=
  match pattern.splitOn '|' with
  | [before, one, salt, hash] =>
    before = [] && one = ['1'] && !salt.isEmpty && !hash.isEmpty &&
      Base64.decode hash = prims.hmacSha1 (Base64.decode salt) candidate
  | _ => false

def hostPatternMatches (pattern : List Char) (candidates : List (List Char)) : Bool :=
  candidates.any fun candidate =>
    if pattern.take 3 = ['|', '1', '|'] then hashedHostMatches prims pattern candidate
    else wildcardMatches prims pattern candidate

def negated? : List Char → Option (List Char)
  | '!' :: pattern => some pattern
  | _ => none

def entryMatches (entry : KnownHostEntry) (candidates : List (List Char)) : Bool :=
  !(entry.hosts.any fun pattern => (negated? pattern).any fun pattern => hostPatternMatches prims pattern candidates) &&
    entry.hosts.any fun pattern => (negated? pattern).isNone && hostPatternMatches prims pattern candidates

def certAuthority : List Char := "@cert-authority".toList
def revokedMarker : List Char := "@revoked".toList

structure Trust where
  trustStatus : HostKeyTrustStatus
  matchedHostTokens : List (List Char)
  existingFingerprints : List (List Char)
  deriving DecidableEq

/-- What the host is called in the file: its name and its addresses. -/
def tokensOf (host : List Char) (port : ℕ) (addresses : List (List Char)) : List (List Char) :=
  (knownHostToken host port :: addresses.map fun address => knownHostToken address port).eraseDups

/-- The entries that speak of the host. -/
def entriesFor (text : List Char) (tokens : List (List Char)) : List KnownHostEntry :=
  (parseKnownHosts text).filter fun entry => entry.marker ≠ some certAuthority && entryMatches prims entry tokens

def evaluateKnownHosts (text : List Char) (tokens : List (List Char)) (publicKey : Key) : Trust :=
  let entries := entriesFor prims text tokens
  let matchedHostTokens := entries.flatMap KnownHostEntry.hosts
  let sameKey := entries.filter fun entry => entry.publicKey = publicKey
  let existingFingerprints := (entries.map fun entry => prims.hostKeyFingerprint entry.publicKey).eraseDups
  if sameKey.any fun entry => entry.marker = some revokedMarker then
    ⟨.revoked, matchedHostTokens, existingFingerprints⟩
  else if sameKey.any fun entry => entry.marker ≠ some revokedMarker then
    ⟨.trusted, matchedHostTokens, existingFingerprints⟩
  else if entries ≠ [] then ⟨.changed, matchedHostTokens, existingFingerprints⟩
  else ⟨.unknown, [], []⟩

/-! ### Confirming -/

/-- What a confirmation asks for, and what is found on the network. -/
structure Ask where
  host : List Char
  port : ℕ
  expectedFingerprint : List Char
  addresses : List (List Char)
  publicKey : Key
  bytes : Base64.IsBytes publicKey

namespace Ask

def token (ask : Ask) : List Char := knownHostToken ask.host ask.port

def tokens (ask : Ask) : List (List Char) := tokensOf ask.host ask.port ask.addresses

/-- `validateInput` -/
def valid (ask : Ask) : Bool :=
  ask.host.all (fun ch => !Js.isSpace ch && ch ≠ '\x00') && !ask.host.isEmpty &&
    ((Js.codeUnits (String.ofList ask.host)).length ≤ 253 : Bool) && decide (1 ≤ ask.port) && decide (ask.port ≤ 65535)

def note : List Char := "huntwarden-confirmed".toList

def line (ask : Ask) (algorithm : List Char) : List Char :=
  ask.token ++ ' ' :: (algorithm ++ ' ' :: (Base64.encode ask.publicKey ++ ' ' :: note))

end Ask

/-- `prefix + line` -/
def withLine (current line : List Char) : List Char :=
  (if current ≠ [] ∧ current.getLast? ≠ some '\n' then current ++ ['\n'] else current) ++ (line ++ ['\n'])

/-- Where a confirmation is. -/
inductive Stage where
  | idle
  | appending (ask : Ask) (algorithm : List Char)
  | writing (ask : Ask) (algorithm current : List Char)
  | written (ask : Ask)
  | answered (trust : Trust)
  | failed

/-- The file, the confirmations, and for the statements what others wrote and what was confirmed. -/
structure State where
  file : Option (List Char)
  stage : ℕ → Stage
  outside : List (List Char)
  confirmed : List Ask

inductive Event where
  | edit (text : Option (List Char))
  | confirm (call : ℕ) (ask : Ask)
  | readCurrent (call : ℕ)
  | rename (call : ℕ)
  | verify (call : ℕ)
  /-- A step throws, or the program ends. -/
  | fail (call : ℕ)

def initial (file : Option (List Char)) : State := ⟨file, fun _ => .idle, file.toList, []⟩

def State.go (s : State) (call : ℕ) (stage : Stage) : State := { s with stage := Function.update s.stage call stage }

/-- What is found, and whether a line is needed. -/
def confirm (s : State) (call : ℕ) (ask : Ask) : State :=
  match ask.valid, parseSshString ask.publicKey with
  | true, some algorithm =>
    let trust := evaluateKnownHosts prims (s.file.getD []) ask.tokens ask.publicKey
    if prims.hostKeyFingerprint ask.publicKey ≠ ask.expectedFingerprint then s.go call .failed
    else
      match trust.trustStatus with
      | .changed | .revoked => s.go call .failed
      | .trusted => s.go call (.answered trust)
      | .unknown => { s with confirmed := ask :: s.confirmed }.go call (.appending ask algorithm)
  | _, _ => s.go call .failed

def step (s : State) : Event → State
  | .edit text => { s with file := text, outside := text.toList ++ s.outside }
  | .confirm call ask =>
    match s.stage call with
    | .idle => confirm prims s call ask
    | _ => s
  | .readCurrent call =>
    match s.stage call with
    | .appending ask algorithm => s.go call (.writing ask algorithm (s.file.getD []))
    | _ => s
  | .rename call =>
    match s.stage call with
    | .writing ask algorithm current =>
      { s with file := some (withLine current (ask.line algorithm)) }.go call (.written ask)
    | _ => s
  | .verify call =>
    match s.stage call, s.file with
    | .written ask, some text =>
      let trust := evaluateKnownHosts prims text ask.tokens ask.publicKey
      if trust.trustStatus = .trusted then s.go call (.answered trust) else s.go call .failed
    | .written _, none => s.go call .failed
    | _, _ => s
  | .fail call => s.go call .failed

/-! ### The line of a confirmation -/

variable {prims} {ask : Ask} {algorithm current text : List Char}

/-- The entry of a confirmed key. -/
def Ask.entry (ask : Ask) (algorithm : List Char) : KnownHostEntry :=
  ⟨none, [ask.token], algorithm, ask.publicKey⟩

/-- A name that is one field of a line, and one host of the field. -/
structure Plain (ask : Ask) : Prop where
  head : ask.token.head? ≠ some '#' ∧ ask.token.head? ≠ some '@'
  single : ',' ∉ ask.token
  algorithm : ∀ algorithm, parseSshString ask.publicKey = some algorithm → ∀ ch ∈ algorithm, Js.isSpace ch = false

theorem fieldsOf_cons {field : List Char} (hfield : ∀ ch ∈ field, Js.isSpace ch = false) (hne : field ≠ [])
    (rest : List Char) : fieldsOf (field ++ ' ' :: rest) = field :: fieldsOf rest := by
  rw [fieldsOf, List.splitOnP_append_cons_of_forall_mem hfield ' ' (by decide), List.filter_cons, if_pos, fieldsOf]
  simpa using hne

theorem fieldsOf_single {field : List Char} (hfield : ∀ ch ∈ field, Js.isSpace ch = false) (hne : field ≠ []) :
    fieldsOf field = [field] := by
  rw [fieldsOf, List.splitOnP_eq_singleton hfield, List.filter_cons, if_pos (by simpa using hne), List.filter_nil]

theorem parse_append (before after : List Char) :
    parseKnownHosts (before ++ '\n' :: after) = parseKnownHosts before ++ parseKnownHosts after := by
  simp only [parseKnownHosts, List.splitOn_eq_splitOnP]
  rw [List.splitOnP_append_cons before after (by decide), List.filterMap_append]

theorem parse_nil : parseKnownHosts [] = [] := rfl

theorem parse_line {line : List Char} (hline : '\n' ∉ line) : parseKnownHosts line = (parseLine line).toList := by
  have hsingle : line.splitOnP (· == '\n') = [line] :=
    List.splitOnP_eq_singleton fun ch hch => by
      have hne : ch ≠ '\n' := fun h => hline (h ▸ hch)
      simpa using hne
  rw [parseKnownHosts, List.splitOn_eq_splitOnP, hsingle]
  cases hentry : parseLine line <;> simp [hentry]

/-- A line at the end of a text comes after the entries that are there. -/
theorem parse_withLine {line : List Char} (hline : '\n' ∉ line) :
    parseKnownHosts (withLine current line) = parseKnownHosts current ++ (parseLine line).toList := by
  have hlast : parseKnownHosts (line ++ ['\n']) = (parseLine line).toList := by
    rw [parse_append, parse_nil, List.append_nil, parse_line hline]
  rw [withLine]
  by_cases hopen : current ≠ [] ∧ current.getLast? ≠ some '\n'
  · rw [if_pos hopen, List.append_assoc, List.singleton_append, parse_append, hlast]
  · rw [if_neg hopen]
    rcases List.eq_nil_or_concat current with rfl | ⟨before, last, rfl⟩
    · rw [List.nil_append, hlast, parse_nil, List.nil_append]
    · have hend : last = '\n' := by
        by_contra hne
        exact hopen ⟨by simp, by simpa using hne⟩
      subst hend
      rw [List.concat_eq_append, List.append_assoc, List.singleton_append, parse_append before (line ++ ['\n']), hlast,
        parse_append before [], parse_nil, List.append_nil]

theorem algorithm_ne_nil {key : Key} (h : parseSshString key = some algorithm) : algorithm ≠ [] := by
  unfold parseSshString at h
  split at h
  · split at h
    · cases h
    · rename_i a b c d rest hlength
      cases h
      intro hnil
      have hlen := congrArg List.length hnil
      simp only [List.length_map, List.length_take, List.length_nil] at hlen
      omega
  · cases h

theorem key_ne_nil {key : Key} (h : parseSshString key = some algorithm) : key ≠ [] := by
  rintro rfl
  cases h

theorem notSpace_of_range {ch : Char} (hlow : 33 ≤ ch.toNat) (hhigh : ch.toNat ≤ 126) : Js.isSpace ch = false := by
  simp only [Js.isSpace, Bool.or_eq_false_iff, decide_eq_false_iff_not, List.mem_cons, List.not_mem_nil, or_false,
    Bool.and_eq_false_iff]
  omega

/-- Of the characters that are written, none is white space. -/
theorem notSpace_of_digit {ch : Char} (h : Base64.isDigit ch = true) : Js.isSpace ch = false := by
  obtain ⟨hlow, hhigh⟩ := Base64.range_of_isDigit h
  exact notSpace_of_range (by omega) (by omega)

theorem notSpace_of_decimal {ch : Char} {n : ℕ} (h : ch ∈ Nat.toDigits 10 n) : Js.isSpace ch = false := by
  have hdigit : ch.isDigit = true := Nat.isDigit_of_mem_toDigits (by omega) (by omega) h
  rw [Char.isDigit, Bool.and_eq_true, decide_eq_true_eq, decide_eq_true_eq] at hdigit
  have hlow : 48 ≤ ch.toNat := hdigit.1
  have hhigh : ch.toNat ≤ 57 := hdigit.2
  exact notSpace_of_range (by omega) (by omega)

theorem Ask.valid_host (h : ask.valid = true) : (∀ ch ∈ ask.host, Js.isSpace ch = false) ∧ ask.host ≠ [] := by
  simp only [Ask.valid, Bool.and_eq_true, List.all_eq_true, Bool.not_eq_true'] at h
  exact ⟨fun ch hch => (h.1.1.1.1 ch hch).1, by simpa using h.1.1.1.2⟩

theorem token_notSpace (h : ask.valid = true) : ∀ ch ∈ ask.token, Js.isSpace ch = false := by
  obtain ⟨hhost, -⟩ := ask.valid_host h
  intro ch hch
  rw [Ask.token, knownHostToken] at hch
  by_cases hport : ask.port = 22
  · rw [if_pos hport] at hch
    exact hhost ch hch
  · rw [if_neg hport] at hch
    simp only [List.mem_append, List.mem_cons] at hch
    rcases hch with (rfl | hch) | rfl | rfl | hch
    · decide
    · exact hhost ch hch
    · decide
    · decide
    · exact notSpace_of_decimal hch

theorem token_ne_nil (h : ask.valid = true) : ask.token ≠ [] := by
  rw [Ask.token, knownHostToken]
  by_cases hport : ask.port = 22
  · rw [if_pos hport]
    exact (ask.valid_host h).2
  · rw [if_neg hport]
    exact List.cons_ne_nil _ _

theorem not_newline {line : List Char} (h : ∀ ch ∈ line, Js.isSpace ch = false) : '\n' ∉ line := fun hmem =>
  absurd (h _ hmem) (by decide)

/-- The line of a confirmed key is read as the entry of that key for that host, unmarked. -/
theorem parseLine_line (hvalid : ask.valid = true) (hplain : Plain ask)
    (halgorithm : parseSshString ask.publicKey = some algorithm) :
    parseLine (ask.line algorithm) = some (ask.entry algorithm) ∧ '\n' ∉ ask.line algorithm := by
  have htoken := token_notSpace hvalid
  have hname := hplain.algorithm algorithm halgorithm
  have hkey : ∀ ch ∈ Base64.encode ask.publicKey, Js.isSpace ch = false := fun ch hch =>
    notSpace_of_digit (Base64.encode_digits ask.bytes ch hch)
  have hnote : ∀ ch ∈ Ask.note, Js.isSpace ch = false := by
    have hall : Ask.note.all (fun ch => !Js.isSpace ch) = true := by decide
    simpa using hall
  have hfields : fieldsOf (ask.line algorithm) =
      [ask.token, algorithm, Base64.encode ask.publicKey, Ask.note] := by
    rw [Ask.line, fieldsOf_cons htoken (token_ne_nil hvalid), fieldsOf_cons hname (algorithm_ne_nil halgorithm),
      fieldsOf_cons hkey (Base64.encode_ne_nil (key_ne_nil halgorithm)), fieldsOf_single hnote (by decide)]
  have hentry : entryOf none [ask.token, algorithm, Base64.encode ask.publicKey, Ask.note] =
      some (ask.entry algorithm) := by
    have hhosts : ask.token.splitOn ',' = [ask.token] := by
      rw [List.splitOn_eq_splitOnP]
      exact List.splitOnP_eq_singleton fun ch hch => by
        have hne : ch ≠ ',' := fun h => hplain.single (h ▸ hch)
        simpa using hne
    rw [entryOf, Base64.decode_encode ask.bytes, if_neg, hhosts, Ask.entry]
    rintro (hnil | hother)
    · exact key_ne_nil halgorithm hnil
    · exact hother halgorithm
  refine ⟨?_, ?_⟩
  · rw [parseLine, hfields]
    dsimp only
    split
    · rename_i hhead
      exact absurd hhead hplain.head.1
    · rename_i hhead
      exact absurd hhead hplain.head.2
    · exact hentry
  · intro hmem
    simp only [Ask.line, List.mem_append, List.mem_cons] at hmem
    rcases hmem with hmem | hmem | hmem | hmem | hmem | hmem | hmem
    · exact not_newline htoken hmem
    · cases hmem
    · exact not_newline hname hmem
    · cases hmem
    · exact not_newline hkey hmem
    · cases hmem
    · exact not_newline hnote hmem

/-! ### Where trust comes from -/

/-- An entry that somebody else wrote, or that of a key an analyst confirmed. -/
def Backed (s : State) (entry : KnownHostEntry) : Prop :=
  (∃ text ∈ s.outside, entry ∈ parseKnownHosts text) ∨ ∃ ask ∈ s.confirmed, ∃ algorithm, entry = ask.entry algorithm

/-- Hosts and algorithms have the names that hosts and algorithms have. -/
def Named (_ : State) : Event → Prop
  | .confirm _ ask => Plain ask
  | _ => True

/-- A confirmation that writes is one that was checked. -/
structure Checked (s : State) (ask : Ask) (algorithm : List Char) : Prop where
  confirmed : ask ∈ s.confirmed
  valid : ask.valid = true
  plain : Plain ask
  algorithm : parseSshString ask.publicKey = some algorithm

variable (prims) in
structure Inv (s : State) : Prop where
  confirmed : ∀ ask ∈ s.confirmed, prims.hostKeyFingerprint ask.publicKey = ask.expectedFingerprint
  file : ∀ text, s.file = some text → ∀ entry ∈ parseKnownHosts text, Backed s entry
  held : ∀ call ask algorithm current, s.stage call = .writing ask algorithm current →
    ∀ entry ∈ parseKnownHosts current, Backed s entry
  appending : ∀ call ask algorithm, s.stage call = .appending ask algorithm → Checked s ask algorithm
  writing : ∀ call ask algorithm current, s.stage call = .writing ask algorithm current → Checked s ask algorithm

variable {s s' : State} {call : ℕ} {stage : Stage}

theorem Backed.mono (houtside : s.outside ⊆ s'.outside) (hconfirmed : s.confirmed ⊆ s'.confirmed)
    {entry : KnownHostEntry} : Backed s entry → Backed s' entry := by
  rintro (⟨text, htext, hentry⟩ | ⟨ask, hask, hentry⟩)
  · exact .inl ⟨text, houtside htext, hentry⟩
  · exact .inr ⟨ask, hconfirmed hask, hentry⟩

theorem Checked.mono {ask : Ask} {algorithm : List Char} (h : Checked s ask algorithm)
    (hconfirmed : s.confirmed ⊆ s'.confirmed) : Checked s' ask algorithm :=
  ⟨hconfirmed h.confirmed, h.valid, h.plain, h.algorithm⟩

theorem go_stage_eq {other : ℕ} {after : Stage} (h : (s.go call stage).stage other = after) :
    stage = after ∨ s.stage other = after := by
  by_cases hsame : other = call
  · subst hsame
    simp only [State.go, Function.update_self] at h
    exact .inl h
  · simp only [State.go, Function.update_of_ne hsame] at h
    exact .inr h

theorem inv_initial (file : Option (List Char)) : Inv prims (initial file) where
  confirmed _ hask := by cases hask
  file text htext entry hentry := .inl ⟨text, by
    have hfile : file = some text := htext
    simp [initial, hfile], hentry⟩
  held _ _ _ _ h := by cases h
  appending _ _ _ h := by cases h
  writing _ _ _ _ h := by cases h

theorem Inv.go (h : Inv prims s)
    (hheld : ∀ ask algorithm current, stage = .writing ask algorithm current →
      ∀ entry ∈ parseKnownHosts current, Backed s entry)
    (happending : ∀ ask algorithm, stage = .appending ask algorithm → Checked s ask algorithm)
    (hwriting : ∀ ask algorithm current, stage = .writing ask algorithm current → Checked s ask algorithm) :
    Inv prims (s.go call stage) where
  confirmed := h.confirmed
  file := h.file
  held other ask algorithm current hother := by
    rcases go_stage_eq hother with hnew | hother
    · exact hheld ask algorithm current hnew
    · exact h.held other ask algorithm current hother
  appending other ask algorithm hother := by
    rcases go_stage_eq hother with hnew | hother
    · exact (happending ask algorithm hnew).mono (List.Subset.refl _)
    · exact (h.appending other ask algorithm hother).mono (List.Subset.refl _)
  writing other ask algorithm current hother := by
    rcases go_stage_eq hother with hnew | hother
    · exact (hwriting ask algorithm current hnew).mono (List.Subset.refl _)
    · exact (h.writing other ask algorithm current hother).mono (List.Subset.refl _)

/-- The confirmation is over, or has written its line. -/
theorem Inv.over (h : Inv prims s)
    (hstage : stage = .failed ∨ (∃ trust, stage = .answered trust) ∨ ∃ ask, stage = .written ask) :
    Inv prims (s.go call stage) := by
  rcases hstage with rfl | ⟨trust, rfl⟩ | ⟨ask, rfl⟩ <;> exact h.go (by simp) (by simp) (by simp)

theorem Inv.accepted (h : Inv prims s) {ask : Ask}
    (hfingerprint : prims.hostKeyFingerprint ask.publicKey = ask.expectedFingerprint) :
    Inv prims { s with confirmed := ask :: s.confirmed } := by
  have hmono : ∀ {entry}, Backed s entry → Backed { s with confirmed := ask :: s.confirmed } entry :=
    @Backed.mono s { s with confirmed := ask :: s.confirmed } (List.Subset.refl _) (List.subset_cons_self _ _)
  exact {
    confirmed := fun other hother => by
      rcases List.mem_cons.1 hother with rfl | hother
      · exact hfingerprint
      · exact h.confirmed other hother
    file := fun text htext entry hentry => hmono (h.file text htext entry hentry)
    held := fun call other algorithm current hcall entry hentry =>
      hmono (h.held call other algorithm current hcall entry hentry)
    appending := fun call other algorithm hcall =>
      (h.appending call other algorithm hcall).mono (List.subset_cons_self _ _)
    writing := fun call other algorithm current hcall =>
      (h.writing call other algorithm current hcall).mono (List.subset_cons_self _ _) }

theorem Inv.confirm (h : Inv prims s) {ask : Ask} (hplain : Plain ask) : Inv prims (confirm prims s call ask) := by
  rw [HostKeys.confirm]
  split
  · rename_i algorithm hvalid halgorithm
    dsimp only
    split
    · exact h.over (.inl rfl)
    · rename_i hfingerprint
      split
      · exact h.over (.inl rfl)
      · exact h.over (.inl rfl)
      · exact h.over (.inr (.inl ⟨_, rfl⟩))
      · refine (h.accepted (not_not.1 hfingerprint)).go (by simp) ?_ (by simp)
        intro other name hother
        cases hother
        exact ⟨List.mem_cons_self, hvalid, hplain, halgorithm⟩
  · exact h.over (.inl rfl)

/-- The new file has the entries that were read, and that of the confirmed key. -/
theorem Inv.renamed (h : Inv prims s) {ask : Ask} {algorithm current : List Char}
    (hcall : s.stage call = .writing ask algorithm current) :
    Inv prims { s with file := some (withLine current (ask.line algorithm)) } where
  confirmed := h.confirmed
  file text htext entry hentry := by
    cases htext
    have hchecked := h.writing call ask algorithm current hcall
    obtain ⟨hline, hend⟩ := parseLine_line hchecked.valid hchecked.plain hchecked.algorithm
    rw [parse_withLine hend, hline, List.mem_append] at hentry
    rcases hentry with hentry | hentry
    · exact h.held call ask algorithm current hcall entry hentry
    · exact .inr ⟨ask, hchecked.confirmed, algorithm, by simpa using hentry⟩
  held := h.held
  appending other ask algorithm hother := (h.appending other ask algorithm hother).mono (List.Subset.refl _)
  writing other ask algorithm current hother :=
    (h.writing other ask algorithm current hother).mono (List.Subset.refl _)

theorem Inv.edited (h : Inv prims s) (text : Option (List Char)) : Inv prims (step prims s (.edit text)) := by
  have hmono : ∀ {entry}, Backed s entry → Backed (step prims s (.edit text)) entry :=
    @Backed.mono s (step prims s (.edit text)) (List.subset_append_right _ _) (List.Subset.refl _)
  exact {
    confirmed := h.confirmed
    file := fun written hwritten entry hentry => .inl ⟨written, by
      have htext : text = some written := hwritten
      simp [step, htext], hentry⟩
    held := fun call ask algorithm current hcall entry hentry =>
      hmono (h.held call ask algorithm current hcall entry hentry)
    appending := fun call ask algorithm hcall =>
      (h.appending call ask algorithm hcall).mono (List.Subset.refl _)
    writing := fun call ask algorithm current hcall =>
      (h.writing call ask algorithm current hcall).mono (List.Subset.refl _) }

theorem Inv.step (h : Inv prims s) {e : Event} (hnamed : Named s e) : Inv prims (step prims s e) := by
  cases e with
  | edit text => exact h.edited text
  | confirm call ask =>
    rw [HostKeys.step]
    split
    · exact h.confirm hnamed
    · exact h
  | readCurrent call =>
    rw [HostKeys.step]
    split
    · rename_i ask algorithm hcall
      have hchecked := h.appending call ask algorithm hcall
      refine h.go ?_ (by simp) ?_
      · intro other name current hother entry hentry
        cases hother
        cases hfile : s.file with
        | none =>
          rw [hfile] at hentry
          cases hentry
        | some text =>
          rw [hfile] at hentry
          exact h.file text hfile entry hentry
      · intro other name current hother
        cases hother
        exact hchecked
    · exact h
  | rename call =>
    rw [HostKeys.step]
    split
    · rename_i ask algorithm current hcall
      exact (h.renamed hcall).over (.inr (.inr ⟨ask, rfl⟩))
    · exact h
  | verify call =>
    rw [HostKeys.step]
    split
    · dsimp only
      split
      · exact h.over (.inr (.inl ⟨_, rfl⟩))
      · exact h.over (.inl rfl)
    · exact h.over (.inl rfl)
    · exact h
  | fail call => exact h.over (.inl rfl)

/-- Some entry for the key is of this kind. -/
theorem any_entry_iff {tokens : List (List Char)} {key : Key} {p : KnownHostEntry → Prop} [DecidablePred p] :
    (((entriesFor prims text tokens).filter fun entry => entry.publicKey = key).any fun entry => p entry) = true ↔
      ∃ entry ∈ entriesFor prims text tokens, entry.publicKey = key ∧ p entry := by
  simp only [List.any_eq_true, List.mem_filter, decide_eq_true_eq, and_assoc]

theorem revoked_iff {tokens : List (List Char)} {key : Key} :
    (evaluateKnownHosts prims text tokens key).trustStatus = .revoked ↔
      ∃ entry ∈ entriesFor prims text tokens, entry.publicKey = key ∧ entry.marker = some revokedMarker := by
  rw [evaluateKnownHosts, ← any_entry_iff]
  constructor
  · intro h
    split at h
    · assumption
    split at h
    · cases h
    split at h <;> cases h
  · intro hany
    rw [if_pos hany]

theorem trusted_iff {tokens : List (List Char)} {key : Key} :
    (evaluateKnownHosts prims text tokens key).trustStatus = .trusted ↔
      (evaluateKnownHosts prims text tokens key).trustStatus ≠ .revoked ∧
        ∃ entry ∈ entriesFor prims text tokens, entry.publicKey = key ∧ entry.marker ≠ some revokedMarker := by
  rw [evaluateKnownHosts, ← any_entry_iff]
  constructor
  · intro h
    refine ⟨by rw [h]; simp, ?_⟩
    split at h
    · cases h
    split at h
    · assumption
    split at h <;> cases h
  · rintro ⟨hnot, hany⟩
    split
    · rename_i hrevoked
      exact absurd (by rw [if_pos hrevoked]) hnot
    · rfl

/-- What makes a key trusted: an entry that others wrote, or a confirmation of this very key for one of the names. -/
inductive Trusted (prims : Primitives) (s : State) (tokens : List (List Char)) (key : Key) : Prop where
  | written {text : List Char} {entry : KnownHostEntry} (outside : text ∈ s.outside)
      (speaks : entry ∈ entriesFor prims text tokens) (ofKey : entry.publicKey = key)
      (kept : entry.marker ≠ some revokedMarker)
  | confirmed {ask : Ask} (asked : ask ∈ s.confirmed) (ofKey : ask.publicKey = key)
      (fingerprint : prims.hostKeyFingerprint key = ask.expectedFingerprint)
      (named : hostPatternMatches prims ask.token tokens = true)

/-- However confirmations and edits interleave and break off, no key is trusted that nobody vouched for. -/
theorem trust_confirmed (file : Option (List Char)) (es : List Event)
    (h : Along (step prims) Named (initial file) es) {tokens : List (List Char)} {key : Key}
    (hfile : (run (step prims) (initial file) es).file = some text)
    (htrusted : (evaluateKnownHosts prims text tokens key).trustStatus = .trusted) :
    Trusted prims (run (step prims) (initial file) es) tokens key := by
  have hinv : Inv prims (run (step prims) (initial file) es) :=
    run_invariant (fun _ _ hinv hnamed => hinv.step hnamed) es _ (inv_initial file) h
  obtain ⟨-, entry, hentry, hkey, hmarker⟩ := trusted_iff.1 htrusted
  obtain ⟨hmem, hspeaks⟩ := List.mem_filter.1 hentry
  rcases hinv.file text hfile entry hmem with ⟨written, hwritten, hfound⟩ | ⟨ask, hask, algorithm, rfl⟩
  · exact .written hwritten (List.mem_filter.2 ⟨hfound, hspeaks⟩) hkey hmarker
  · have hmatches : hostPatternMatches prims ask.token tokens = true := by
      simp only [Bool.and_eq_true, entryMatches, Ask.entry, List.any_cons, List.any_nil, Bool.or_false] at hspeaks
      exact hspeaks.2.2.2
    have hpublic : ask.publicKey = key := hkey
    exact .confirmed hask hpublic (hpublic ▸ hinv.confirmed ask hask) hmatches

def samplePrims : Primitives := ⟨fun salt _ => salt, fun _ => "SHA256:k".toList, Char.toLower⟩

/-- A key of the algorithm `a`. -/
def sampleAsk : Ask where
  host := "web".toList
  port := 2222
  expectedFingerprint := "SHA256:k".toList
  addresses := []
  publicKey := [0, 0, 0, 1, 97, 5]
  bytes := by decide

theorem sampleAsk_plain : Plain sampleAsk where
  head := by decide
  single := by decide
  algorithm algorithm h ch hch := by
    have hname : some ['a'] = some algorithm := h
    rw [← Option.some.inj hname, List.mem_singleton] at hch
    rw [hch]
    decide

def sampleRun : List Event := [.confirm 1 sampleAsk, .readCurrent 1, .rename 1, .verify 1]

theorem trust_confirmed_sample :
    Trusted samplePrims (run (step samplePrims) (initial (some "# hosts".toList)) sampleRun) ["[web]:2222".toList]
      [0, 0, 0, 1, 97, 5] :=
  @trust_confirmed samplePrims _ (some "# hosts".toList) sampleRun ⟨sampleAsk_plain, trivial, trivial, trivial, trivial⟩
    ["[web]:2222".toList] [0, 0, 0, 1, 97, 5] rfl rfl

/-! ### Verdicts that stay -/

def Unedited (s : State) (e : Event) : Prop := Named s e ∧ ∀ text, e ≠ .edit text

/-- What was in the file is still at its beginning, and at that of every text about to take its place. -/
structure Grown (before : List Char) (s : State) : Prop where
  outside : s.outside = [before]
  file : ∃ text, s.file = some text ∧ parseKnownHosts before <+: parseKnownHosts text
  held : ∀ call ask algorithm current, s.stage call = .writing ask algorithm current →
    parseKnownHosts before <+: parseKnownHosts current

theorem Grown.go {before : List Char} (h : Grown before s)
    (hheld : ∀ ask algorithm current, stage = .writing ask algorithm current →
      parseKnownHosts before <+: parseKnownHosts current) : Grown before (s.go call stage) where
  outside := h.outside
  file := h.file
  held other ask algorithm current hother := by
    rcases go_stage_eq hother with hnew | hother
    · exact hheld ask algorithm current hnew
    · exact h.held other ask algorithm current hother

theorem Grown.confirm {before : List Char} (h : Grown before s) (ask : Ask) :
    Grown before (confirm prims s call ask) := by
  rw [HostKeys.confirm]
  split
  · dsimp only
    split
    · exact h.go (by simp)
    split
    · exact h.go (by simp)
    · exact h.go (by simp)
    · exact h.go (by simp)
    · have hconfirmed : Grown before { s with confirmed := ask :: s.confirmed } := ⟨h.outside, h.file, h.held⟩
      exact hconfirmed.go (by simp)
  · exact h.go (by simp)

theorem Grown.step {before : List Char} (hinv : Inv prims s) (h : Grown before s) {e : Event} (he : Unedited s e) :
    Grown before (step prims s e) := by
  cases e with
  | edit text => exact absurd rfl (he.2 text)
  | confirm call ask =>
    rw [HostKeys.step]
    split
    · exact h.confirm ask
    · exact h
  | readCurrent call =>
    rw [HostKeys.step]
    split
    · refine h.go ?_
      intro ask algorithm current hother
      cases hother
      obtain ⟨text, htext, hbefore⟩ := h.file
      rw [htext]
      exact hbefore
    · exact h
  | rename call =>
    rw [HostKeys.step]
    split
    · rename_i ask algorithm current hcall
      have hchecked := hinv.writing call ask algorithm current hcall
      obtain ⟨-, hend⟩ := parseLine_line hchecked.valid hchecked.plain hchecked.algorithm
      have hgrown : parseKnownHosts before <+: parseKnownHosts (withLine current (ask.line algorithm)) := by
        rw [parse_withLine hend]
        exact (h.held call ask algorithm current hcall).trans (List.prefix_append _ _)
      have hfile : Grown before { s with file := some (withLine current (ask.line algorithm)) } :=
        ⟨h.outside, ⟨_, rfl, hgrown⟩, h.held⟩
      exact hfile.go (by simp)
    · exact h
  | verify call =>
    rw [HostKeys.step]
    split
    · dsimp only
      split
      · exact h.go (by simp)
      · exact h.go (by simp)
    · exact h.go (by simp)
    · exact h
  | fail call => exact h.go (by simp)

/-- Confirmations alone, in whatever order, take no trust away and revive no revoked key. -/
theorem verdicts_stay (before : List Char) (es : List Event)
    (h : Along (step prims) Unedited (initial (some before)) es)
    (hfile : (run (step prims) (initial (some before)) es).file = some text) (tokens : List (List Char)) (key : Key) :
    ((evaluateKnownHosts prims text tokens key).trustStatus = .revoked ↔
        (evaluateKnownHosts prims before tokens key).trustStatus = .revoked) ∧
      ((evaluateKnownHosts prims before tokens key).trustStatus = .trusted →
        (evaluateKnownHosts prims text tokens key).trustStatus = .trusted) := by
  have hstart : Inv prims (initial (some before)) ∧ Grown before (initial (some before)) :=
    ⟨inv_initial _, rfl, ⟨before, rfl, List.prefix_refl _⟩, fun _ _ _ _ hcall => by cases hcall⟩
  obtain ⟨hinv, hgrown⟩ : Inv prims (run (step prims) (initial (some before)) es) ∧
      Grown before (run (step prims) (initial (some before)) es) := run_invariant
    (I := fun s => Inv prims s ∧ Grown before s)
    (fun _ _ hboth he => ⟨hboth.1.step he.1, hboth.2.step hboth.1 he⟩) es _ hstart h
  obtain ⟨found, hfound, hbefore⟩ := hgrown.file
  cases hfile.symm.trans hfound
  have hentries : ∀ {entry}, entry ∈ entriesFor prims before tokens → entry ∈ entriesFor prims text tokens :=
    fun hentry => List.mem_filter.2 ⟨hbefore.subset (List.mem_filter.1 hentry).1, (List.mem_filter.1 hentry).2⟩
  have hrevoked : (evaluateKnownHosts prims text tokens key).trustStatus = .revoked ↔
      (evaluateKnownHosts prims before tokens key).trustStatus = .revoked := by
    rw [revoked_iff, revoked_iff]
    constructor
    · rintro ⟨entry, hentry, hkey, hmarker⟩
      obtain ⟨hmem, hspeaks⟩ := List.mem_filter.1 hentry
      rcases hinv.file text hfile entry hmem with ⟨written, hwritten, hold⟩ | ⟨ask, -, algorithm, rfl⟩
      · rw [hgrown.outside, List.mem_singleton] at hwritten
        exact ⟨entry, List.mem_filter.2 ⟨hwritten ▸ hold, hspeaks⟩, hkey, hmarker⟩
      · cases hmarker
    · rintro ⟨entry, hentry, hkey, hmarker⟩
      exact ⟨entry, hentries hentry, hkey, hmarker⟩
  refine ⟨hrevoked, fun htrusted => ?_⟩
  obtain ⟨hnot, entry, hentry, hkey, hmarker⟩ := trusted_iff.1 htrusted
  exact trusted_iff.2 ⟨fun hnow => hnot (hrevoked.1 hnow), entry, hentries hentry, hkey, hmarker⟩

/-- Two keys of the host, one of which is revoked. -/
def sampleHosts : List Char := "[web]:2222 a AAAAAWEG\n@revoked [web]:2222 a AAAAAWEH\n".toList

/-- Two confirmations that write the same copy back, and one that is broken off. -/
def interleavedRun : List Event :=
  [.confirm 1 sampleAsk, .confirm 2 sampleAsk, .confirm 3 sampleAsk, .readCurrent 1, .readCurrent 2, .rename 1,
    .readCurrent 3, .fail 3, .rename 2, .verify 1, .verify 2]

theorem verdicts_stay_sample : ∃ text,
    (run (step samplePrims) (initial (some sampleHosts)) interleavedRun).file = some text ∧
      (evaluateKnownHosts samplePrims text ["[web]:2222".toList] [0, 0, 0, 1, 97, 6]).trustStatus = .trusted ∧
      (evaluateKnownHosts samplePrims text ["[web]:2222".toList] [0, 0, 0, 1, 97, 7]).trustStatus = .revoked := by
  have hstays := @verdicts_stay samplePrims _ sampleHosts interleavedRun
    ⟨⟨sampleAsk_plain, by simp⟩, ⟨sampleAsk_plain, by simp⟩, ⟨sampleAsk_plain, by simp⟩,
      ⟨trivial, by simp⟩, ⟨trivial, by simp⟩, ⟨trivial, by simp⟩, ⟨trivial, by simp⟩, ⟨trivial, by simp⟩,
      ⟨trivial, by simp⟩, ⟨trivial, by simp⟩, ⟨trivial, by simp⟩, trivial⟩ rfl ["[web]:2222".toList]
  exact ⟨_, rfl, (hstays [0, 0, 0, 1, 97, 6]).2 (by decide), (hstays [0, 0, 0, 1, 97, 7]).1.2 (by decide)⟩

end HuntWarden.HostKeys
