import HuntWarden.Helper.Files
import HuntWarden.Lib.Utf8

/-! `match`: which of the requested files an engine finds something in. The loop keeps a record of what
    it did with each object it reached; a result without a gap is a real negative for the objects
    without a hit only when every one of them was searched as a whole. -/

namespace HuntWarden.Helper.Match

open Outcome Normalizer

def matchWindowBytes : ℕ := 1024 * 1024
def matchContextBytes : ℕ := 256
def matchContextHits : ℕ := 4

/-- What an external run of YARA gives: the exit code, 0 when it ran to its end and 1 for an error, and
    the lines of its output. -/
structure YaraRun where
  exit : ℕ
  lines : List String

/-- The target and the engines that are no part of the helper. `re2` compiles a pattern to a search for
    the first hit in a text, with its start and its end. -/
structure Env where
  fs : FileSystem
  now : String
  redactSecretText : String → ℕ → String
  re2 : Option (String → Option (List Char → Option (ℕ × ℕ)))
  yaraInstalled : Bool
  rulesIntact : String → Bool
  yara : String → Bool → OpenFile → Option YaraRun

inductive Engine where
  | literal (pattern : String)
  | re2 (search : List Char → Option (ℕ × ℕ))
  | yara (ruleSetRef : String)

/-! ### The request -/

def yaraRulesets : List String := ["RULESET-WEBSHELL-BUILTIN-2"]

def given? (value : Option Json) : Option Json := value.filter (· ≠ .null)

/-- The pattern of a literal or RE2 matcher, which has no RuleSet. -/
def textPattern (matcher : Json) : Except HelperError String := do
  let invalid := invalidArgument "literal/RE2 matcher requires only a bounded pattern"
  let pattern ← orThrow (((matcher.get? "pattern").bind Json.asString?).filter fun pattern =>
    1 ≤ pattern.utf8ByteSize ∧ pattern.utf8ByteSize ≤ 4096) invalid
  require (given? (matcher.get? "ruleSetRef")).isNone invalid
  return pattern

def yaraEngine (env : Env) (matcher : Json) : Except HelperError Engine := do
  let invalid := invalidArgument "YARA requires a built-in versioned RuleSet reference"
  require (given? (matcher.get? "pattern")).isNone invalid
  let ruleSetRef ← orThrow (((matcher.get? "ruleSetRef").bind Json.asString?).filter
    (· ∈ yaraRulesets)) invalid
  require env.yaraInstalled {
    code := .unsupportedEnvironment
    message := "YARA sandbox runtime is unavailable" }
  return .yara ruleSetRef

def re2Engine (env : Env) (matcher : Json) : Except HelperError Engine := do
  let pattern ← textPattern matcher
  let compile ← orThrow env.re2 {
    code := .unsupportedEnvironment
    message := "RE2 is not installed; semantic fallback is forbidden" }
  let search ← orThrow (compile pattern) (invalidArgument "pattern is not valid RE2 syntax")
  return .re2 search

def engineOf (env : Env) (matcher : Json) : Except HelperError Engine :=
  match (matcher.get? "engine").bind Json.asString? with
  | some "literal" => do
    let pattern ← textPattern matcher
    return .literal pattern
  | some "re2" => re2Engine env matcher
  | some "yara" => yaraEngine env matcher
  | _ => .error (invalidArgument "invalid matcher")

structure Request where
  refs : List Json
  engine : Engine
  includeContext : Bool
  maximum : ℕ

def requestOf (env : Env) (params : Json) : Except HelperError Request := do
  let invalid := invalidArgument "invalid match request"
  let refs ← orThrow ((params.get? "objects").bind Json.asArray?) invalid
  let matcher ← orThrow ((params.get? "matcher").filter Json.isRecord) invalid
  let engine ← engineOf env matcher
  let includeContext ← orThrow ((params.get? "includeContext").bind Json.asBool?)
    (invalidArgument "includeContext must be a boolean")
  let maximum ← safe_int (params.get? "maxHits") 1 500 "maxHits"
  return { refs, engine, includeContext, maximum := maximum.toNat }

/-! ### One object -/

/-- What the engine found in an object. `searched` are the bytes it was run on, none when it was not
    run to its end. -/
structure Finding where
  matched : Bool
  names : List String
  offsets : List ℕ
  searched : Option (List UInt8)

/-- `literal_offsets`, with the number of hits still wanted. -/
def literalOffsets (text pattern : List Char) : ℕ → ℕ → List ℕ
  | 0, _ => []
  | wanted + 1, position =>
    match Py.find text pattern position with
    | none => []
    | some index => index :: literalOffsets text pattern wanted (index + max 1 pattern.length)

/-- `re2_offsets`; an empty rest of the text is not searched. -/
def re2Offsets (search : List Char → Option (ℕ × ℕ)) (text : List Char) : ℕ → ℕ → List ℕ
  | 0, _ => []
  | wanted + 1, position =>
    if position < text.length then
      match search (text.drop position) with
      | none => []
      | some (start, stop) =>
        (position + start) :: re2Offsets search text wanted (position + max 1 stop)
    else []

/-- `decode_utf8_with_offsets` -/
def decodeUtf8WithOffsets (raw : List UInt8) : List Char × List ℕ :=
  ((Utf8.decode false raw).map (·.1), (Utf8.decode false raw).map (·.2) ++ [raw.length])

def characterOffsetsToBytes (byteOffsets offsets : List ℕ) : List ℕ :=
  offsets.filterMap fun offset => byteOffsets[offset]?

def searchLiteral (pattern : String) (includeContext : Bool) (raw : List UInt8) : Finding :=
  let (text, byteOffsets) := decodeUtf8WithOffsets raw
  let offsets := if includeContext then
      characterOffsetsToBytes byteOffsets (literalOffsets text pattern.toList matchContextHits 0)
    else []
  { matched := if includeContext then !offsets.isEmpty else pattern.toList <:+: text
    names := []
    offsets
    searched := some raw }

def searchRe2 (search : List Char → Option (ℕ × ℕ)) (includeContext : Bool) (raw : List UInt8) :
    Finding :=
  let (text, byteOffsets) := decodeUtf8WithOffsets raw
  let offsets := if includeContext then
      characterOffsetsToBytes byteOffsets (re2Offsets search text matchContextHits 0)
    else []
  { matched := if includeContext then !offsets.isEmpty else (search text).isSome
    names := []
    offsets
    searched := if includeContext && text.isEmpty then none else some raw }

def hexDigit? (ch : Char) : Option ℕ :=
  if ch.isDigit then some (ch.toNat - 48)
  else if 'a' ≤ ch ∧ ch ≤ 'f' then some (ch.toNat - 87)
  else if 'A' ≤ ch ∧ ch ≤ 'F' then some (ch.toNat - 55)
  else none

/-- `YARA_STRING_OFFSET`: `0x`, hexadecimal digits, and a colon. -/
def yaraStringOffset (line : List Char) : Option ℕ :=
  match line with
  | '0' :: 'x' :: rest =>
    let digits := rest.takeWhile fun ch => (hexDigit? ch).isSome
    if digits ≠ [] ∧ (rest.drop digits.length).head? = some ':' then
      some ((digits.filterMap hexDigit?).foldl (fun value digit => value * 16 + digit) 0)
    else none
  | _ => none

def searchYara (env : Env) (ruleSetRef : String) (includeContext : Bool) (file : OpenFile) :
    Except HelperError Finding := do
  require (env.rulesIntact ruleSetRef) {
    code := .unsupportedCapability
    message := "built-in YARA RuleSet integrity check failed" }
  let result ← orThrow (env.yara ruleSetRef includeContext file) {
    code := .toolTimeout
    message := "operation timed out: yara" }
  require (result.exit ∈ [0, 1]) {
    code := .evidenceCollection
    message := "versioned YARA RuleSet execution failed" }
  let lines := (result.lines.map String.toList).filter fun line => !line.all Py.isSpace
  let names := lines.filter fun line => (yaraStringOffset line).isNone
  return {
    matched := !names.isEmpty
    names := names.map fun line =>
      String.ofList ((line.dropWhile Py.isSpace).takeWhile fun ch => !Py.isSpace ch)
    offsets := (lines.filterMap yaraStringOffset).take matchContextHits
    searched := if result.exit = 0 then some file.content else none }

/-- The search that the request asks for in an open file, of which `raw` was read. -/
def search (env : Env) (request : Request) (file : OpenFile) (raw : List UInt8) :
    Except HelperError Finding :=
  match request.engine with
  | .literal pattern => .ok (searchLiteral pattern request.includeContext raw)
  | .re2 search => .ok (searchRe2 search request.includeContext raw)
  | .yara ruleSetRef => searchYara env ruleSetRef request.includeContext file

/-- `escape_context_line` -/
def escapeContextLine (text : String) : List Char :=
  text.toList.flatMap fun ch =>
    if ch = '\\' then ['\\', '\\'] else if ch = '\r' then ['\\', 'r']
    else if ch = '\n' then ['\\', 'n'] else [ch]

/-- `match_context_windows` -/
def matchContextWindows (env : Env) (raw : List UInt8) (byteOffsets : List ℕ) : List String :=
  let half := matchContextBytes / 2
  (byteOffsets.take matchContextHits).map fun offset =>
    let start := offset - half
    let window := (raw.drop start).take (offset + half - start)
    let text := String.ofList ((Utf8.decode true window).map (·.1))
    let escaped := escapeContextLine (env.redactSecretText text matchContextBytes)
    s!"@{start}:" ++ String.ofList (escaped.take (matchContextBytes * 2))

def marker (names : List String) : String :=
  let text := if names.isEmpty then "MATCH"
    else "YARA_MATCH:" ++ ",".intercalate (names.take 100)
  String.ofList (text.toList.take matchContextBytes)

/-- What became of an object that the loop reached. -/
structure Visit where
  searched : Option (List UInt8)
  truncated : Bool
  contextless : Bool
  hit : Option WireObservation

/-- The object is passed over. -/
def Visit.skipped : Visit := ⟨none, false, false, none⟩

def visitOf (env : Env) (request : Request) (file : OpenFile) (raw : List UInt8)
    (finding : Finding) : Except HelperError Visit := do
  let windows := matchContextWindows env raw finding.offsets
  let content := if request.includeContext then "\n".intercalate (marker finding.names :: windows)
    else marker finding.names
  let observation ← v2_observation env.now .file
    (v2_file_fields_fd file ++ [("content", .str content)]) .objectStable []
  return {
    searched := finding.searched
    truncated := raw.length < file.size
    contextless := finding.matched && request.includeContext && windows.isEmpty
    hit := if finding.matched then some observation else none }

def isFileBinding (binding : Json) : Bool :=
  binding.isRecord && binding.get? "namespace" = some (.str "file")

/-- A file whose content must not leave the target is passed over when no context is asked for. -/
def matchFile (env : Env) (request : Request) (file : OpenFile) : Except HelperError Visit :=
  if v2_content_class file.canonical = .deniedText then do
    require (!request.includeContext) {
      code := .permissionDenied
      message := "DENIED_TEXT does not permit match context" }
    return .skipped
  else do
    let raw := file.read 0 matchWindowBytes
    let finding ← search env request file raw
    visitOf env request file raw finding

def matchObject (env : Env) (request : Request) (binding : Json) : Except HelperError Visit :=
  if isFileBinding binding then do
    let file ← v2_bound_file env.fs binding
    matchFile env request file
  else .ok .skipped

/-! ### The loop -/

def hitsOf (visits : List Visit) : List WireObservation := visits.filterMap (·.hit)

/-- The loop over the objects ends early once there are enough hits. -/
def matchLoop (env : Env) (request : Request) : List Json → List Visit →
    Except HelperError (List Visit)
  | [], visits => .ok visits
  | binding :: refs, visits =>
    if request.maximum ≤ (hitsOf visits).length then .ok visits
    else do
      let visit ← matchObject env request binding
      matchLoop env request refs (visits ++ [visit])

def gapsOf (visits : List Visit) : List CoverageGap :=
  let truncatedObjects := visits.countP (·.truncated)
  let contextlessHits := visits.countP (·.contextless)
  (if truncatedObjects = 0 then [] else [{
      code := "BYTE_LIMIT"
      detail := some (s!"{truncatedObjects} 个对象只匹配了前 {matchWindowBytes} 字节，" ++
        "未命中不代表整个文件无命中")
      field := none
      resumable := false }]) ++
    (if contextlessHits = 0 then [] else [{
      code := "OUTPUT_LIMIT"
      detail := some s!"{contextlessHits} 个命中未能定位偏移，只返回命中标记而没有上下文"
      field := none
      resumable := false }])

structure Result where
  request : Request
  visits : List Visit

def Result.hits (result : Result) : List WireObservation := hitsOf result.visits

def Result.gaps (result : Result) : List CoverageGap := gapsOf result.visits

def v2_match (env : Env) (params : Json) : Except HelperError Result := do
  let request ← requestOf env params
  let visits ← matchLoop env request request.refs []
  return { request, visits }

/-! ### When nothing is passed over -/

/-- Every requested object was opened with its bound identity, and its whole content was searched. -/
def AllSearched (env : Env) (result : Result) : Prop :=
  List.Forall₂ (fun binding visit => ∃ file, v2_bound_file env.fs binding = .ok file ∧
    visit.searched = some file.content) result.request.refs result.visits

/-- One read gives the whole file, or the size tells that it did not. -/
def partialReadShows (file : OpenFile) : Prop :=
  file.read 0 matchWindowBytes = file.content ∨
    (file.read 0 matchWindowBytes).length < file.size

/-- The engine is run on all of the file: an empty text is not searched for context, and an error of
    YARA is taken for a negative. -/
def searchesWhole (env : Env) (request : Request) (file : OpenFile) : Prop :=
  match request.engine with
  | .literal _ => partialReadShows file
  | .re2 _ => partialReadShows file ∧ (request.includeContext → file.content ≠ [])
  | .yara ruleSetRef => ∀ run, env.yara ruleSetRef request.includeContext file = some run →
      run.exit ≠ 1

/-- The engine finds something in the object. -/
def finds (env : Env) (request : Request) (binding : Json) : Bool :=
  match v2_bound_file env.fs binding with
  | .ok file =>
    match search env request file (file.read 0 matchWindowBytes) with
    | .ok finding => finding.matched
    | .error _ => false
  | .error _ => false

structure Searchable (env : Env) (request : Request) (binding : Json) : Prop where
  isFile : isFileBinding binding
  allowed : ∀ file, v2_bound_file env.fs binding = .ok file →
    v2_content_class file.canonical ≠ .deniedText
  whole : ∀ file, v2_bound_file env.fs binding = .ok file → searchesWhole env request file

/-- Every object can be searched, and those before the last one do not use up the hits. -/
structure NothingSkipped (env : Env) (request : Request) : Prop where
  objects : ∀ binding ∈ request.refs, Searchable env request binding
  hits : request.refs.dropLast.countP (finds env request) < request.maximum

section

variable {env : Env} {request : Request}

theorem requestOf_maximum {params : Json} (h : requestOf env params = .ok request) :
    0 < request.maximum := by
  simp only [requestOf, bind_ok, orThrow_ok, pure_ok] at h
  obtain ⟨_, -, _, -, _, -, _, -, maximum, hmaximum, rfl⟩ := h
  simp only [safe_int, orThrow_ok, Option.map_eq_some_iff, Option.filter_eq_some_iff] at hmaximum
  obtain ⟨q, ⟨-, hq⟩, rfl⟩ := hmaximum
  have hbound : q.den = 1 ∧ 1 ≤ q.num ∧ q.num ≤ 500 := by simpa using hq
  change 0 < q.num.toNat
  omega

/-! ### One object -/

theorem decode_isEmpty (raw : List UInt8) : (decodeUtf8WithOffsets raw).1.isEmpty = raw.isEmpty := by
  cases raw <;> rfl

/-- When the size tells nothing, the engine was given all of the file where it searches whole. -/
theorem search_whole {file : OpenFile} {finding : Finding}
    (h : search env request file (file.read 0 matchWindowBytes) = .ok finding)
    (hsize : ¬ (file.read 0 matchWindowBytes).length < file.size) :
    finding.searched = some file.content ↔ searchesWhole env request file := by
  rw [search] at h
  rw [searchesWhole]
  cases hengine : request.engine with
  | literal pattern =>
    rw [hengine] at h
    cases h
    simp [searchLiteral, partialReadShows, hsize]
  | re2 search =>
    rw [hengine] at h
    cases h
    have hsearched : (searchRe2 search request.includeContext
        (file.read 0 matchWindowBytes)).searched =
          if request.includeContext && (file.read 0 matchWindowBytes).isEmpty then none
          else some (file.read 0 matchWindowBytes) := by
      rw [← decode_isEmpty]
      rfl
    dsimp only
    rw [hsearched, partialReadShows, or_iff_left hsize]
    split
    · rename_i hempty
      simp only [Bool.and_eq_true, List.isEmpty_iff] at hempty
      simp only [reduceCtorEq, false_iff, not_and, not_forall, not_not]
      intro hcontent
      exact ⟨hempty.1, by rw [← hcontent, hempty.2]⟩
    · rename_i hempty
      simp only [Bool.and_eq_true, List.isEmpty_iff, not_and] at hempty
      rw [Option.some.injEq]
      refine ⟨fun hcontent => ⟨hcontent, fun hcontext => ?_⟩, And.left⟩
      rw [← hcontent]
      exact hempty hcontext
  | yara ruleSetRef =>
    rw [hengine] at h
    simp only [searchYara, bind_ok, require_ok, orThrow_ok, pure_ok] at h
    obtain ⟨-, -, run, hrun, -, hexit, rfl⟩ := h
    have hexit : run.exit = 0 ∨ run.exit = 1 := by simpa using hexit
    simp only [hrun, Option.some.injEq, forall_eq']
    rcases hexit with hexit | hexit <;> simp [hexit]

theorem visitOf_ok {file : OpenFile} {raw : List UInt8} {finding : Finding} {visit : Visit}
    (h : visitOf env request file raw finding = .ok visit) :
    visit.searched = finding.searched ∧ visit.truncated = decide (raw.length < file.size) ∧
      visit.hit.isSome = finding.matched := by
  simp only [visitOf, bind_ok, pure_ok] at h
  obtain ⟨observation, -, rfl⟩ := h
  refine ⟨rfl, rfl, ?_⟩
  dsimp only
  split <;> simp_all

/-- An object that the loop reached: passed over, or opened and searched. -/
theorem matchObject_ok {binding : Json} {visit : Visit}
    (h : matchObject env request binding = .ok visit) :
    (visit = .skipped ∧ (isFileBinding binding → ∃ file, v2_bound_file env.fs binding = .ok file ∧
        v2_content_class file.canonical = .deniedText)) ∨
      ∃ file finding, isFileBinding binding ∧ v2_bound_file env.fs binding = .ok file ∧
        v2_content_class file.canonical ≠ .deniedText ∧
        search env request file (file.read 0 matchWindowBytes) = .ok finding ∧
        visit.searched = finding.searched ∧
        visit.truncated = decide ((file.read 0 matchWindowBytes).length < file.size) ∧
        visit.hit.isSome = finding.matched := by
  rw [matchObject] at h
  by_cases hfile : isFileBinding binding
  · rw [if_pos hfile, bind_ok] at h
    obtain ⟨file, hbound, h⟩ := h
    rw [matchFile] at h
    by_cases hdenied : v2_content_class file.canonical = .deniedText
    · rw [if_pos hdenied] at h
      simp only [bind_ok, pure_ok] at h
      obtain ⟨-, -, rfl⟩ := h
      exact Or.inl ⟨rfl, fun _ => ⟨file, hbound, hdenied⟩⟩
    · rw [if_neg hdenied] at h
      simp only [bind_ok] at h
      obtain ⟨finding, hfinding, h⟩ := h
      exact Or.inr ⟨file, finding, hfile, hbound, hdenied, hfinding, visitOf_ok h⟩
  · rw [if_neg hfile] at h
    cases h
    exact Or.inl ⟨rfl, fun h => absurd h hfile⟩

/-- What it takes for a visited object to have been searched as a whole, when its size tells nothing. -/
theorem searched_iff {binding : Json} {visit : Visit}
    (h : matchObject env request binding = .ok visit) (hsize : visit.truncated = false) :
    (∃ file, v2_bound_file env.fs binding = .ok file ∧ visit.searched = some file.content) ↔
      Searchable env request binding := by
  rcases matchObject_ok h with ⟨rfl, hdenied⟩ |
    ⟨file, finding, hfile, hbound, hallowed, hfinding, hsearched, htruncated, -⟩
  · constructor
    · rintro ⟨file, -, hsearched⟩
      cases hsearched
    · intro hsearchable
      obtain ⟨file, hbound, hclass⟩ := hdenied hsearchable.isFile
      exact absurd hclass (hsearchable.allowed file hbound)
  · have hpartial : ¬ (file.read 0 matchWindowBytes).length < file.size := by
      rw [htruncated] at hsize
      simpa using hsize
    have hwhole := search_whole hfinding hpartial
    rw [← hsearched] at hwhole
    constructor
    · rintro ⟨other, hother, hcontent⟩
      rw [hbound] at hother
      cases hother
      refine ⟨hfile, ?_, ?_⟩
      · intro other hother
        rw [hbound] at hother
        cases hother
        exact hallowed
      · intro other hother
        rw [hbound] at hother
        cases hother
        exact hwhole.1 hcontent
    · intro hsearchable
      exact ⟨file, hbound, hwhole.2 (hsearchable.whole file hbound)⟩

/-- A searched object has a hit when the engine finds something. -/
theorem hit_iff_finds {binding : Json} {visit : Visit}
    (h : matchObject env request binding = .ok visit) (hsearched : visit ≠ .skipped) :
    visit.hit.isSome = finds env request binding := by
  rcases matchObject_ok h with ⟨hskipped, -⟩ | ⟨file, finding, -, hbound, -, hfinding, -, -, hhit⟩
  · exact absurd hskipped hsearched
  · rw [finds, hbound]
    dsimp only
    rw [hfinding]
    exact hhit

/-! ### The loop -/

theorem hitsOf_length (visits : List Visit) :
    (hitsOf visits).length = visits.countP (·.hit.isSome) := by
  rw [hitsOf, List.length_filterMap_eq_countP]

/-- The loop visits the objects in order; it stops before the end only with enough hits, and has fewer
    before the last object it visits. -/
theorem matchLoop_ok {refs : List Json} {visits out : List Visit}
    (h : matchLoop env request refs visits = .ok out) :
    ∃ new, out = visits ++ new ∧
      List.Forall₂ (fun binding visit => matchObject env request binding = .ok visit)
        (refs.take new.length) new ∧
      (new.length < refs.length → request.maximum ≤ (hitsOf out).length) ∧
      (new ≠ [] → (hitsOf (visits ++ new.dropLast)).length < request.maximum) := by
  induction refs generalizing visits with
  | nil =>
    cases h
    exact ⟨[], by simp, by simp, by simp, by simp⟩
  | cons binding refs ih =>
    rw [matchLoop] at h
    split at h
    · rename_i henough
      cases h
      exact ⟨[], by simp, by simp, fun _ => henough, by simp⟩
    · rename_i henough
      rw [bind_ok] at h
      obtain ⟨visit, hvisit, h⟩ := h
      obtain ⟨new, rfl, hall, hstop, hlast⟩ := ih h
      refine ⟨visit :: new, by simp, by simpa using ⟨hvisit, hall⟩, ?_, fun _ => ?_⟩
      · intro hlen
        simpa using hstop (by simpa using hlen)
      · cases hnew : new with
        | nil => simpa using henough
        | cons next rest => simpa [hnew] using hlast (by simp [hnew])

theorem countP_forall₂ {α β : Type} {R : α → β → Prop} {p : α → Bool} {q : β → Bool}
    {as : List α} {bs : List β} (h : List.Forall₂ R as bs) (hR : ∀ a b, R a b → p a = q b) :
    as.countP p = bs.countP q := by
  induction h with
  | nil => rfl
  | cons hab _ ih => rw [List.countP_cons, List.countP_cons, ih, hR _ _ hab]

/-- The hits among objects that were all searched are those in which the engine finds something. -/
theorem hits_eq_finds {refs : List Json} {visits : List Visit}
    (h : List.Forall₂ (fun binding visit => matchObject env request binding = .ok visit ∧
      visit ≠ .skipped) refs visits) :
    (hitsOf visits).length = refs.countP (finds env request) := by
  rw [hitsOf_length]
  exact (countP_forall₂ h fun binding visit hvisit => (hit_iff_finds hvisit.1 hvisit.2).symm).symm

theorem forall₂_and {α β : Type} {R S : α → β → Prop} {xs : List α} {ys : List β} (hR : List.Forall₂ R xs ys)
    (hS : List.Forall₂ S xs ys) : List.Forall₂ (fun x y => R x y ∧ S x y) xs ys := by
  induction hR with
  | nil => exact .nil
  | cons hr _ ih =>
    rw [List.forall₂_cons] at hS
    exact .cons ⟨hr, hS.1⟩ (ih hS.2)

/-- The objects were all searched when all are searchable, and only then. -/
theorem forall₂_searched_iff {refs : List Json} {visits : List Visit}
    (h : List.Forall₂ (fun binding visit => matchObject env request binding = .ok visit) refs visits)
    (hsize : ∀ visit ∈ visits, visit.truncated = false) :
    List.Forall₂ (fun binding visit => matchObject env request binding = .ok visit ∧
        ∃ file, v2_bound_file env.fs binding = .ok file ∧ visit.searched = some file.content) refs visits ↔
      ∀ binding ∈ refs, Searchable env request binding := by
  induction h with
  | nil => simp
  | cons hvisit _ ih =>
    rw [List.forall_mem_cons] at hsize
    rw [List.forall₂_cons, List.forall_mem_cons, searched_iff hvisit hsize.1, ih hsize.2, and_iff_right hvisit]

theorem searched_ne_none {refs : List Json} {visits : List Visit}
    (h : List.Forall₂ (fun binding visit => ∃ file, v2_bound_file env.fs binding = .ok file ∧
      visit.searched = some file.content) refs visits) :
    ∀ visit ∈ visits, visit.searched ≠ none := by
  induction h with
  | nil => simp
  | cons hvisit _ ih =>
    obtain ⟨file, -, hsearched⟩ := hvisit
    rw [List.forall_mem_cons]
    exact ⟨by simp [hsearched], ih⟩

theorem not_skipped {binding : Json} {visit : Visit}
    (h : matchObject env request binding = .ok visit ∧
      ∃ file, v2_bound_file env.fs binding = .ok file ∧ visit.searched = some file.content) :
    matchObject env request binding = .ok visit ∧ visit ≠ .skipped := by
  obtain ⟨hvisit, file, -, hsearched⟩ := h
  refine ⟨hvisit, ?_⟩
  rintro rfl
  cases hsearched

end

theorem v2_match_ok {env : Env} {params : Json} {result : Result}
    (h : v2_match env params = .ok result) :
    0 < result.request.maximum ∧
      matchLoop env result.request result.request.refs [] = .ok result.visits := by
  simp only [v2_match, bind_ok, pure_ok] at h
  obtain ⟨request, hrequest, visits, hvisits, rfl⟩ := h
  exact ⟨requestOf_maximum hrequest, hvisits⟩

theorem not_truncated {visits : List Visit} (h : gapsOf visits = []) :
    ∀ visit ∈ visits, visit.truncated = false := by
  have hcount : visits.countP (·.truncated) = 0 := by
    rw [gapsOf, List.append_eq_nil_iff] at h
    by_contra hne
    simp [hne] at h
  intro visit hvisit
  simpa using List.countP_eq_zero.1 hcount visit hvisit

/-- A success without a gap has searched every requested object as a whole exactly when nothing was
    passed over. -/
theorem match_is_negative (env : Env) (params : Json) (result : Result)
    (h : v2_match env params = .ok result) (hgaps : result.gaps = []) :
    AllSearched env result ↔ NothingSkipped env result.request := by
  obtain ⟨hmaximum, hloop⟩ := v2_match_ok h
  obtain ⟨new, hnew, hall, hstop, hlast⟩ := matchLoop_ok hloop
  rw [List.nil_append] at hnew
  subst hnew
  have hsize := not_truncated hgaps
  constructor
  · intro hsearched
    have htake : result.request.refs.take result.visits.length = result.request.refs :=
      List.take_of_length_le hsearched.length_eq.le
    rw [htake] at hall
    have hboth := forall₂_and hall hsearched
    have hobjects := (forall₂_searched_iff hall hsize).1 hboth
    refine ⟨hobjects, ?_⟩
    have hpairs := hboth.imp fun _ _ => not_skipped
    have hdrop := List.forall₂_take (result.visits.length - 1) hpairs
    rw [← List.dropLast_eq_take, ← hsearched.length_eq, ← List.dropLast_eq_take] at hdrop
    rw [← hits_eq_finds hdrop]
    cases hvisits : result.visits with
    | nil => exact hmaximum
    | cons visit visits => simpa [hvisits] using hlast (by simp [hvisits])
  · intro hnothing
    have hpairs := (forall₂_searched_iff hall hsize).2 fun binding hbinding =>
      hnothing.objects binding (List.mem_of_mem_take hbinding)
    have hlength : ¬ result.visits.length < result.request.refs.length := by
      intro hshort
      have henough := hstop hshort
      rw [hits_eq_finds (hpairs.imp fun _ _ => not_skipped)] at henough
      have hbegins : (result.request.refs.take result.visits.length).Sublist
          result.request.refs.dropLast := by
        rw [List.dropLast_eq_take]
        exact (List.take_prefix_take_left (by omega)).sublist
      have hle := hbegins.countP_le (p := finds env result.request)
      have hfew := hnothing.hits
      omega
    rw [List.take_of_length_le (by omega)] at hpairs
    exact hpairs.imp fun _ _ hpair => hpair.2

/-! ### Files and a private key -/

/-- A readable file on device 1. -/
def sampleFile (canonical : String) (inode : ℕ) (content : String) : OpenFile where
  canonical
  regular := true
  device := 1
  inode
  size := content.length
  mode := 0o600
  uid := 0
  gid := 0
  mtime := "2026-01-01T00:00:00Z"
  content := content.toList.map (·.toNat.toUInt8)
  readable := 4096

def sampleEnv (files : List OpenFile) : Env where
  fs parts := files.find? fun file => pathParts file.canonical = parts
  now := "2026-01-02T00:00:00Z"
  redactSecretText text _ := text
  re2 := none
  yaraInstalled := false
  rulesIntact _ := false
  yara _ _ _ := none

def sampleBinding (file : OpenFile) : Json :=
  .obj [("namespace", .str "file"),
    ("identity", .obj [("mountId", .str "1"), ("device", .str "1"), ("inode", .str s!"{file.inode}")]),
    ("locator", .obj [("path", .str file.canonical)])]

/-- A literal search for `key` in the files, without context. -/
def sampleParams (files : List OpenFile) : Json :=
  .obj [("objects", .arr (files.map sampleBinding)),
    ("matcher", .obj [("engine", .str "literal"), ("pattern", .str "key")]),
    ("maxHits", .num 10), ("includeContext", .bool false)]

def sampleFiles : List OpenFile :=
  [sampleFile "/srv/a.txt" 2 "a key", sampleFile "/srv/b.txt" 3 "a lock",
    sampleFile "/srv/c.txt" 4 "a key to a key"]

theorem sampleFiles_bound :
    ∀ file ∈ sampleFiles, v2_bound_file (sampleEnv sampleFiles).fs (sampleBinding file) = .ok file := by
  rw [sampleFiles, List.forall_mem_cons, List.forall_mem_cons, List.forall_mem_singleton]
  exact ⟨rfl, rfl, rfl⟩

def sampleRequest : Request := ⟨sampleFiles.map sampleBinding, .literal "key", false, 10⟩

theorem sample_nothingSkipped : NothingSkipped (sampleEnv sampleFiles) sampleRequest where
  objects := by
    intro binding hbinding
    obtain ⟨file, hfile, rfl⟩ := List.mem_map.1 hbinding
    have hbound := sampleFiles_bound file hfile
    refine ⟨rfl, fun other hother => ?_, fun other hother => ?_⟩
    · obtain rfl := Except.ok.inj (hbound.symm.trans hother)
      exact (show ∀ file ∈ sampleFiles, v2_content_class file.canonical ≠ .deniedText by decide) file hfile
    · obtain rfl := Except.ok.inj (hbound.symm.trans hother)
      exact Or.inl ((show ∀ file ∈ sampleFiles, file.read 0 matchWindowBytes = file.content by decide) file hfile)
  hits := by decide

/-- Three files, and the word in two of them. -/
theorem match_is_negative_sample :
    ∃ visits, v2_match (sampleEnv sampleFiles) (sampleParams sampleFiles) = .ok ⟨sampleRequest, visits⟩ ∧
      (hitsOf visits).length = 2 ∧ AllSearched (sampleEnv sampleFiles) ⟨sampleRequest, visits⟩ := by
  have hrequest : requestOf (sampleEnv sampleFiles) (sampleParams sampleFiles) = .ok sampleRequest := rfl
  have hrun : (matchLoop (sampleEnv sampleFiles) sampleRequest sampleRequest.refs []).toOption.any
      fun visits => decide (gapsOf visits = [] ∧ (hitsOf visits).length = 2) := by decide
  cases hvisits : matchLoop (sampleEnv sampleFiles) sampleRequest sampleRequest.refs [] with
  | error e => rw [hvisits] at hrun; cases hrun
  | ok visits =>
    have hmatch : v2_match (sampleEnv sampleFiles) (sampleParams sampleFiles) =
        .ok ⟨sampleRequest, visits⟩ := by
      rw [v2_match, hrequest]
      exact bind_ok.2 ⟨_, rfl, bind_ok.2 ⟨visits, hvisits, rfl⟩⟩
    rw [hvisits] at hrun
    have hrun : gapsOf visits = [] ∧ (hitsOf visits).length = 2 := by
      simpa [Except.toOption] using hrun
    exact ⟨visits, hmatch, hrun.2, (match_is_negative _ _ _ hmatch hrun.1).2 sample_nothingSkipped⟩

def privateKey : OpenFile := sampleFile "/root/.ssh/id_rsa" 2 "key"

/-- The private key holds the text and is passed over: a success without a hit and without a gap. -/
theorem key_passed_over :
    ∃ result, v2_match (sampleEnv [privateKey]) (sampleParams [privateKey]) = .ok result ∧
      result.gaps = [] ∧ result.hits = [] ∧ ¬ AllSearched (sampleEnv [privateKey]) result := by
  have hrun : (v2_match (sampleEnv [privateKey]) (sampleParams [privateKey])).toOption.any
      fun result => decide (result.gaps = []) && result.hits.isEmpty &&
        result.visits.any fun visit => visit.searched.isNone := by decide
  cases h : v2_match (sampleEnv [privateKey]) (sampleParams [privateKey]) with
  | error e => rw [h] at hrun; cases hrun
  | ok result =>
    rw [h] at hrun
    have hrun : (result.gaps = [] ∧ result.hits = []) ∧
        ∃ visit ∈ result.visits, visit.searched = none := by
      simpa [Except.toOption] using hrun
    obtain ⟨⟨hgaps, hhits⟩, visit, hvisit, hnone⟩ := hrun
    refine ⟨result, rfl, hgaps, hhits, fun hsearched => ?_⟩
    exact searched_ne_none hsearched visit hvisit hnone

end HuntWarden.Helper.Match
