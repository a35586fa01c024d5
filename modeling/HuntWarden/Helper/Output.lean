import HuntWarden.Helper.Predicate
import HuntWarden.Lib.JsonDump
import HuntWarden.Tools.RemoteTool

/-! The envelope of an answer and its way out: an answer that is larger than the budget of the transport
    is cut down to a prefix of its objects. -/

namespace HuntWarden.Helper

open Outcome JsonDump

def maxOutputBytes : ℕ := 1572864

/-- The record inside an opaque cursor. -/
structure Cursor where
  namespace_ : NamespaceName
  offset : ℕ
  binding : String
  sourceGeneration : String
  upperBound : Option ℕ
  deriving DecidableEq

/-- The progress of an enumeration. -/
structure Scan where
  sourceGeneration : String
  scannedCount : ℕ
  matchedCount : ℕ
  nextOffset : ℕ
  upperBound : Option ℕ
  complete : Bool
  returnedCount : ℕ

structure HelperCost where
  nodes : ℕ
  bytes : ℕ
  wallTimeMs : ℕ
  probeCalls : ℕ

structure Envelope where
  requestId : String
  status : Wire.Status
  objects : List Normalizer.WireObservation
  edges : List Normalizer.WireEdge
  cost : HelperCost
  gaps : List CoverageGap
  cursor : Option Cursor
  scan : Option Scan
  artifact : Option Json

/-- How cursors and numbers that are no integers are written. -/
structure Writer where
  cursorText : Cursor → String
  fraction : ℚ → List Char

/-! ### Its text -/

def statusName : Wire.Status → String
  | .success => "SUCCESS"
  | .partialResult => "PARTIAL"
  | .error => "ERROR"

def observationJson (o : Normalizer.WireObservation) : Json :=
  .obj [("namespace", .str o.namespace_.name), ("identity", .obj o.identity),
    ("fields", .obj o.fields), ("observedAt", .str o.observedAt),
    ("consistency", .str o.consistency.name),
    ("unavailableFields", .arr (o.unavailableFields.map UnavailableField.toJson))]

def endpointJson (e : Normalizer.WireEndpoint) : Json :=
  .obj [("namespace", .str e.namespace_.name), ("identity", .obj e.identity)]

def edgeJson (e : Normalizer.WireEdge) : Json :=
  .obj [("relation", .str e.relation), ("fromIdentity", endpointJson e.fromIdentity),
    ("toIdentity", endpointJson e.toIdentity), ("observedAt", .str e.observedAt)]

def Scan.toJson (scan : Scan) : Json :=
  .obj ([("sourceGeneration", Json.str scan.sourceGeneration), ("scannedCount", .num scan.scannedCount),
      ("matchedCount", .num scan.matchedCount), ("nextOffset", .num scan.nextOffset)] ++
    scan.upperBound.toList.map (fun upper => ("upperBound", Json.num upper)) ++
    [("complete", Json.bool scan.complete), ("returnedCount", .num scan.returnedCount)])

def HelperCost.toJson (cost : HelperCost) : Json :=
  .obj [("remoteCalls", .num 1), ("nodes", .num cost.nodes), ("bytes", .num cost.bytes),
    ("wallTimeMs", .num cost.wallTimeMs), ("probeCalls", .num cost.probeCalls)]

variable (w : Writer)

/-- The fields after the gaps, where there are any. -/
def Envelope.optionalFields (e : Envelope) : Payload :=
  e.cursor.toList.map (fun cursor => ("cursor", .str (w.cursorText cursor))) ++
    e.scan.toList.map (fun scan => ("scan", scan.toJson)) ++
    e.artifact.toList.map (fun artifact => ("artifact", artifact))

def Envelope.toJson (e : Envelope) : Json :=
  .obj ([("protocolVersion", .num 2), ("requestId", .str e.requestId),
      ("status", .str (statusName e.status)), ("objects", .arr (e.objects.map observationJson)),
      ("edges", .arr (e.edges.map edgeJson)), ("cost", e.cost.toJson),
      ("gaps", .arr (e.gaps.map CoverageGap.toJson))] ++ e.optionalFields w)

/-- `serialized_output`, its size. -/
def Envelope.size (e : Envelope) : ℕ := JsonDump.size (compact w.fraction) (e.toJson w)

/-! ### The answers of `v2_dispatch` -/

/-- The envelope around what a verb gives. An enumeration costs the nodes it visited. -/
def respond (requestId : String) (verb : RemoteTool.ForensicVerb) (elapsed : ℕ)
    (objects : List Normalizer.WireObservation) (edges : List Normalizer.WireEdge)
    (cursor : Option Cursor) (gaps : List CoverageGap) (scan : Option Scan)
    (artifact : Option Json) : Envelope where
  requestId
  status := if gaps.isEmpty then .success else .partialResult
  objects
  edges
  cost := {
    nodes := (scan.map (·.scannedCount)).getD objects.length
    bytes := JsonDump.size (ascii w.fraction) (.arr (objects.map observationJson))
    wallTimeMs := elapsed
    probeCalls := if verb = .probe then 1 else 0 }
  gaps
  cursor
  scan
  artifact

/-- What an enumeration or a relation gives for one page. `positions` are the places of the objects in
    the source, as offsets; a page of a relation is a window of the rows. -/
inductive Page where
  | enumerated (objects : List Normalizer.WireObservation) (gaps : List CoverageGap)
      (progress : Scan) (cursor : Cursor) (more : Bool) (positions : List ℕ)
  | related (objects : List Normalizer.WireObservation) (edges : List Normalizer.WireEdge)
      (gaps : List CoverageGap) (cursor : Cursor) (offset : ℕ) (more : Bool)

def Page.verb : Page → RemoteTool.ForensicVerb
  | .enumerated .. => .enumerate
  | .related .. => .relate

def Page.objects : Page → List Normalizer.WireObservation
  | .enumerated objects .. => objects
  | .related objects .. => objects

def Page.positions : Page → List ℕ
  | .enumerated _ _ _ _ _ positions => positions
  | .related objects _ _ _ offset _ => (List.range objects.length).map (offset + ·)

def Page.envelope (requestId : String) (elapsed : ℕ) : Page → Envelope
  | .enumerated objects gaps progress cursor more _ =>
    respond w requestId .enumerate elapsed objects []
      (if more then some { cursor with offset := progress.nextOffset } else none) gaps
      (some { progress with complete := !more, returnedCount := objects.length }) none
  | .related objects edges gaps cursor offset more =>
    respond w requestId .relate elapsed objects edges
      (if more then some { cursor with offset := offset + objects.length } else none) gaps none none

/-! ### `budgeted_output` -/

def outputGap (dropped : ℤ) : CoverageGap where
  code := "OUTPUT_LIMIT"
  detail := some s!"输出达到 1.5 MiB 传输预算，已截断 {dropped} 条结果"
  field := none
  resumable := true

/-- The candidate that keeps the first objects; everything else stays as it was computed. -/
def Envelope.keep (e : Envelope) (kept : ℕ) : Envelope :=
  { e with
    objects := e.objects.take kept
    status := .partialResult
    gaps := e.gaps ++ [outputGap (e.objects.length - kept)] }

/-- How many objects the next candidate keeps. -/
def fewer (kept : ℕ) : ℕ := if kept ≤ 8 then kept - 1 else kept * 4 / 5

theorem fewer_lt {kept : ℕ} (h : 1 ≤ kept) : fewer kept < kept := by
  rw [fewer]
  split <;> omega

def shrink (e : Envelope) (kept : ℕ) : Except HelperError Envelope :=
  if 1 ≤ kept then
    if (e.keep kept).size w ≤ maxOutputBytes then .ok (e.keep kept) else shrink e (fewer kept)
  else .error {
    code := .outputLimitExceeded
    message := s!"单条结果已超过 {maxOutputBytes} 字节传输预算" }
termination_by kept
decreasing_by exact fewer_lt ‹_›

/-- `share` is `int(original * MAX_OUTPUT_BYTES / size * 0.9)`, in floating point. -/
def budgeted_output (share : ℕ → ℕ → ℕ) (e : Envelope) : Except HelperError Envelope :=
  if e.objects.isEmpty then .error {
    code := .outputLimitExceeded
    message := s!"结构化输出超过 {maxOutputBytes} 字节传输预算，且没有可截断的 items 列表" }
  else shrink w e (max 1 (share e.objects.length (e.size w)))

/-- `emit` -/
def emit (share : ℕ → ℕ → ℕ) (e : Envelope) : Except HelperError Envelope :=
  if e.size w ≤ maxOutputBytes then .ok e else budgeted_output w share e

/-! ### The size of a candidate -/

section

variable {w : Writer} {e : Envelope}

/-- The bytes of the objects that a candidate keeps, with the commas between them. -/
def objectsBytes (w : Writer) (objects : List Normalizer.WireObservation) : ℕ :=
  (objects.map fun o => JsonDump.size (compact w.fraction) (observationJson o)).sum +
    (objects.length - 1)

def gapsBytes (w : Writer) (gaps : List CoverageGap) : ℕ :=
  (gaps.map fun gap => JsonDump.size (compact w.fraction) gap.toJson).sum + (gaps.length - 1)

/-- The bytes of everything else. -/
def frameBytes (w : Writer) (e : Envelope) : ℕ :=
  ({ e with objects := [], gaps := [] } : Envelope).size w

theorem size_eq (w : Writer) (e : Envelope) :
    e.size w = frameBytes w e + objectsBytes w e.objects + gapsBytes w e.gaps := by
  have hoptional : ({ e with objects := [], gaps := [] } : Envelope).optionalFields w =
      e.optionalFields w := rfl
  have hcomma : bytes (compact w.fraction).comma = 1 := rfl
  simp only [frameBytes, Envelope.size, Envelope.toJson, hoptional, size_obj, List.map_append,
    List.map_cons, List.map_nil, List.sum_append, List.sum_cons, List.sum_nil, List.length_append,
    List.length_cons, List.length_nil, fieldSize, size_arr, hcomma, objectsBytes, gapsBytes,
    List.map_map, List.length_map, Function.comp_def]
  omega

/-- Either status of an answer that is no error is written in as many bytes. -/
theorem fieldSize_status (fraction : ℚ → List Char) :
    fieldSize (compact fraction) ("status", .str (statusName .partialResult)) =
      fieldSize (compact fraction) ("status", .str (statusName .success)) := by
  have hescaped : bytes ("PARTIAL".toList.flatMap fun ch => JsonText.jsEscape ch.toNat) =
      bytes ("SUCCESS".toList.flatMap fun ch => JsonText.jsEscape ch.toNat) := by decide +kernel
  simp only [fieldSize, JsonDump.size, dump, quote, compact, statusName, bytes_cons, bytes_append, hescaped]

theorem frameBytes_keep (h : e.status ≠ .error) (kept : ℕ) :
    frameBytes w (e.keep kept) = frameBytes w e := by
  have hstatus : fieldSize (compact w.fraction) ("status", .str (statusName .partialResult)) =
      fieldSize (compact w.fraction) ("status", .str (statusName e.status)) := by
    cases hs : e.status with
    | success => exact fieldSize_status w.fraction
    | partialResult => rfl
    | error => exact absurd hs h
  have hoptional : ({ e.keep kept with objects := [], gaps := [] } : Envelope).optionalFields w =
      e.optionalFields w := by
    simp only [Envelope.optionalFields, Envelope.keep]
  have hoptional' : ({ e with objects := [], gaps := [] } : Envelope).optionalFields w =
      e.optionalFields w := by
    rw [Envelope.optionalFields, Envelope.optionalFields]
  simp only [frameBytes, Envelope.size, Envelope.toJson, hoptional, hoptional', size_obj,
    List.map_append, List.map_cons, List.map_nil]
  simp only [Envelope.keep, hstatus, List.length_append, List.length_cons]

theorem objectsBytes_take (objects : List Normalizer.WireObservation) {kept : ℕ} (h : 1 ≤ kept)
    (hle : kept ≤ objects.length) :
    objectsBytes w (objects.take 1) + (kept - 1) ≤ objectsBytes w (objects.take kept) := by
  have hsub : ((objects.take 1).map fun o =>
      JsonDump.size (compact w.fraction) (observationJson o)).Sublist
      ((objects.take kept).map fun o => JsonDump.size (compact w.fraction) (observationJson o)) :=
    (List.take_prefix_take_left h).sublist.map _
  have hsum := hsub.sum_le_sum fun _ _ => Nat.zero_le _
  rw [objectsBytes, objectsBytes, List.length_take, List.length_take, min_eq_left hle]
  omega

theorem digits_add (n extra : ℕ) :
    (Nat.toDigits 10 (n + extra)).length ≤ (Nat.toDigits 10 n).length + extra := by
  have hpos : 0 < (Nat.toDigits 10 n).length := Nat.length_toDigits_pos
  rw [Nat.length_toDigits_le_iff (by decide) (by omega), pow_add]
  have hn : n < 10 ^ (Nat.toDigits 10 n).length :=
    (Nat.length_toDigits_le_iff (by decide) hpos).1 le_rfl
  have hextra : extra < 10 ^ extra := Nat.lt_pow_self (by decide)
  calc n + extra < 10 ^ (Nat.toDigits 10 n).length + 10 ^ (Nat.toDigits 10 n).length * extra := by
        have hmul := Nat.le_mul_of_pos_left extra (Nat.pos_of_ne_zero (by omega) :
          0 < 10 ^ (Nat.toDigits 10 n).length)
        omega
    _ = 10 ^ (Nat.toDigits 10 n).length * (extra + 1) := by rw [Nat.mul_succ, Nat.add_comm]
    _ ≤ 10 ^ (Nat.toDigits 10 n).length * 10 ^ extra := Nat.mul_le_mul_left _ hextra

theorem digit_plain {ch : Char} (h : ch.isDigit) :
    JsonText.jsEscape ch.toNat = [ch] ∧ ch.utf8Size = 1 := by
  have hall : ∀ i : Fin 10, JsonText.jsEscape (48 + i) = [Char.ofNat (48 + i)] ∧
      (Char.ofNat (48 + i)).utf8Size = 1 := by decide
  have hrange : 48 ≤ ch.toNat ∧ ch.toNat ≤ 57 := by
    simpa [Char.isDigit, UInt32.le_iff_toNat_le] using h
  have hdigit := hall ⟨ch.toNat - 48, by omega⟩
  rw [show 48 + (ch.toNat - 48) = ch.toNat by omega, Char.ofNat_toNat] at hdigit
  exact hdigit

theorem digits_plain (n : ℕ) : bytes ((Nat.toDigits 10 n).flatMap fun ch =>
    JsonText.jsEscape ch.toNat) = (Nat.toDigits 10 n).length := by
  have hdigits : ∀ ch ∈ Nat.toDigits 10 n, ch.isDigit := fun ch hch =>
    Nat.isDigit_of_mem_toDigits (by decide) (by decide) hch
  generalize Nat.toDigits 10 n = digits at hdigits ⊢
  induction digits with
  | nil => rfl
  | cons ch digits ih =>
    rw [List.forall_mem_cons] at hdigits
    obtain ⟨hescape, hsize⟩ := digit_plain hdigits.1
    rw [List.flatMap_cons, hescape, bytes_append, bytes_cons, bytes_nil, hsize, ih hdigits.2,
      List.length_cons]
    omega

theorem outputGap_toJson (dropped : ℕ) : (outputGap dropped).toJson =
    .obj [("code", .str "OUTPUT_LIMIT"),
      ("detail", .str ("输出达到 1.5 MiB 传输预算，已截断 " ++ toString dropped ++ " 条结果")),
      ("resumable", .bool true)] := rfl

/-- The gap grows with the digits of the number that it tells. -/
theorem outputGap_size (w : Writer) : ∃ base, ∀ dropped : ℕ,
    JsonDump.size (compact w.fraction) (outputGap dropped).toJson =
      base + (Nat.toDigits 10 dropped).length := by
  refine ⟨JsonDump.size (compact w.fraction) (.obj [("code", .str "OUTPUT_LIMIT"),
    ("detail", .str ("输出达到 1.5 MiB 传输预算，已截断 " ++ " 条结果")),
    ("resumable", .bool true)]), fun dropped => ?_⟩
  have hdetail : JsonDump.size (compact w.fraction)
      (.str ("输出达到 1.5 MiB 传输预算，已截断 " ++ toString dropped ++ " 条结果")) =
      JsonDump.size (compact w.fraction)
        (.str ("输出达到 1.5 MiB 传输预算，已截断 " ++ " 条结果")) +
          (Nat.toDigits 10 dropped).length := by
    simp only [JsonDump.size, dump, quote, compact, String.toList_append, List.flatMap_append,
      bytes_cons, bytes_append, Nat.toString_eq_ofList_toDigits, String.toList_ofList, digits_plain]
    omega
  rw [outputGap_toJson, size_obj, size_obj]
  simp only [List.map_cons, List.map_nil, List.sum_cons, List.sum_nil, fieldSize, hdetail,
    List.length_cons, List.length_nil]
  omega

theorem gapsBytes_append (gaps : List CoverageGap) (gap : CoverageGap) :
    gapsBytes w (gaps ++ [gap]) = gapsBytes w gaps + (if gaps.isEmpty then 0 else 1) +
      JsonDump.size (compact w.fraction) gap.toJson := by
  rw [gapsBytes, gapsBytes, List.map_append, List.sum_append, List.length_append]
  cases gaps with
  | nil => simp
  | cons gap gaps =>
    simp only [List.map_cons, List.map_nil, List.sum_cons, List.sum_nil, List.length_cons,
      List.length_nil, List.isEmpty_cons]
    simp
    omega

theorem gapsBytes_keep (e : Envelope) {base : ℕ}
    (hbase : ∀ dropped : ℕ, JsonDump.size (compact w.fraction) (outputGap dropped).toJson =
      base + (Nat.toDigits 10 dropped).length) (kept : ℕ) (hkept : kept ≤ e.objects.length) :
    gapsBytes w (e.keep kept).gaps = gapsBytes w e.gaps + (if e.gaps.isEmpty then 0 else 1) +
      (base + (Nat.toDigits 10 (e.objects.length - kept)).length) := by
  rw [← hbase, Nat.cast_sub hkept, ← gapsBytes_append]
  rfl

/-- A candidate with fewer objects is no larger, as long as one is dropped. -/
theorem size_keep_one (h : e.status ≠ .error) {kept : ℕ} (hkept : 1 ≤ kept)
    (hlt : kept < e.objects.length) : (e.keep 1).size w ≤ (e.keep kept).size w := by
  obtain ⟨base, hbase⟩ := outputGap_size w
  have hobjects := objectsBytes_take (w := w) e.objects hkept hlt.le
  have hdigits := digits_add (e.objects.length - kept) (kept - 1)
  rw [show e.objects.length - kept + (kept - 1) = e.objects.length - 1 by omega] at hdigits
  have hgap := gapsBytes_keep (w := w) e hbase
  rw [size_eq, size_eq w (e.keep kept), frameBytes_keep h, frameBytes_keep h, hgap 1 (by omega),
    hgap kept hlt.le]
  simp only [Envelope.keep]
  omega

theorem size_keep_all (h : e.status ≠ .error) {kept : ℕ} (hkept : e.objects.length ≤ kept) :
    e.size w < (e.keep kept).size w := by
  rw [size_eq, size_eq w (e.keep kept), frameBytes_keep h, show (e.keep kept).objects = e.objects
    from List.take_of_length_le hkept]
  rw [show (e.keep kept).gaps = e.gaps ++ [outputGap (e.objects.length - kept)] from rfl,
    gapsBytes_append]
  have hpos : 0 < JsonDump.size (compact w.fraction)
      (outputGap (e.objects.length - kept)).toJson := by
    rw [show (outputGap (e.objects.length - kept)).toJson = .obj [("code", .str "OUTPUT_LIMIT"),
      ("detail", .str s!"输出达到 1.5 MiB 传输预算，已截断 {(e.objects.length - kept : ℤ)} 条结果"),
      ("resumable", .bool true)] from rfl, size_obj]
    omega
  omega

/-! ### The loop -/

theorem shrink_ok {kept : ℕ} {sent : Envelope} (h : shrink w e kept = .ok sent) :
    ∃ k, 1 ≤ k ∧ sent = e.keep k ∧ (e.keep k).size w ≤ maxOutputBytes := by
  induction kept using Nat.strongRecOn with
  | ind kept ih =>
    rw [shrink] at h
    split at h
    · rename_i hkept
      split at h
      · rename_i hfits
        cases h
        exact ⟨kept, hkept, rfl, hfits⟩
      · exact ih (fewer kept) (fewer_lt hkept) h
    · cases h

theorem shrink_error {kept : ℕ} {error : HelperError} (h : shrink w e kept = .error error) :
    error.code = .outputLimitExceeded := by
  induction kept using Nat.strongRecOn with
  | ind kept ih =>
    rw [shrink] at h
    split at h
    · rename_i hkept
      split at h
      · cases h
      · exact ih (fewer kept) (fewer_lt hkept) h
    · cases h
      rfl

/-- The loop comes down to one object. -/
theorem shrink_fits {kept : ℕ} (hkept : 1 ≤ kept) (hfits : (e.keep 1).size w ≤ maxOutputBytes) :
    ∃ sent, shrink w e kept = .ok sent := by
  induction kept using Nat.strongRecOn with
  | ind kept ih =>
    rw [shrink, if_pos hkept]
    split
    · exact ⟨_, rfl⟩
    · rename_i hlarge
      have hne : kept ≠ 1 := by
        rintro rfl
        exact hlarge hfits
      refine ih (fewer kept) (fewer_lt hkept) ?_
      rw [fewer]
      split <;> omega

/-! ### What the other side needs -/

/-- The cut answer is accepted, keeps the first objects, counts only what it sends, and its cursor
    resumes at the first object that was dropped. -/
structure CutSoundly (c : Coercions) (w : Writer) (requestId : String) (reserved : WireCost)
    (page : Page) (sent : Envelope) : Prop where
  accepted : ∃ response, Wire.parseWireResponse (some (sent.toJson w)) requestId = .ok response ∧
    Wire.assertCostWithinReservation c response.cost reserved = .ok ()
  isPrefix : sent.objects <+: page.objects
  counts : ∀ scan ∈ sent.scan, scan.returnedCount = sent.objects.length
  resumes : sent.objects.length < page.objects.length →
    sent.cursor.map (·.offset) = page.positions[sent.objects.length]?

def SoundOutcome (c : Coercions) (w : Writer) (requestId : String) (reserved : WireCost)
    (page : Page) : Except HelperError Envelope → Prop
  | .ok sent => CutSoundly c w requestId reserved page sent
  | .error error => error.code = .outputLimitExceeded

theorem envelope_status (w : Writer) (requestId : String) (elapsed : ℕ) (page : Page) :
    (page.envelope w requestId elapsed).status ≠ .error := by
  cases page <;> simp only [Page.envelope, respond] <;> split <;> simp

theorem envelope_bytes (w : Writer) (requestId : String) (elapsed : ℕ) (page : Page) :
    (page.envelope w requestId elapsed).cost.bytes =
      JsonDump.size (ascii w.fraction) (.arr (page.objects.map observationJson)) := by
  cases page <;> rfl

theorem envelope_objects (w : Writer) (requestId : String) (elapsed : ℕ) (page : Page) :
    (page.envelope w requestId elapsed).objects = page.objects := by
  cases page <;> rfl

/-- A cut that fits has dropped an object. -/
theorem kept_lt (h : e.status ≠ .error) (hlarge : maxOutputBytes < e.size w) {kept : ℕ}
    (hfits : (e.keep kept).size w ≤ maxOutputBytes) : kept < e.objects.length := by
  by_contra hle
  have hall := size_keep_all (w := w) h (not_lt.1 hle)
  omega

/-- Either one object fits with its envelope, and the answer is cut, or the error says so. -/
theorem budgeted_output_cases (share : ℕ → ℕ → ℕ) (h : e.status ≠ .error)
    (hlarge : maxOutputBytes < e.size w) :
    ((e.keep 1).size w ≤ maxOutputBytes ∧ ∃ kept, 1 ≤ kept ∧ kept < e.objects.length ∧
        budgeted_output w share e = .ok (e.keep kept)) ∨
      (maxOutputBytes < (e.keep 1).size w ∧ ∃ error, budgeted_output w share e = .error error ∧
        error.code = .outputLimitExceeded) := by
  by_cases hempty : e.objects.isEmpty
  · have hnone : e.objects.length ≤ 1 := by simp [List.isEmpty_iff.1 hempty]
    have hall := size_keep_all (w := w) h hnone
    refine Or.inr ⟨by omega, _, by rw [budgeted_output, if_pos hempty], rfl⟩
  · have hkept : 1 ≤ max 1 (share e.objects.length (e.size w)) := le_max_left ..
    rw [budgeted_output, if_neg hempty]
    by_cases hfits : (e.keep 1).size w ≤ maxOutputBytes
    · obtain ⟨sent, hsent⟩ := shrink_fits hkept hfits
      obtain ⟨kept, hpos, rfl, hsize⟩ := shrink_ok hsent
      exact Or.inl ⟨hfits, kept, hpos, kept_lt h hlarge hsize, hsent⟩
    · refine Or.inr ⟨by omega, ?_⟩
      cases hshrink : shrink w e (max 1 (share e.objects.length (e.size w))) with
      | ok sent =>
        obtain ⟨kept, hpos, rfl, hsize⟩ := shrink_ok hshrink
        have hone := size_keep_one (w := w) h hpos (kept_lt h hlarge hsize)
        omega
      | error error => exact ⟨error, rfl, shrink_error hshrink⟩

theorem get_status (w : Writer) (e : Envelope) :
    (e.toJson w).get? "status" = some (.str (statusName e.status)) := rfl

theorem get_objects (w : Writer) (e : Envelope) :
    (e.toJson w).get? "objects" = some (.arr (e.objects.map observationJson)) := rfl

theorem get_scan (w : Writer) (e : Envelope) (scan : Scan) (h : e.scan = some scan) :
    (e.toJson w).get? "scan" = some scan.toJson := by
  cases hcursor : e.cursor <;>
    simp [Envelope.toJson, Envelope.optionalFields, Json.get?, List.lookup_cons, h, hcursor]

theorem get_returnedCount (scan : Scan) :
    scan.toJson.get? "returnedCount" = some (.num scan.returnedCount) := by
  cases hupper : scan.upperBound <;> simp [Scan.toJson, Json.get?, List.lookup_cons, hupper]

/-- The controller holds the count of a page against the objects it gets. -/
theorem accepted_count {requestId : String} {response : Wire.Response} {scan : Scan}
    (h : Wire.parseWireResponse (some (e.toJson w)) requestId = .ok response)
    (hstatus : e.status = .partialResult) (hscan : e.scan = some scan) :
    scan.returnedCount = e.objects.length := by
  simp only [Wire.parseWireResponse, bind_ok, orThrow_ok, require_ok, pure_ok] at h
  obtain ⟨_, hvalue, _, -, _, -, _, hchecked, -⟩ := h
  cases hvalue
  rw [Wire.checkStatus, get_status, hstatus] at hchecked
  simp only [statusName, bind_ok, Wire.checkCollections, orThrow_ok, require_ok, get_objects,
    get_scan w e scan hscan, Option.bind_some, Json.asArray?, Option.some.injEq, Option.all_some,
    Wire.scanAccepted, Bool.and_eq_true, decide_eq_true_eq, get_returnedCount] at hchecked
  obtain ⟨_, ⟨objects, hobjects, _, -, _, -, _, -, _, ⟨⟨-, hcount⟩, -⟩, -⟩, -⟩ := hchecked
  rw [Json.num.injEq, Nat.cast_inj, ← hobjects, List.length_map] at hcount
  exact hcount

/-- A page that was cut is never sound: an enumeration is rejected for its count, and the cursor of a
    relation points past the dropped objects or is missing. -/
theorem cut_unsound {c : Coercions} {requestId : String} {elapsed : ℕ} {reserved : WireCost}
    {page : Page} {kept : ℕ} (hlt : kept < page.objects.length) :
    ¬ CutSoundly c w requestId reserved page ((page.envelope w requestId elapsed).keep kept) := by
  have hlength : ((page.envelope w requestId elapsed).keep kept).objects.length = kept := by
    rw [Envelope.keep, envelope_objects, List.length_take, min_eq_left hlt.le]
  intro h
  cases page with
  | enumerated objects gaps progress cursor more positions =>
    obtain ⟨response, hparse, -⟩ := h.accepted
    have hcount := accepted_count hparse rfl rfl
    rw [hlength] at hcount
    exact absurd hcount hlt.ne'
  | related objects edges gaps cursor offset more =>
    have hresumes := h.resumes (by rw [hlength]; exact hlt)
    change kept < objects.length at hlt
    rw [hlength, Page.positions, List.getElem?_map, List.getElem?_range hlt] at hresumes
    cases more with
    | false => cases hresumes
    | true =>
      have hoffset : offset + objects.length = offset + kept := Option.some.inj hresumes
      omega

end

/-- A page that is larger than the budget goes out soundly exactly when it does not go out at all: not
    even its first object fits. -/
theorem budgeted_output_sound_iff (c : Coercions) (w : Writer) (share : ℕ → ℕ → ℕ)
    (requestId : String) (elapsed : ℕ) (reserved : WireCost) (page : Page)
    (hlarge : maxOutputBytes < (page.envelope w requestId elapsed).size w) :
    SoundOutcome c w requestId reserved page
        (budgeted_output w share (page.envelope w requestId elapsed)) ↔
      maxOutputBytes < ((page.envelope w requestId elapsed).keep 1).size w := by
  rcases budgeted_output_cases share (envelope_status w requestId elapsed page) hlarge with
    ⟨hfits, kept, -, hlt, hsent⟩ | ⟨hnot, error, hsent, hcode⟩
  · rw [hsent, SoundOutcome]
    rw [envelope_objects] at hlt
    exact ⟨fun h => absurd h (cut_unsound hlt), fun h => by omega⟩
  · rw [hsent, SoundOutcome]
    exact ⟨fun _ => hnot, fun _ => hcode⟩

/-! ### A page of two hundred log events -/

/-- Characters that take one byte and need no escape. -/
def plainIn (style : Style) (ch : Char) : Prop := style.escape ch.toNat = [ch] ∧ ch.utf8Size = 1

instance (style : Style) (ch : Char) : Decidable (plainIn style ch) :=
  inferInstanceAs (Decidable (style.escape ch.toNat = [ch] ∧ ch.utf8Size = 1))

theorem size_plain {style : Style} {text : List Char} (h : ∀ ch ∈ text, plainIn style ch) :
    JsonDump.size style (.str (String.ofList text)) = text.length + 2 := by
  have hbytes : bytes (text.flatMap fun ch => style.escape ch.toNat) = text.length := by
    induction text with
    | nil => rfl
    | cons ch text ih =>
      rw [List.forall_mem_cons] at h
      rw [List.flatMap_cons, h.1.1, bytes_append, bytes_cons, bytes_nil, h.1.2, ih h.2,
        List.length_cons]
      omega
  have hquote : Char.utf8Size '"' = 1 := by decide
  rw [JsonDump.size, dump, quote, String.toList_ofList, bytes_cons, bytes_append, hbytes,
    bytes_cons, bytes_nil, hquote]
  omega

def sampleWriter : Writer := ⟨fun _ => "cursor", fun _ => []⟩

def samplePage (objects : List Normalizer.WireObservation) : Page :=
  .enumerated objects [] ⟨"generation", 200, 200, 200, none, true, 200⟩
    ⟨.logEvent, 0, "binding", "generation", none⟩ false (List.range 200)

/-- Two hundred objects of one size. -/
structure Uniform (objects : List Normalizer.WireObservation) : Prop where
  length : objects.length = 200
  compact : ∀ o ∈ objects, JsonDump.size (compact sampleWriter.fraction) (observationJson o) = 8814
  ascii : ∀ o ∈ objects, JsonDump.size (ascii sampleWriter.fraction) (observationJson o) = 8833

theorem sum_uniform {α : Type} {f : α → ℕ} {items : List α} {n : ℕ} (h : ∀ a ∈ items, f a = n) :
    (items.map f).sum = items.length * n := by
  rw [List.map_congr_left h, List.map_const', List.sum_replicate, smul_eq_mul]

section

variable {objects : List Normalizer.WireObservation}

theorem Uniform.bytes (h : Uniform objects) :
    ((samplePage objects).envelope sampleWriter "call-1" 40).cost.bytes = 1767000 := by
  have hsum : ((objects.map observationJson).map
      (JsonDump.size (JsonDump.ascii sampleWriter.fraction))).sum = 200 * 8833 := by
    rw [List.map_map, ← h.length]
    exact sum_uniform h.ascii
  rw [envelope_bytes, samplePage, Page.objects, size_arr, hsum, List.length_map, h.length]
  rfl

theorem Uniform.large (h : Uniform objects) :
    maxOutputBytes < ((samplePage objects).envelope sampleWriter "call-1" 40).size sampleWriter := by
  have hsum := sum_uniform h.compact
  rw [h.length] at hsum
  rw [size_eq, envelope_objects, samplePage, Page.objects, objectsBytes, hsum, maxOutputBytes]
  omega

theorem Uniform.fits (h : Uniform objects) :
    (((samplePage objects).envelope sampleWriter "call-1" 40).keep 1).size sampleWriter ≤
      maxOutputBytes := by
  have hframe : ({ (samplePage objects).envelope sampleWriter "call-1" 40 with
        objects := [], gaps := [] } : Envelope) =
      ⟨"call-1", .success, [], [], ⟨200, 1767000, 40, 0⟩, [], none,
        some ⟨"generation", 200, 200, 200, none, true, 200⟩, none⟩ := by
    have hbytes := h.bytes
    simp only [samplePage, Page.envelope, respond] at hbytes ⊢
    rw [hbytes, h.length]
    rfl
  have hframeBytes :
      frameBytes sampleWriter ((samplePage objects).envelope sampleWriter "call-1" 40) ≤ 1000 := by
    rw [frameBytes, hframe]
    decide +kernel
  have hgaps : gapsBytes sampleWriter [outputGap ((200 : ℕ) - (1 : ℕ))] ≤ 1000 := by decide
  have hobjects : objectsBytes sampleWriter (objects.take 1) = 8814 := by
    obtain ⟨first, rest, rfl⟩ : ∃ first rest, objects = first :: rest :=
      List.exists_cons_of_length_pos (by rw [h.length]; decide)
    simp [objectsBytes, h.compact first]
  rw [size_eq, frameBytes_keep (envelope_status sampleWriter "call-1" 40 _), Envelope.keep,
    envelope_objects, samplePage, Page.objects, h.length, maxOutputBytes]
  change frameBytes sampleWriter ((samplePage objects).envelope sampleWriter "call-1" 40) +
    objectsBytes sampleWriter (objects.take 1) +
      gapsBytes sampleWriter [outputGap ((200 : ℕ) - (1 : ℕ))] ≤ 1572864
  omega

end

/-- Two hundred letters that differ from event to event. -/
def sampleCursor (i : ℕ) : List Char := List.replicate i 'a' ++ List.replicate (200 - i) 'b'

def sampleMessage : List Char := List.replicate 8192 'm'

def sampleEvent (i : ℕ) : Normalizer.WireObservation where
  namespace_ := .logEvent
  identity := [("sourceId", .str "journal"), ("cursor", .str (String.ofList (sampleCursor i)))]
  fields := [("sourceId", .str "journal"), ("cursor", .str (String.ofList (sampleCursor i))),
    ("message", .str (String.ofList sampleMessage))]
  unavailableFields := []
  observedAt := "2026-01-01T00:00:00Z"
  consistency := .cursorBestEffort

/-- Every event is as large as every other one. -/
theorem sampleEvent_size {style : Style} (hplain : ∀ ch ∈ ['a', 'b', 'm'], plainIn style ch)
    {i : ℕ} (h : i ≤ 200) :
    JsonDump.size style (observationJson (sampleEvent i)) =
      JsonDump.size style (observationJson { sampleEvent 0 with
        identity := [("sourceId", .str "journal"), ("cursor", .str "")]
        fields := [("sourceId", .str "journal"), ("cursor", .str ""), ("message", .str "")] }) +
        200 + 200 + 8192 := by
  have hcursor : JsonDump.size style (.str (String.ofList (sampleCursor i))) = 200 + 2 := by
    rw [size_plain]
    · simp only [sampleCursor, List.length_append, List.length_replicate]
      omega
    · intro ch hch
      apply hplain
      simp only [sampleCursor, List.mem_append, List.mem_replicate] at hch
      rcases hch with ⟨-, rfl⟩ | ⟨-, rfl⟩ <;> simp
  have hmessage : JsonDump.size style (.str (String.ofList sampleMessage)) = 8192 + 2 := by
    rw [size_plain]
    · rw [sampleMessage, List.length_replicate]
    · intro ch hch
      rw [List.eq_of_mem_replicate hch]
      exact hplain _ (by simp)
  have hempty : JsonDump.size style (.str "") = 2 := @size_plain style [] (by simp)
  simp only [observationJson, sampleEvent, size_obj, List.map_cons, List.map_nil, List.sum_cons,
    List.sum_nil, fieldSize, hcursor, hmessage, hempty, List.length_cons, List.length_nil]
  omega

theorem compact_letters : ∀ ch ∈ ['a', 'b', 'm'], plainIn (compact sampleWriter.fraction) ch := by
  intro ch hch
  rcases List.mem_cons.1 hch with rfl | hch
  · decide
  rcases List.mem_cons.1 hch with rfl | hch
  · decide
  rw [List.mem_singleton.1 hch]
  decide

theorem ascii_letters : ∀ ch ∈ ['a', 'b', 'm'], plainIn (ascii sampleWriter.fraction) ch := by
  intro ch hch
  rcases List.mem_cons.1 hch with rfl | hch
  · decide
  rcases List.mem_cons.1 hch with rfl | hch
  · decide
  rw [List.mem_singleton.1 hch]
  decide

theorem sampleEvents_uniform : Uniform ((List.range 200).map sampleEvent) where
  length := by rw [List.length_map, List.length_range]
  compact := by
    intro o ho
    obtain ⟨i, hi, rfl⟩ := List.mem_map.1 ho
    rw [sampleEvent_size compact_letters (List.mem_range.1 hi).le]
    decide +kernel
  ascii := by
    intro o ho
    obtain ⟨i, hi, rfl⟩ := List.mem_map.1 ho
    rw [sampleEvent_size ascii_letters (List.mem_range.1 hi).le]
    decide +kernel

/-- The exact share, rounded down. -/
def sampleShare (original size : ℕ) : ℕ := original * maxOutputBytes * 9 / (size * 10)

def sampleOutcome (page : Page) : Prop :=
  SoundOutcome Js.plainCoercions sampleWriter "call-1"
    (RemoteTool.estimateRemoteCost .enumerate {}) page
    (budgeted_output sampleWriter sampleShare (page.envelope sampleWriter "call-1" 40))

theorem budgeted_output_sound_events :
    sampleOutcome (samplePage ((List.range 200).map sampleEvent)) ↔
      maxOutputBytes < (((samplePage ((List.range 200).map sampleEvent)).envelope sampleWriter
        "call-1" 40).keep 1).size sampleWriter :=
  budgeted_output_sound_iff _ sampleWriter _ "call-1" 40 _ _ sampleEvents_uniform.large

/-- The events are cut to a prefix that the controller rejects: the count is that of the whole page. -/
theorem events_cut_unsound :
    ¬ sampleOutcome (samplePage ((List.range 200).map sampleEvent)) := by
  rcases budgeted_output_cases sampleShare (envelope_status sampleWriter "call-1" 40 _)
    sampleEvents_uniform.large with ⟨-, kept, -, hlt, hsent⟩ | ⟨hnot, -⟩
  · rw [envelope_objects] at hlt
    rw [sampleOutcome, hsent]
    exact cut_unsound hlt
  · exact absurd sampleEvents_uniform.fits (not_le.2 hnot)

end HuntWarden.Helper
