import HuntWarden.Evidence.EvidenceStore
import HuntWarden.Lib.Paging

/-! Taking the evidence of a task away. An export copies the stored artifacts, describes them in a manifest without
    secrets and lists the digests of all it wrote; the check that reads the list accepts a directory exactly while
    every file in it is what was exported. An export that fails leaves nothing behind. -/

namespace HuntWarden.EvidenceExport

open EvidenceStore Outcome

/-! ### The manifest -/

def startsWith (start text : List Char) : Bool := start.isPrefixOf text

/-- `start.?end` in a regular expression. -/
def gapped (start ending text : List Char) : Bool :=
  startsWith start text &&
    (startsWith ending (text.drop start.length) ||
      match text.drop start.length with
      | gap :: rest =>
        gap.toNat < 0x10000 && !(gap.toNat ∈ [0x0A, 0x0D, 0x2028, 0x2029] : Bool) && startsWith ending rest
      | [] => false)

def isSensitiveAt (text : List Char) : Bool :=
  startsWith "token".toList text || startsWith "secret".toList text || startsWith "credential".toList text ||
    gapped "private".toList "key".toList text || gapped "storage".toList "path".toList text

/-- `/(?:token|secret|credential|private.?key|storage.?path)/i` -/
def isSensitive (name : String) : Bool := (name.toList.map Char.toLower).tails.any isSensitiveAt

mutual
def sanitizeExportValue : Json → Json
  | .arr items => .arr (sanitizeItems items)
  | .obj fields => .obj (sanitizeFields fields)
  | value => value

def sanitizeItems : List Json → List Json
  | [] => []
  | item :: items => sanitizeExportValue item :: sanitizeItems items

def sanitizeFields : List (String × Json) → List (String × Json)
  | [] => []
  | (name, value) :: fields =>
    if isSensitive name then sanitizeFields fields else (name, sanitizeExportValue value) :: sanitizeFields fields
end

mutual
/-- No name in it is sensitive, at any depth. -/
def clean : Json → Bool
  | .arr items => cleanItems items
  | .obj fields => cleanFields fields
  | _ => true

def cleanItems : List Json → Bool
  | [] => true
  | item :: items => clean item && cleanItems items

def cleanFields : List (String × Json) → Bool
  | [] => true
  | (name, value) :: fields => !isSensitive name && clean value && cleanFields fields
end

structure Item where
  evidenceId : String
  taskId : String
  host : String
  type : String
  source : String
  collectedAt : String
  tool : String
  toolCallId : Option String
  sha256 : Option String
  metadata : Option Payload
  storagePath : Option String

structure Artifact where
  path : String
  bytes : ℕ
  sha256 : String

/-- A text that is there and not empty. -/
def given (text : Option String) : Option String := text.filter (· ≠ "")

def optional (name : String) (value : Option Json) : Payload := (value.map fun value => (name, value)).toList

def Artifact.toJson (artifact : Artifact) : Json :=
  .obj [("path", .str artifact.path), ("bytes", .num artifact.bytes), ("sha256", .str artifact.sha256)]

def recordOf (entry : Item × Option Artifact) : Json :=
  .obj ([("evidenceId", Json.str entry.1.evidenceId), ("taskId", .str entry.1.taskId), ("host", .str entry.1.host),
      ("type", .str entry.1.type), ("source", .str entry.1.source), ("collectedAt", .str entry.1.collectedAt),
      ("tool", .str entry.1.tool)] ++
    optional "toolCallId" ((given entry.1.toolCallId).map .str) ++
    optional "sha256" ((given entry.1.sha256).map .str) ++
    optional "metadata" (entry.1.metadata.map fun fields => sanitizeExportValue (.obj fields)) ++
    optional "artifact" (entry.2.map Artifact.toJson))

/-- What is asked for: the task and its epoch, whether the destination is in the store itself, and the evidence. -/
structure Request where
  taskId : String
  task : Option (Option String)
  managed : Bool
  exportedAt : String
  evidence : List Item

abbrev Records := List (Item × Option Artifact)

def artifactsOf (records : Records) : List Artifact := records.filterMap Prod.snd

def manifestOf (request : Request) (epochId : Option String) (records : Records) : Json :=
  .obj ([("schemaVersion", Json.num 1), ("taskId", .str request.taskId)] ++
    optional "epochId" ((given epochId).map .str) ++
    [("exportedAt", Json.str request.exportedAt), ("evidenceCount", .num records.length),
      ("artifactCount", .num (artifactsOf records).length), ("evidence", .arr (records.map recordOf))])

/-! ### Writing -/

/-- The store's files over time, which writes to the destination work, the digest, `JSON.stringify(value, null, 2)`
    with a line end, and the order of ids. -/
structure Env where
  look : ℕ → String → Option Node
  creates : Bool
  writes : ℕ → Bool
  sha256 : Bytes → String
  stringify : Json → Bytes
  collate : String → String → Ordering

inductive ExportError where
  | noTask
  | managedDirectory
  | directoryExists
  | noDigest (evidenceId : String)
  | damaged (evidenceId : String)
  | copyDiffers (evidenceId : String)
  | unreadable (evidenceId : String)
  | notWritten

def isHex (ch : Char) : Bool := (48 ≤ ch.toNat && ch.toNat ≤ 57) || (97 ≤ ch.toNat && ch.toNat ≤ 102)

def isDigest (text : List Char) : Bool := text.length = 64 && text.all isHex

abbrev Exported := List (String × Bytes)

def artifactPath (item : Item) : String := "artifacts/" ++ (item.evidenceId ++ "_" ++ safeName item.source)

def fileOf : Option Node → Option Bytes
  | some (.file bytes) => some bytes
  | _ => none

variable (env : Env)

/-- One artifact: looked at, hashed, copied and hashed again, at moments of its own. -/
def exportArtifact (moment : ℕ) (files : Exported) (item : Item) (source : String) :
    Except ExportError (Exported × Artifact) := do
  let digest ← orThrow (item.sha256.filter fun text => isDigest text.toList) (.noDigest item.evidenceId)
  let info ← orThrow (env.look moment source) (.unreadable item.evidenceId)
  let hashed ← orThrow (fileOf (env.look (moment + 1) source)) (.unreadable item.evidenceId)
  let _ ← require ((fileOf (some info)).isSome && env.sha256 hashed = digest) (.damaged item.evidenceId)
  let _ ← require (env.writes moment) .notWritten
  let copied ← orThrow (fileOf (env.look (moment + 2) source)) (.unreadable item.evidenceId)
  let _ ← require (files.lookup (artifactPath item)).isNone (.unreadable item.evidenceId)
  let _ ← require (env.sha256 copied = env.sha256 hashed) (.copyDiffers item.evidenceId)
  return (files ++ [(artifactPath item, copied)],
    { path := artifactPath item, bytes := ((fileOf (some info)).getD []).length, sha256 := env.sha256 hashed })

def exportItem (moment : ℕ) (files : Exported) (item : Item) : Except ExportError (Exported × Option Artifact) :=
  match given item.storagePath with
  | none => .ok (files, none)
  | some source => (exportArtifact env moment files item source).map fun exported => (exported.1, some exported.2)

def exportItems : ℕ → Exported → List Item → Except ExportError (Exported × Records)
  | _, files, [] => .ok (files, [])
  | moment, files, item :: items => do
    let exported ← exportItem env moment files item
    let rest ← exportItems (moment + 3) exported.1 items
    return (rest.1, (item, exported.2) :: rest.2)

def manifestName : String := "EVIDENCE-MANIFEST.json"

def sumLine (digest path : String) : List Char := digest.toList ++ ' ' :: ' ' :: path.toList

def sumLines (manifestSha256 : String) (records : Records) : List (List Char) :=
  sumLine manifestSha256 manifestName ::
    (artifactsOf records).map fun artifact => sumLine artifact.sha256 artifact.path

/-- The files, and `SHA256SUMS` beside them. -/
structure Directory where
  files : Exported
  sums : String

structure ExportResult where
  evidenceCount : ℕ
  artifactCount : ℕ
  manifestSha256 : String

def exportBody (request : Request) (epochId : Option String) : Except ExportError (Directory × ExportResult) := do
  let exported ← exportItems env 0 []
    (Paging.sortBy (fun left right => env.collate left.evidenceId right.evidenceId) request.evidence)
  let manifest := env.stringify (manifestOf request epochId exported.2)
  let _ ← require (env.writes (3 * request.evidence.length)) .notWritten
  let _ ← require (env.writes (3 * request.evidence.length + 1)) .notWritten
  return ({ files := (manifestName, manifest) :: exported.1
            sums := String.ofList (['\n'].intercalate (sumLines (env.sha256 manifest) exported.2) ++ ['\n']) },
    { evidenceCount := exported.2.length, artifactCount := (artifactsOf exported.2).length
      manifestSha256 := env.sha256 manifest })

/-- The directory is made, and taken away again when anything fails. -/
def exportTask (request : Request) (before : Option Directory) :
    Option Directory × Except ExportError ExportResult :=
  match request.task with
  | none => (before, .error .noTask)
  | some epochId =>
    if request.managed then (before, .error .managedDirectory)
    else
      match before with
      | some _ => (before, .error .directoryExists)
      | none =>
        if !env.creates then (none, .error .notWritten)
        else
          match exportBody env request epochId with
          | .error error => (none, .error error)
          | .ok (directory, result) => (some directory, .ok result)

/-! ### Checking -/

/-- `/^([a-f0-9]{64})\s{2}(.+)$/` -/
def parseSum (line : List Char) : Option (String × String) :=
  match line.drop 64 with
  | first :: second :: path =>
    if isDigest (line.take 64) && Js.isSpace first && Js.isSpace second && !path.isEmpty &&
        path.all fun ch => !(ch.toNat ∈ [0x0A, 0x0D, 0x2028, 0x2029] : Bool) then
      some (String.ofList (line.take 64), String.ofList path)
    else none
  | _ => none

/-- A path without a file makes it throw. -/
def verifyLines (files : Exported) : List (List Char) → Option Bool
  | [] => some true
  | line :: lines =>
    match parseSum line with
    | none => some false
    | some (digest, path) =>
      match files.lookup path with
      | none => none
      | some bytes => if env.sha256 bytes = digest then verifyLines files lines else some false

def verifyChecksums (directory : Directory) : Option Bool :=
  verifyLines env directory.files ((Js.trim directory.sums).toList.splitOn '\n')

/-! ### What the manifest says -/

mutual
theorem clean_sanitize : ∀ value : Json, clean (sanitizeExportValue value) = true
  | .null | .bool _ | .num _ | .str _ => rfl
  | .arr items => by
    rw [sanitizeExportValue, clean]
    exact clean_sanitizeItems items
  | .obj fields => by
    rw [sanitizeExportValue, clean]
    exact clean_sanitizeFields fields

theorem clean_sanitizeItems : ∀ items : List Json, cleanItems (sanitizeItems items) = true
  | [] => rfl
  | item :: items => by
    rw [sanitizeItems, cleanItems, clean_sanitize item, clean_sanitizeItems items, Bool.and_self]

theorem clean_sanitizeFields : ∀ fields : List (String × Json), cleanFields (sanitizeFields fields) = true
  | [] => rfl
  | (name, value) :: fields => by
    rw [sanitizeFields]
    by_cases hname : isSensitive name = true
    · rw [if_pos hname]
      exact clean_sanitizeFields fields
    · rw [if_neg hname, cleanFields, clean_sanitize value, clean_sanitizeFields fields,
        Bool.eq_false_iff.2 hname]
      rfl
end

theorem cleanFields_append (left right : Payload) :
    cleanFields (left ++ right) = (cleanFields left && cleanFields right) := by
  induction left with
  | nil => rfl
  | cons field left ih =>
    obtain ⟨name, value⟩ := field
    rw [List.cons_append, cleanFields, cleanFields, ih]
    simp only [Bool.and_assoc]

theorem cleanFields_optional {name : String} {value : Option Json} (hname : isSensitive name = false)
    (hvalue : ∀ json, value = some json → clean json = true) : cleanFields (optional name value) = true := by
  cases value with
  | none => rfl
  | some json => simp [optional, cleanFields, hname, hvalue json rfl]

theorem cleanItems_map {α : Type} {f : α → Json} (h : ∀ a, clean (f a) = true) :
    ∀ xs : List α, cleanItems (xs.map f) = true
  | [] => rfl
  | x :: xs => by rw [List.map_cons, cleanItems, h x, cleanItems_map h xs, Bool.and_self]

theorem clean_given {text : Option String} : ∀ json, (given text).map Json.str = some json → clean json = true := by
  intro json h
  obtain ⟨found, -, rfl⟩ := Option.map_eq_some_iff.1 h
  rfl

theorem clean_record (entry : Item × Option Artifact) : clean (recordOf entry) = true := by
  have hmetadata : ∀ json, (entry.1.metadata.map fun fields => sanitizeExportValue (.obj fields)) = some json →
      clean json = true := by
    intro json h
    obtain ⟨fields, -, rfl⟩ := Option.map_eq_some_iff.1 h
    exact clean_sanitize (.obj fields)
  have hartifact : ∀ json, entry.2.map Artifact.toJson = some json → clean json = true := by
    intro json h
    obtain ⟨artifact, -, rfl⟩ := Option.map_eq_some_iff.1 h
    rfl
  rw [recordOf, clean, cleanFields_append, cleanFields_append, cleanFields_append, cleanFields_append,
    cleanFields_optional (by decide) clean_given, cleanFields_optional (by decide) clean_given,
    cleanFields_optional (by decide) hmetadata, cleanFields_optional (by decide) hartifact]
  rfl

theorem clean_manifest (request : Request) (epochId : Option String) (records : Records) :
    clean (manifestOf request epochId records) = true := by
  rw [manifestOf, clean, cleanFields_append, cleanFields_append, cleanFields_optional (by decide) clean_given]
  have hrecords : clean (.arr (records.map recordOf)) = true := by
    rw [clean]
    exact cleanItems_map clean_record records
  simp only [cleanFields, hrecords]
  rfl

/-! ### What is exported -/

/-- A path that is read back as it was written. -/
def plain (path : String) : Prop := path.toList ≠ [] ∧ ∀ ch ∈ path.toList, Js.isSpace ch = false

/-- The file is the one that the artifact describes. -/
def Describes (env : Env) (file : String × Bytes) (artifact : Artifact) : Prop :=
  file.1 = artifact.path ∧ env.sha256 file.2 = artifact.sha256

/-- An artifact stands in the record exactly where one is stored, under the digest that was recorded. -/
def Recorded (entry : Item × Option Artifact) : Prop :=
  (entry.2.isSome ↔ (given entry.1.storagePath).isSome) ∧
    ∀ artifact, entry.2 = some artifact →
      entry.1.sha256 = some artifact.sha256 ∧ artifact.path = artifactPath entry.1

/-- Every file is the one that its name leads to. -/
def Distinct (files : Exported) : Prop := ∀ file ∈ files, files.lookup file.1 = some file.2

variable {env}

theorem Distinct.append {files : Exported} {file : String × Bytes} (h : Distinct files)
    (hfresh : files.lookup file.1 = none) : Distinct (files ++ [file]) := by
  intro found hfound
  rw [List.lookup_append]
  rcases List.mem_append.1 hfound with hold | hnew
  · rw [h found hold, Option.some_or]
  · rw [List.mem_singleton.1 hnew, hfresh, Option.none_or]
    exact List.lookup_cons_self

theorem exportArtifact_ok {moment : ℕ} {files files' : Exported} {item : Item} {source : String} {artifact : Artifact}
    (h : exportArtifact env moment files item source = .ok (files', artifact)) :
    ∃ file, files' = files ++ [file] ∧ Describes env file artifact ∧ item.sha256 = some artifact.sha256 ∧
      artifact.path = artifactPath item ∧ files.lookup file.1 = none := by
  obtain ⟨digest, hdigest, h⟩ := bind_ok.1 h
  obtain ⟨info, -, h⟩ := bind_ok.1 h
  obtain ⟨hashed, -, h⟩ := bind_ok.1 h
  obtain ⟨_, hsame, h⟩ := bind_ok.1 h
  obtain ⟨_, -, h⟩ := bind_ok.1 h
  obtain ⟨copied, -, h⟩ := bind_ok.1 h
  obtain ⟨_, hfresh, h⟩ := bind_ok.1 h
  obtain ⟨_, hcopy, h⟩ := bind_ok.1 h
  obtain ⟨rfl, rfl⟩ := Prod.mk.inj (pure_ok.1 h)
  have hcopied : env.sha256 copied = env.sha256 hashed := of_decide_eq_true (require_ok.1 hcopy)
  have hhashed : env.sha256 hashed = digest := of_decide_eq_true (Bool.and_eq_true_iff.1 (require_ok.1 hsame)).2
  refine ⟨_, rfl, ⟨rfl, hcopied⟩, ?_, rfl, Option.isNone_iff_eq_none.1 (require_ok.1 hfresh)⟩
  rw [hhashed]
  exact (Option.filter_eq_some_iff.1 (orThrow_ok.1 hdigest)).1

theorem exportItem_ok {moment : ℕ} {files files' : Exported} {item : Item} {artifact : Option Artifact}
    (h : exportItem env moment files item = .ok (files', artifact)) :
    ∃ copies, files' = files ++ copies ∧ List.Forall₂ (Describes env) copies artifact.toList ∧
      Recorded (item, artifact) ∧ (Distinct files → Distinct files') := by
  rw [exportItem] at h
  cases hsource : given item.storagePath with
  | none =>
    rw [hsource] at h
    obtain ⟨rfl, rfl⟩ := Prod.mk.inj (Except.ok.inj h)
    exact ⟨[], (List.append_nil _).symm, .nil, by simp [Recorded, hsource], id⟩
  | some source =>
    simp only [hsource] at h
    cases hexported : exportArtifact env moment files item source with
    | error error =>
      rw [hexported] at h
      cases h
    | ok exported =>
      rw [hexported] at h
      obtain ⟨rfl, rfl⟩ := Prod.mk.inj (Except.ok.inj h)
      obtain ⟨file, hfile, hdescribes, hsha, hpath, hfresh⟩ := exportArtifact_ok hexported
      refine ⟨[file], hfile, .cons hdescribes .nil, ⟨by simp [hsource], ?_⟩, ?_⟩
      · rintro artifact ⟨⟩
        exact ⟨hsha, hpath⟩
      · intro hdistinct
        rw [hfile]
        exact hdistinct.append hfresh

theorem exportItems_ok {items : List Item} : ∀ {moment : ℕ} {files files' : Exported} {records : Records},
    exportItems env moment files items = .ok (files', records) →
      ∃ copies, files' = files ++ copies ∧ List.Forall₂ (Describes env) copies (artifactsOf records) ∧
        records.map Prod.fst = items ∧ (∀ entry ∈ records, Recorded entry) ∧ (Distinct files → Distinct files') := by
  induction items with
  | nil =>
    intro moment files files' records h
    obtain ⟨rfl, rfl⟩ := Prod.mk.inj (Except.ok.inj h)
    exact ⟨[], (List.append_nil _).symm, .nil, rfl, by simp, id⟩
  | cons item items ih =>
    intro moment files files' records h
    obtain ⟨⟨middle, artifact⟩, hitem, h⟩ := bind_ok.1 h
    obtain ⟨⟨last, later⟩, hitems, h⟩ := bind_ok.1 h
    obtain ⟨rfl, rfl⟩ := Prod.mk.inj (pure_ok.1 h)
    obtain ⟨copies, rfl, hcopies, hrecorded, hdistinct⟩ := exportItem_ok hitem
    obtain ⟨others, rfl, hothers, hmap, hall, hothersDistinct⟩ := ih hitems
    refine ⟨copies ++ others, List.append_assoc _ _ _, ?_, by rw [List.map_cons, hmap], ?_,
      fun h => hothersDistinct (hdistinct h)⟩
    · have hartifacts : artifactsOf ((item, artifact) :: later) = artifact.toList ++ artifactsOf later := by
        cases artifact <;> rfl
      rw [hartifacts]
      exact List.rel_append hcopies hothers
    · exact List.forall_mem_cons.2 ⟨hrecorded, hall⟩

/-! ### Reading the list of digests back -/

theorem isSpace_of_digit {ch : Char} (h : isHex ch = true) : Js.isSpace ch = false := by
  simp only [isHex, Bool.or_eq_true, Bool.and_eq_true, decide_eq_true_eq] at h
  simp only [Js.isSpace, List.mem_cons, List.not_mem_nil, or_false, Bool.or_eq_false_iff, decide_eq_false_iff_not,
    Bool.and_eq_false_iff]
  omega

theorem ends_line_space {ch : Char} (h : Js.isSpace ch = false) :
    (decide (ch.toNat ∈ [0x0A, 0x0D, 0x2028, 0x2029])) = false := by
  simp only [Js.isSpace, List.mem_cons, List.not_mem_nil, or_false, Bool.or_eq_false_iff,
    decide_eq_false_iff_not] at h ⊢
  omega

theorem ne_newline {ch : Char} (h : Js.isSpace ch = false) : ch ≠ '\n' := by
  rintro rfl
  exact absurd h (by decide)

theorem parseSum_sumLine {digest path : String} (hdigest : isDigest digest.toList = true) (hpath : plain path) :
    parseSum (sumLine digest path) = some (digest, path) := by
  have hlength : digest.toList.length = 64 := of_decide_eq_true (Bool.and_eq_true_iff.1 hdigest).1
  have htake : (sumLine digest path).take 64 = digest.toList := by
    rw [sumLine, ← hlength, List.take_left]
  have hdrop : (sumLine digest path).drop 64 = ' ' :: ' ' :: path.toList := by
    rw [sumLine, ← hlength, List.drop_left]
  have hspace : Js.isSpace ' ' = true := by decide
  have hempty : (!path.toList.isEmpty) = true := by
    rw [Bool.not_eq_true', List.isEmpty_eq_false_iff]
    exact hpath.1
  have hall : (path.toList.all fun ch => !(decide (ch.toNat ∈ [0x0A, 0x0D, 0x2028, 0x2029]))) = true := by
    rw [List.all_eq_true]
    intro ch hch
    rw [ends_line_space (hpath.2 ch hch), Bool.not_false]
  unfold parseSum
  rw [hdrop, htake]
  simp only [hdigest, hspace, hempty, hall, Bool.and_self, if_true, String.ofList_toList]

/-- The line of a file. -/
def lineOf (env : Env) (file : String × Bytes) : List Char := sumLine (env.sha256 file.2) file.1

/-- The file of the name is there with the digest that was exported. -/
def Same (env : Env) (found : Exported) (file : String × Bytes) : Prop :=
  ∃ bytes, found.lookup file.1 = some bytes ∧ env.sha256 bytes = env.sha256 file.2

theorem verifyLines_iff (hsha : ∀ bytes, isDigest (env.sha256 bytes).toList = true) {found : Exported} :
    ∀ {files : Exported}, (∀ file ∈ files, plain file.1) →
      (verifyLines env found (files.map (lineOf env)) = some true ↔ ∀ file ∈ files, Same env found file)
  | [], _ => by simp [verifyLines]
  | file :: files, hplain => by
    obtain ⟨hfile, hfiles⟩ := List.forall_mem_cons.1 hplain
    rw [List.map_cons, verifyLines, lineOf, parseSum_sumLine (hsha file.2) hfile, List.forall_mem_cons]
    cases hfound : found.lookup file.1 with
    | none => simp [Same, hfound]
    | some bytes =>
      by_cases hsame : env.sha256 bytes = env.sha256 file.2
      · have hthere : Same env found file := ⟨bytes, hfound, hsame⟩
        rw [and_iff_right hthere, ← verifyLines_iff hsha hfiles]
        simp only [hfound, hsame, if_true]
      · simp [Same, hfound, hsame]

theorem trim_line_end {text : List Char} {first last : Char} (hfirst : text.head? = some first)
    (hlast : text.getLast? = some last) (hfirstSpace : Js.isSpace first = false)
    (hlastSpace : Js.isSpace last = false) :
    (Js.trim (String.ofList (text ++ ['\n']))).toList = text := by
  obtain ⟨rest, rfl⟩ : ∃ rest, text = first :: rest := List.head?_eq_some_iff.1 hfirst
  obtain ⟨start, hstart⟩ : ∃ start, first :: rest = start ++ [last] := List.getLast?_eq_some_iff.1 hlast
  have hspace : Js.isSpace '\n' = true := by decide
  rw [Js.trim, String.toList_ofList, String.toList_ofList, List.cons_append,
    List.dropWhile_cons_of_neg (by simp [hfirstSpace]), ← List.cons_append, hstart, List.reverse_append,
    List.reverse_append, List.reverse_singleton,
    List.singleton_append, List.reverse_singleton, List.singleton_append, List.dropWhile_cons_of_pos hspace,
    List.dropWhile_cons_of_neg (by simp [hlastSpace])]
  simp

/-! ### An export and its check -/

theorem isSpace_of_safe {ch : Char} (h : isSafeChar ch = true) : Js.isSpace ch = false := by
  have hcases : (48 ≤ ch.toNat ∧ ch.toNat ≤ 57) ∨ (65 ≤ ch.toNat ∧ ch.toNat ≤ 90) ∨ (97 ≤ ch.toNat ∧ ch.toNat ≤ 122) ∨
      ch.toNat = 46 ∨ ch.toNat = 95 ∨ ch.toNat = 45 := by
    delta isSafeChar Char.isAlphanum Char.isAlpha Char.isUpper Char.isLower Char.isDigit at h
    simp only [Bool.or_eq_true, Bool.and_eq_true, decide_eq_true_eq, ge_iff_le, UInt32.le_iff_toNat_le,
      ← Char.toNat_inj] at h
    have hcodes : ((((65 ≤ ch.toNat ∧ ch.toNat ≤ 90 ∨ 97 ≤ ch.toNat ∧ ch.toNat ≤ 122) ∨
        48 ≤ ch.toNat ∧ ch.toNat ≤ 57) ∨ ch.toNat = 46) ∨ ch.toNat = 95) ∨ ch.toNat = 45 := h
    omega
  simp only [Js.isSpace, List.mem_cons, List.not_mem_nil, or_false, Bool.or_eq_false_iff, decide_eq_false_iff_not,
    Bool.and_eq_false_iff]
  omega

theorem safe_safeName {source : String} : ∀ ch ∈ (safeName source).toList, isSafeChar ch = true := by
  intro ch hch
  have hdefault : ("artifact.bin".toList.all isSafeChar) = true := by decide
  rw [safeName] at hch
  split at hch
  · exact List.all_eq_true.1 hdefault ch hch
  · rw [String.toList_ofList] at hch
    obtain ⟨origin, -, hfrom⟩ := List.mem_flatMap.1 (List.mem_of_mem_take hch)
    split at hfrom
    case isTrue hsafe =>
      rw [List.mem_singleton.1 hfrom]
      exact hsafe
    case isFalse =>
      rw [List.eq_of_mem_replicate hfrom]
      decide

theorem plain_artifactPath {item : Item} (hid : ∀ ch ∈ item.evidenceId.toList, isSafeChar ch = true) :
    plain (artifactPath item) := by
  have hstart : ("artifacts/".toList.all fun ch => !Js.isSpace ch) = true := by decide
  have hgap : Js.isSpace '_' = false := by decide
  have htext : (artifactPath item).toList =
      "artifacts/".toList ++ (item.evidenceId.toList ++ '_' :: (safeName item.source).toList) := by
    simp [artifactPath]
  refine ⟨by rw [htext]; simp, ?_⟩
  intro ch hch
  rw [htext, List.mem_append, List.mem_append, List.mem_cons] at hch
  rcases hch with hch | hch | rfl | hch
  · simpa using List.all_eq_true.1 hstart ch hch
  · exact isSpace_of_safe (hid ch hch)
  · exact hgap
  · exact isSpace_of_safe (safe_safeName ch hch)

theorem plain_manifestName : plain manifestName := by
  have hall : (manifestName.toList.all fun ch => !Js.isSpace ch) = true := by decide
  refine ⟨by decide, ?_⟩
  intro ch hch
  simpa using List.all_eq_true.1 hall ch hch

theorem isHex_head {files : Exported} (hsha : ∀ bytes, isDigest (env.sha256 bytes).toList = true) (hne : files ≠ []) :
    ∃ ch, (['\n'].intercalate (files.map (lineOf env))).head? = some ch ∧ isHex ch = true := by
  obtain ⟨first, rest, rfl⟩ := List.exists_cons_of_ne_nil hne
  have hdigest := Bool.and_eq_true_iff.1 (hsha first.2)
  cases hchars : (env.sha256 first.2).toList with
  | nil => simp [hchars] at hdigest
  | cons ch chars =>
    rw [hchars] at hdigest
    refine ⟨ch, ?_, (List.forall_mem_cons.1 (List.all_eq_true.1 hdigest.2)).1⟩
    rw [List.map_cons, lineOf, sumLine, hchars, List.cons_append, List.intercalate_cons_cons_left, List.head?_cons]

theorem plain_last : ∀ {files : Exported}, files ≠ [] → (∀ file ∈ files, plain file.1) →
    ∃ ch, (['\n'].intercalate (files.map (lineOf env))).getLast? = some ch ∧ Js.isSpace ch = false
  | [file], _, hplain => by
    obtain ⟨hpath, hspace⟩ := hplain file List.mem_cons_self
    have hlast : (lineOf env file).getLast? = some (file.1.toList.getLast hpath) := by
      have hline : lineOf env file = ((env.sha256 file.2).toList ++ [' ', ' ']) ++ file.1.toList := by
        simp [lineOf, sumLine]
      rw [hline, List.getLast?_append_of_ne_nil _ hpath, List.getLast?_eq_some_getLast hpath]
    rw [List.map_cons, List.map_nil, List.intercalate_singleton]
    exact ⟨_, hlast, hspace _ (List.getLast_mem hpath)⟩
  | file :: next :: files, _, hplain => by
    obtain ⟨ch, hlast, hspace⟩ := plain_last (List.cons_ne_nil next files) (List.forall_mem_cons.1 hplain).2
    refine ⟨ch, ?_, hspace⟩
    rw [List.map_cons, List.map_cons, List.intercalate_cons_cons, List.getLast?_append, ← List.map_cons, hlast,
      Option.some_or]

/-- The written list is read back line by line. -/
theorem readBack {files : Exported} (hsha : ∀ bytes, isDigest (env.sha256 bytes).toList = true)
    (hplain : ∀ file ∈ files, plain file.1) (hne : files ≠ []) :
    (Js.trim (String.ofList (['\n'].intercalate (files.map (lineOf env)) ++ ['\n']))).toList.splitOn '\n' =
      files.map (lineOf env) := by
  have hlines : ∀ line ∈ files.map (lineOf env), '\n' ∉ line := by
    intro line hline hnewline
    obtain ⟨file, hfile, rfl⟩ := List.mem_map.1 hline
    rcases List.mem_append.1 hnewline with hdigit | hrest
    · have hhex := List.all_eq_true.1 (Bool.and_eq_true_iff.1 (hsha file.2)).2 _ hdigit
      exact absurd hhex (by decide)
    · have hpath : '\n' ∈ file.1.toList := by simpa using hrest
      exact ne_newline ((hplain file hfile).2 _ hpath) rfl
  obtain ⟨head, hhead, hhex⟩ := isHex_head hsha hne
  obtain ⟨tail, htail, hspace⟩ := plain_last hne hplain
  rw [trim_line_end hhead htail (isSpace_of_digit hhex) hspace]
  exact List.splitOn_intercalate '\n' hlines (by simpa using hne)

theorem sums_eq {manifest : Bytes} {copies : Exported} {records : Records}
    (h : List.Forall₂ (Describes env) copies (artifactsOf records)) :
    sumLines (env.sha256 manifest) records = ((manifestName, manifest) :: copies).map (lineOf env) := by
  have hcopies : ∀ {artifacts : List Artifact} {files : Exported}, List.Forall₂ (Describes env) files artifacts →
      artifacts.map (fun artifact => sumLine artifact.sha256 artifact.path) = files.map (lineOf env) := by
    intro artifacts files hfiles
    induction hfiles with
    | nil => rfl
    | cons hfile _ ih => rw [List.map_cons, List.map_cons, ih, lineOf, hfile.1, hfile.2]
  rw [sumLines, hcopies h, List.map_cons]
  rfl

theorem name_of_copy {copies : Exported} {records : Records} {file : String × Bytes}
    (h : List.Forall₂ (Describes env) copies (artifactsOf records)) (hrecorded : ∀ entry ∈ records, Recorded entry)
    (hfile : file ∈ copies) : ∃ entry ∈ records, file.1 = artifactPath entry.1 := by
  have hartifact : ∀ {artifacts : List Artifact} {files : Exported}, List.Forall₂ (Describes env) files artifacts →
      file ∈ files → ∃ artifact ∈ artifacts, file.1 = artifact.path := by
    intro artifacts files hfiles hmem
    induction hfiles with
    | nil => cases hmem
    | cons hfirst _ ih =>
      rcases List.mem_cons.1 hmem with rfl | hmem
      · exact ⟨_, List.mem_cons_self, hfirst.1⟩
      · obtain ⟨artifact, hartifact, hpath⟩ := ih hmem
        exact ⟨artifact, List.mem_cons_of_mem _ hartifact, hpath⟩
  obtain ⟨artifact, hmem, hpath⟩ := hartifact h hfile
  obtain ⟨entry, hentry, hsome⟩ := List.mem_filterMap.1 hmem
  exact ⟨entry, hentry, hpath.trans ((hrecorded entry hentry).2 artifact hsome).2⟩

theorem artifactPath_ne_manifestName (item : Item) : artifactPath item ≠ manifestName := by
  intro h
  have hchars := congrArg (fun text => text.toList.head?) h
  simp [artifactPath, manifestName] at hchars

/-- What a finished export is: the manifest and the copies, read at the end exactly as they were described. -/
structure Complete (env : Env) (request : Request) (epochId : Option String) (records : Records)
    (directory : Directory) : Prop where
  all : (records.map Prod.fst).Perm request.evidence
  recorded : ∀ entry ∈ records, Recorded entry
  clean : clean (manifestOf request epochId records) = true
  files : ∃ copies, directory.files = (manifestName, env.stringify (manifestOf request epochId records)) :: copies ∧
    List.Forall₂ (Describes env) copies (artifactsOf records)
  accepted : verifyChecksums env directory = some true
  checked : ∀ found, verifyChecksums env { directory with files := found } = some true ↔
    ∀ file ∈ directory.files, Same env found file

theorem exportBody_complete (hsha : ∀ bytes, isDigest (env.sha256 bytes).toList = true) {request : Request}
    (hids : ∀ item ∈ request.evidence, ∀ ch ∈ item.evidenceId.toList, isSafeChar ch = true)
    {epochId : Option String} {directory : Directory} {result : ExportResult}
    (h : exportBody env request epochId = .ok (directory, result)) :
    ∃ records, Complete env request epochId records directory := by
  obtain ⟨⟨copies, records⟩, hitems, h⟩ := bind_ok.1 h
  obtain ⟨_, -, h⟩ := bind_ok.1 h
  obtain ⟨_, -, h⟩ := bind_ok.1 h
  obtain ⟨rfl, rfl⟩ := Prod.mk.inj (pure_ok.1 h)
  obtain ⟨_, rfl, hcopies, hmap, hrecorded, hdistinct⟩ := exportItems_ok hitems
  set manifest := env.stringify (manifestOf request epochId records) with hmanifest
  have hall : (records.map Prod.fst).Perm request.evidence := hmap ▸ Paging.perm_sortBy
  have hname : ∀ file ∈ copies, plain file.1 ∧ file.1 ≠ manifestName := by
    intro file hfile
    obtain ⟨entry, hentry, hpath⟩ := name_of_copy hcopies hrecorded hfile
    rw [hpath]
    exact ⟨plain_artifactPath (hids entry.1 (hall.subset (List.mem_map_of_mem hentry))),
      artifactPath_ne_manifestName entry.1⟩
  have hplain : ∀ file ∈ (manifestName, manifest) :: copies, plain file.1 :=
    List.forall_mem_cons.2 ⟨plain_manifestName, fun file hfile => (hname file hfile).1⟩
  have hchecked : ∀ found, verifyLines env found ((Js.trim (String.ofList (['\n'].intercalate
      (sumLines (env.sha256 manifest) records) ++ ['\n']))).toList.splitOn '\n') = some true ↔
      ∀ file ∈ (manifestName, manifest) :: copies, Same env found file := by
    intro found
    rw [sums_eq hcopies, readBack hsha hplain (List.cons_ne_nil _ _)]
    exact verifyLines_iff hsha hplain
  refine ⟨records, hall, hrecorded, clean_manifest request epochId records, ⟨copies, rfl, hcopies⟩, ?_, hchecked⟩
  refine (hchecked _).2 ?_
  rw [List.forall_mem_cons]
  refine ⟨⟨manifest, by simp, rfl⟩, ?_⟩
  intro file hfile
  have hfound : copies.lookup file.1 = some file.2 := hdistinct (by simp [Distinct]) file hfile
  refine ⟨file.2, ?_, rfl⟩
  change ((manifestName, manifest) :: copies).lookup file.1 = some file.2
  rw [List.lookup_cons, beq_false_of_ne (hname file hfile).2]
  exact hfound

/-- An export that fails leaves the destination as it was. One that ends has every evidence of the task in a manifest
    without secrets and a copy of every stored artifact under its recorded digest, and its check accepts a directory
    exactly while all of these are in it unchanged. -/
theorem export_faithful (hsha : ∀ bytes, isDigest (env.sha256 bytes).toList = true) (request : Request)
    (hids : ∀ item ∈ request.evidence, ∀ ch ∈ item.evidenceId.toList, isSafeChar ch = true)
    (before : Option Directory) :
    (∀ error, (exportTask env request before).2 = .error error → (exportTask env request before).1 = before) ∧
      ∀ result, (exportTask env request before).2 = .ok result → before = none ∧
        ∃ directory epochId records, (exportTask env request before).1 = some directory ∧
          request.task = some epochId ∧ Complete env request epochId records directory := by
  cases htask : request.task with
  | none =>
    have hstep : exportTask env request before = (before, .error .noTask) := by rw [exportTask, htask]
    rw [hstep]
    exact ⟨fun _ _ => rfl, nofun⟩
  | some epochId =>
    by_cases hmanaged : request.managed = true
    · have hstep : exportTask env request before = (before, .error .managedDirectory) := by
        rw [exportTask, htask]
        exact if_pos hmanaged
      rw [hstep]
      exact ⟨fun _ _ => rfl, nofun⟩
    · cases before with
      | some directory =>
        have hstep : exportTask env request (some directory) = (some directory, .error .directoryExists) := by
          rw [exportTask, htask]
          exact if_neg hmanaged
        rw [hstep]
        exact ⟨fun _ _ => rfl, nofun⟩
      | none =>
        have hstep : exportTask env request none = if !env.creates then (none, .error .notWritten) else
            match exportBody env request epochId with
            | .error error => (none, .error error)
            | .ok (directory, result) => (some directory, .ok result) := by
          rw [exportTask, htask]
          exact if_neg hmanaged
        rw [hstep]
        by_cases hcreates : (!env.creates) = true
        · rw [if_pos hcreates]
          exact ⟨fun _ _ => rfl, nofun⟩
        · rw [if_neg hcreates]
          cases hbody : exportBody env request epochId with
          | error error => exact ⟨fun _ _ => rfl, nofun⟩
          | ok done =>
            obtain ⟨directory, result⟩ := done
            obtain ⟨records, hcomplete⟩ := exportBody_complete hsha hids hbody
            exact ⟨nofun, fun _ _ => ⟨rfl, directory, epochId, records, rfl, rfl, hcomplete⟩⟩

def fileSha256 : String := "8f434346648f6b96df89dda901c5176b10a6d83961dd3c1ac88b59b2dc327aa4"

def manifestSha256 : String := "89a29cb0b0567d4b9b35eb740699a8f451cd4a352876a2b90b42ad0662a9420e"

def exportedItem : Item :=
  { evidenceId := "EV-1", taskId := "TASK-1", host := "web", type := "FILE", source := "/tmp/x"
    collectedAt := "2026-01-01T00:00:00.000Z", tool := "collect_file", toolCallId := none, sha256 := some fileSha256
    metadata := some [("size", .num 2), ("apiToken", .str "t0")], storagePath := some "TASK-1/EV-1_x" }

/-- One evidence, whose file says `hi`; a secret stands in its metadata. -/
def exportRequest : Request :=
  { taskId := "TASK-1", task := some none, managed := false, exportedAt := "2026-01-01T00:00:00.000Z"
    evidence := [exportedItem] }

def manifestLines : List String :=
  ["\x7b", "  \"schemaVersion\": 1,", "  \"taskId\": \"TASK-1\",",
    "  \"exportedAt\": \"2026-01-01T00:00:00.000Z\",", "  \"evidenceCount\": 1,", "  \"artifactCount\": 1,",
    "  \"evidence\": [", "    \x7b", "      \"evidenceId\": \"EV-1\",", "      \"taskId\": \"TASK-1\",",
    "      \"host\": \"web\",", "      \"type\": \"FILE\",", "      \"source\": \"/tmp/x\",",
    "      \"collectedAt\": \"2026-01-01T00:00:00.000Z\",", "      \"tool\": \"collect_file\",",
    "      \"sha256\": \"8f434346648f6b96df89dda901c5176b10a6d83961dd3c1ac88b59b2dc327aa4\",",
    "      \"metadata\": \x7b", "        \"size\": 2", "      \x7d,", "      \"artifact\": \x7b",
    "        \"path\": \"artifacts/EV-1_x\",", "        \"bytes\": 2,",
    "        \"sha256\": \"8f434346648f6b96df89dda901c5176b10a6d83961dd3c1ac88b59b2dc327aa4\"", "      \x7d",
    "    \x7d", "  ]", "\x7d"]

def exportEnv : Env :=
  { look := fun _ _ => some (.file [0x68, 0x69])
    creates := true
    writes := fun _ => true
    sha256 := fun bytes => if bytes = [0x68, 0x69] then fileSha256 else manifestSha256
    stringify := fun _ => (String.join (manifestLines.map (· ++ "\n"))).toUTF8.toList
    collate := compare }

theorem export_faithful_one :
    (exportTask exportEnv exportRequest none).2.isOk = true ∧
      ∀ result, (exportTask exportEnv exportRequest none).2 = .ok result → ∃ directory epochId records,
        (exportTask exportEnv exportRequest none).1 = some directory ∧
          Complete exportEnv exportRequest epochId records directory := by
  have hsha : ∀ bytes, isDigest (exportEnv.sha256 bytes).toList = true := by
    intro bytes
    rw [exportEnv]
    dsimp only
    split <;> decide
  have hids : ∀ item ∈ exportRequest.evidence, ∀ ch ∈ item.evidenceId.toList, isSafeChar ch = true := by
    have hsafe : (exportedItem.evidenceId.toList.all isSafeChar) = true := by decide
    intro item hitem
    rw [exportRequest, List.mem_singleton] at hitem
    rw [hitem]
    exact List.all_eq_true.1 hsafe
  refine ⟨by decide +kernel, ?_⟩
  intro result hresult
  obtain ⟨-, directory, epochId, records, hdone, -, hcomplete⟩ :=
    (export_faithful hsha exportRequest hids none).2 result hresult
  exact ⟨directory, epochId, records, hdone, hcomplete⟩

end HuntWarden.EvidenceExport
