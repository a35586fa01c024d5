import HuntWarden.Lib.Js
import HuntWarden.Lib.PropertyOrder

/-! What the client of a threat intelligence provider makes of an answer: the rows it finds in it, the row
    that names an indicator, and the verdict read out of that row. The answer may be any JSON at all; every
    text and every list of a verdict is cut to a length, and its confidence lies between zero and one. -/

namespace HuntWarden.ThreatIntel

/-- What the language does with texts and URLs. -/
structure TextRules where
  toLowerCase : String → String
  /-- `Number(text)`, where it is finite. -/
  number : String → Option ℚ
  /-- `String(value)`. -/
  text : Json → String
  encodeURIComponent : String → String
  /-- `new URL(path, base)`: its protocol and its host name, where it is valid. -/
  url : String → String → Option (String × String)

inductive IocType where
  | ip
  | domain
  | file
  deriving DecidableEq

inductive RiskLevel where
  | critical
  | high
  | medium
  | low
  | info
  | unknown
  deriving DecidableEq

/-- A text by its code units, as `slice` cuts it. -/
abbrev Units := List ℕ

structure Verdict where
  ioc : String
  iocType : IocType
  malicious : Option Bool
  riskLevel : RiskLevel
  confidence : Option ℚ
  threatTypes : List Units
  apt : Option Bool
  hackerGroups : List Units
  attackEvents : List Units
  malwareFamilies : List Units
  description : Option Units
  cached : Bool
  reportUrl : Option String
  deriving DecidableEq

variable (t : TextRules)

def slice (text : String) (length : ℕ) : Units := (Js.codeUnits text).take length

/-- `strings(value)`: the texts of a list, or one text that is not blank. -/
def strings : Option Json → List Units
  | some (.arr items) => (items.filterMap fun item => item.asString?.map (slice · 512)).take 100
  | some (.str text) => if Js.trim text = "" then [] else [slice (Js.trim text) 512]
  | _ => []

/-- `value !== undefined && value !== null && value !== ""`. -/
def isGiven (value : Option Json) : Bool :=
  match value with
  | none => false
  | some .null => false
  | some (.str text) => text ≠ ""
  | some _ => true

/-- `first(...values)`. -/
def first (values : List (Option Json)) : Option Json := (values.find? isGiven).join

def scaled (value : ℚ) : ℚ := max 0 (min 1 (if value > 1 then value / 100 else value))

def confidence : Option Json → Option ℚ
  | some (.num value) => some (scaled value)
  | some (.str text) => if Js.trim text = "" then none else (t.number text).map scaled
  | _ => none

/-- `replace(/\s+/g, "_")`. -/
def underscored : List Char → List Char
  | [] => []
  | ch :: rest =>
    if Js.isSpace ch then
      if (rest.head?.map Js.isSpace).getD false then underscored rest else '_' :: underscored rest
    else ch :: underscored rest

def levelNames : List (RiskLevel × List String) :=
  [(.critical, ["critical", "severe", "极高", "严重"]), (.high, ["high", "malicious", "高", "高危"]),
    (.medium, ["medium", "moderate", "中", "中危"]), (.low, ["low", "低", "低危"]),
    (.info, ["info", "informational", "safe", "normal", "信息", "正常"])]

def riskLevel (value : Option Json) : RiskLevel :=
  let normalized := match value with
    | some (.str text) => String.ofList (underscored (t.toLowerCase text).toList)
    | _ => ""
  ((levelNames.find? fun level => level.2.contains normalized).map Prod.fst).getD .unknown

def booleanOrNull : Option Json → Option Bool
  | some (.bool b) => some b
  | some (.num value) => if value = 1 then some true else if value = 0 then some false else none
  | some (.str text) =>
    if text = "1" ∨ text = "true" then some true else if text = "0" ∨ text = "false" then some false else none
  | _ => none

/-! ### Rows -/

abbrev Row := List (String × Json)

def record : Option Json → Option Row
  | some (.obj fields) => some fields
  | _ => none

def rowsOfList (items : List Json) : List Row := items.filterMap fun item => record (some item)

/-- `{ ioc, ...item }`. -/
def withIoc (ioc : String) (item : Row) : Row :=
  if (item.lookup "ioc").isSome then item else ("ioc", .str ioc) :: item

def listUnder (root : Row) : Option (List Json) :=
  ["results", "items", "list", "records"].findSome? fun key => (root.lookup key).bind Json.asArray?

/-- A list of rows, a record with such a list, or a record with one row for each indicator. -/
def rowsFrom : Option Json → List Row
  | some (.arr items) => rowsOfList items
  | some (.obj root) =>
    match listUnder root with
    | some items => rowsOfList items
    | none => (PropertyOrder.ownProperties root).filterMap fun field =>
        (record (some field.2)).map (withIoc field.1)
  | _ => []

/-- The fields that may name the indicator of a row, in order. -/
def iocFields : List String :=
  ["ioc", "indicator", "ip", "domain", "file_hash", "fileHash", "sha256", "md5", "sha1"]

def rowIoc (row : Row) : Option String :=
  match first (iocFields.map fun name => row.lookup name) with
  | some (.str text) => some (t.toLowerCase text)
  | _ => none

/-- `byIoc.get(ioc)`: of the rows that name the indicator the last one. -/
def rowFor (rows : List Row) (ioc : String) : Option Row :=
  rows.reverse.find? fun row => rowIoc t row = some ioc

/-! ### The verdict -/

def reportUrl (ioc : String) : IocType → Option String
  | .ip => some ("https://ti.dbappsecurity.com.cn/ip/" ++ t.encodeURIComponent ioc)
  | .domain => some ("https://ti.dbappsecurity.com.cn/domain/" ++ t.encodeURIComponent ioc)
  | .file => some ("https://ti.dbappsecurity.com.cn/file/" ++ t.encodeURIComponent ioc)

/-- What the level says where no field says whether the indicator is malicious. -/
def inferred : RiskLevel → Option Bool
  | .critical => some true
  | .high => some true
  | .info => some false
  | _ => none

def normalizeVerdict (ioc : String) (iocType : IocType) (row : Option Row) : Verdict :=
  let field (name : String) : Option Json := row.bind fun r => r.lookup name
  let threat : Row := (record (first [field "threat_intel", field "threatIntel"])).getD (row.getD [])
  let level := riskLevel t (first [field "risk_level", field "riskLevel", field "level",
    threat.lookup "risk_level", threat.lookup "riskLevel", threat.lookup "level"])
  { ioc
    iocType
    malicious := (booleanOrNull (first [field "is_malicious", field "isMalicious",
      threat.lookup "is_malicious", threat.lookup "isMalicious"])).or (inferred level)
    riskLevel := level
    confidence := confidence t (first [field "confidence", threat.lookup "confidence"])
    threatTypes := strings (first [field "threat_type", field "threatTypes", threat.lookup "threat_type",
      threat.lookup "threat_category", threat.lookup "category"])
    apt := booleanOrNull (first [field "is_apt", field "isApt", threat.lookup "is_apt", threat.lookup "isApt"])
    hackerGroups := strings (first [field "hacker_groups", field "hackerGroups",
      threat.lookup "hacker_groups", threat.lookup "related_hacker_groups"])
    attackEvents := strings (first [field "attack_events", field "attackEvents",
      threat.lookup "attack_events", threat.lookup "related_attack_events"])
    malwareFamilies := strings (first [field "malware_families", field "malwareFamilies",
      threat.lookup "malware_families", threat.lookup "related_families"])
    description := ((first [field "description", threat.lookup "description"]).bind Json.asString?).map (slice · 2048)
    cached := false
    reportUrl := reportUrl t ioc iocType }

/-! ### Bounds -/

structure BoundedList (texts : List Units) : Prop where
  count : texts.length ≤ 100
  each : ∀ text ∈ texts, text.length ≤ 512

/-- Whatever the provider answers, a verdict is of a limited size and its confidence is a share. -/
structure Bounded (v : Verdict) : Prop where
  confidence : ∀ share, v.confidence = some share → 0 ≤ share ∧ share ≤ 1
  threatTypes : BoundedList v.threatTypes
  hackerGroups : BoundedList v.hackerGroups
  attackEvents : BoundedList v.attackEvents
  malwareFamilies : BoundedList v.malwareFamilies
  description : ∀ text, v.description = some text → text.length ≤ 2048

theorem length_slice (text : String) (length : ℕ) : (slice text length).length ≤ length := by
  rw [slice]
  exact List.length_take_le length _

theorem boundedList_strings (value : Option Json) : BoundedList (strings value) := by
  unfold strings
  split
  · refine ⟨List.length_take_le 100 _, fun text htext => ?_⟩
    obtain ⟨item, -, hitem⟩ := List.mem_filterMap.1 (List.mem_of_mem_take htext)
    obtain ⟨whole, -, rfl⟩ := Option.map_eq_some_iff.1 hitem
    exact length_slice whole 512
  · split
    · exact ⟨by simp, by simp⟩
    · refine ⟨by simp, fun text htext => ?_⟩
      rw [List.mem_singleton.1 htext]
      exact length_slice _ 512
  · exact ⟨by simp, by simp⟩

theorem scaled_share (value : ℚ) : 0 ≤ scaled value ∧ scaled value ≤ 1 :=
  ⟨le_max_left _ _, max_le zero_le_one (min_le_left _ _)⟩

variable {t}

theorem confidence_share {value : Option Json} {share : ℚ} (h : confidence t value = some share) :
    0 ≤ share ∧ share ≤ 1 := by
  unfold confidence at h
  split at h
  · rw [← Option.some.inj h]
    exact scaled_share _
  · split at h
    · cases h
    · obtain ⟨whole, -, rfl⟩ := Option.map_eq_some_iff.1 h
      exact scaled_share whole
  · cases h

theorem bounded_normalizeVerdict (ioc : String) (iocType : IocType) (row : Option Row) :
    Bounded (normalizeVerdict t ioc iocType row) where
  confidence _ h := confidence_share h
  threatTypes := boundedList_strings _
  hackerGroups := boundedList_strings _
  attackEvents := boundedList_strings _
  malwareFamilies := boundedList_strings _
  description text h := by
    obtain ⟨whole, -, rfl⟩ := Option.map_eq_some_iff.1 h
    exact length_slice whole 2048

end HuntWarden.ThreatIntel
