import HuntWarden.Datasets.KnownHash
import HuntWarden.Lib.OrderedMap
import HuntWarden.Lib.Runs

/-! The registry of known hash sets. A name and a version stand for one list of hashes for good: an import
    of the same content is answered with the set that is there, an import of other content is refused. So a
    file that is verified against a set is judged by what was imported under it, however long ago. -/

namespace HuntWarden.Datasets

open Outcome StableJson

/-- What the runtime does with texts. -/
structure Runtime where
  lower : LowerCase
  collation : Collation
  numbers : NumberText
  hash : Hash

variable (r : Runtime)

structure KnownHashDataSet where
  dataSetRef : String
  name : String
  version : String
  description : Option String
  digest : String
  sha256 : List String
  importedAt : String
  deriving DecidableEq

def KnownHashDataSet.content (d : KnownHashDataSet) : KnownHashSetImport :=
  ⟨d.name, d.version, d.description, d.sha256⟩

structure KnownHashDataSetSummary where
  dataSetRef : String
  name : String
  version : String
  description : Option String
  digest : String
  importedAt : String
  entryCount : ℕ
  deriving DecidableEq

def summarizeKnownHashDataSet (d : KnownHashDataSet) : KnownHashDataSetSummary :=
  ⟨d.dataSetRef, d.name, d.version, d.description, d.digest, d.importedAt, d.sha256.length⟩

/-- `digestObject({ kind: "known_hash_set", ...normalized })` -/
def contentDigest (input : KnownHashSetImport) : String :=
  digestObject r.collation r.numbers r.hash (.obj (("kind", .str "known_hash_set") :: input.fields))

def createKnownHashDataSet (input : KnownHashSetImport) (uuid importedAt : String) :
    Except Thrown KnownHashDataSet := do
  let normalized ← parseKnownHashSetImport r.lower (.obj input.fields)
  return {
    dataSetRef := "DATASET-" ++ uuid
    name := normalized.name
    version := normalized.version
    description := normalized.description
    digest := contentDigest r normalized
    sha256 := normalized.sha256
    importedAt }

/-- The rows of `known_hash_datasets_v2`, oldest first. -/
abbrev Registry := List KnownHashDataSet

def putKnownHashDataSet (rows : Registry) (value : KnownHashDataSet) :
    Except Thrown (Registry × KnownHashDataSet) :=
  match rows.find? fun d => d.name = value.name ∧ d.version = value.version with
  | some existing =>
    if existing.digest ≠ value.digest then
      .error (invalidArgument s!"数据集 {value.name}@{value.version} 已存在且内容不同；版本不可变")
    else .ok (rows, existing)
  | none =>
    match rows.find? fun d => d.digest = value.digest with
    | some existing => .ok (rows, existing)
    | none =>
      if rows.any fun d => d.dataSetRef = value.dataSetRef then
        .error (uniqueConstraint "known_hash_datasets_v2.data_set_ref")
      else .ok (rows ++ [value], value)

def getKnownHashDataSet (rows : Registry) (dataSetRef : String) : Option KnownHashDataSet :=
  rows.find? fun d => d.dataSetRef = dataSetRef

/-- `ORDER BY imported_at,name,version` -/
def listOrder (a b : KnownHashDataSet) : Ordering :=
  (compare a.importedAt b.importedAt).then ((compare a.name b.name).then (compare a.version b.version))

def listKnownHashDataSets (rows : Registry) : List KnownHashDataSetSummary :=
  (Paging.sortBy listOrder rows).map summarizeKnownHashDataSet

def importKnownHashDataSet (rows : Registry) (value : Json) (uuid importedAt : String) :
    Except Thrown (Registry × KnownHashDataSet) := do
  let input ← parseKnownHashSetImport r.lower value
  let prepared ← createKnownHashDataSet r input uuid importedAt
  putKnownHashDataSet rows prepared

/-- One import, with the id and the time it draws. -/
structure Import where
  value : Json
  uuid : String
  importedAt : String

def step (rows : Registry) (op : Import) : Registry :=
  match importKnownHashDataSet r rows op.value op.uuid op.importedAt with
  | .ok (rows', _) => rows'
  | .error _ => rows

/-! ### Verifying files against a set -/

inductive Baseline where
  | packageDb
  | knownHashSet
  deriving DecidableEq

/-- What `verify` checks before the helper is called. -/
def prepareVerify (rows : Registry) (baseline : Baseline) (dataSetRef : Option String) :
    Except Thrown Unit :=
  match baseline, Js.truthyText dataSetRef with
  | .packageDb, none => .ok ()
  | .packageDb, some _ => .error (invalidArgument "package_db verify 不接受 dataSetRef")
  | .knownHashSet, none =>
    .error (invalidArgument "known_hash_set verify 必须提供控制端 dataSetRef")
  | .knownHashSet, some ref =>
    require (getKnownHashDataSet rows ref).isSome
      (securityError .unsupportedEnvironment "known_hash_set 数据集不存在或尚未导入")

structure VerifiedObject where
  namespaceName : String
  fields : List (String × Json)
  deriving DecidableEq

/-- The digest the helper has to return for a file. -/
def observedSha256 (object : VerifiedObject) : Option String :=
  if object.namespaceName = "file" then
    ((object.fields.lookup "sha256").bind Json.asString?).filter (isSha256 ·)
  else none

def adjudicate (dataSet : KnownHashDataSet) (object : VerifiedObject) :
    Except Thrown VerifiedObject := do
  let sha256 ← orThrow (observedSha256 object)
    (securityError .recoveryUncertain "Helper 未返回可用于 known_hash_set 裁定的文件 SHA-256")
  let baseline := s!"known_hash_set:{dataSet.dataSetRef}@{dataSet.version}"
  let status := if dataSet.sha256.contains sha256 then "MATCH" else "MISMATCH"
  return { object with
    fields := OrderedMap.upsert "baselineStatus" (fun _ => .str status)
      (OrderedMap.upsert "baseline" (fun _ => .str baseline) object.fields) }

/-- What `verify` makes of the helper's answer. -/
def finishVerify (rows : Registry) (baseline : Baseline) (dataSetRef : Option String)
    (objects : List VerifiedObject) : Except Thrown (List VerifiedObject) :=
  match baseline, Js.truthyText dataSetRef with
  | .knownHashSet, some ref => do
    let dataSet ← orThrow (getKnownHashDataSet rows ref)
      (securityError .unsupportedEnvironment "known_hash_set 数据集在验证期间不可用")
    objects.mapM (adjudicate dataSet)
  | _, _ => .ok objects

/-! ### A digest stands for one content -/

variable {r}

theorem mem_fields {input : KnownHashSetImport} {name : String} {value : Json} :
    (name, value) ∈ (("kind", Json.str "known_hash_set") :: input.fields) ↔
      (name = "kind" ∧ value = .str "known_hash_set") ∨ (name = "name" ∧ value = .str input.name) ∨
      (name = "version" ∧ value = .str input.version) ∨
      (name = "description" ∧ ∃ text, input.description = some text ∧ value = .str text) ∨
      (name = "sha256" ∧ value = .arr (input.sha256.map .str)) := by
  rw [KnownHashSetImport.fields]
  cases input.description with
  | none => simp
  | some text => simp

theorem same_str {text : String} {value : Json} (h : Same (.str text) value) : value = .str text := by
  rw [Same] at h
  · exact h.symm
  · simp
  · simp

theorem same_texts {texts texts' : List String}
    (h : Same (.arr (texts.map .str)) (.arr (texts'.map .str))) : texts = texts' := by
  have hforall := same_arr.1 h
  clear h
  induction texts generalizing texts' with
  | nil => exact (List.map_eq_nil_iff.1 (List.forall₂_nil_left_iff.1 hforall)).symm
  | cons text texts ih =>
    cases texts' with
    | nil => cases hforall
    | cons text' texts' =>
      rw [List.map_cons, List.map_cons, List.forall₂_cons] at hforall
      obtain ⟨htext, htexts⟩ := hforall
      rw [Json.str.inj (same_str htext), ih htexts]

theorem contentDigest_injective {input input' : KnownHashSetImport}
    (h : contentDigest r input = contentDigest r input') : input = input' := by
  have hsame := same_of_stableJson (r.hash.injective h)
  obtain ⟨hlength, hfields⟩ := same_obj.1 hsame
  have hname : input.name = input'.name := by
    obtain ⟨value, hmem, hvalue⟩ := hfields ("name", .str input.name) (mem_fields.2 (by simp))
    rw [same_str hvalue, mem_fields] at hmem
    simpa using hmem
  have hversion : input.version = input'.version := by
    obtain ⟨value, hmem, hvalue⟩ := hfields ("version", .str input.version) (mem_fields.2 (by simp))
    rw [same_str hvalue, mem_fields] at hmem
    simpa using hmem
  have hsha256 : input.sha256 = input'.sha256 := by
    obtain ⟨value, hmem, hvalue⟩ := hfields ("sha256", .arr (input.sha256.map .str)) (mem_fields.2 (by simp))
    have hlist : value = .arr (input'.sha256.map .str) := by simpa using mem_fields.1 hmem
    rw [hlist] at hvalue
    exact same_texts hvalue
  have hdescription : input.description = input'.description := by
    cases hcase : input.description with
    | some text =>
      obtain ⟨value, hmem, hvalue⟩ := hfields ("description", .str text) (mem_fields.2 (by simp [hcase]))
      rw [same_str hvalue, mem_fields] at hmem
      exact Eq.symm (by simpa using hmem)
    | none =>
      cases hcase' : input'.description with
      | none => rfl
      | some text =>
        simp [KnownHashSetImport.fields, hcase, hcase'] at hlength
  cases input
  cases input'
  simp_all

/-! ### The registry -/

/-- What holds of the rows after any imports. -/
structure Sound (r : Runtime) (rows : Registry) : Prop where
  versions : (rows.map fun d => (d.name, d.version)).Nodup
  refs : (rows.map (·.dataSetRef)).Nodup
  canonical : ∀ d ∈ rows, Canonical d.content
  digest : ∀ d ∈ rows, d.digest = contentDigest r d.content
  named : ∀ d ∈ rows, ∃ uuid, d.dataSetRef = "DATASET-" ++ uuid

variable {rows : Registry}

/-- The row of a content that is new to the registry. -/
def newRow (r : Runtime) (input : KnownHashSetImport)
    (uuid importedAt : String) : KnownHashDataSet :=
  ⟨"DATASET-" ++ uuid, input.name, input.version, input.description, contentDigest r input,
    input.sha256, importedAt⟩

theorem create_ok {input : KnownHashSetImport} {uuid importedAt : String} (h : Canonical input) :
    createKnownHashDataSet r input uuid importedAt =
      .ok (newRow r input uuid importedAt) := by
  rw [createKnownHashDataSet, parse_fields h]
  rfl

theorem import_eq {value : Json} {input : KnownHashSetImport} {uuid importedAt : String}
    (h : parseKnownHashSetImport r.lower value = .ok input) :
    importKnownHashDataSet r rows value uuid importedAt =
      putKnownHashDataSet rows (newRow r input uuid importedAt) := by
  rw [importKnownHashDataSet, h]
  change (createKnownHashDataSet r input uuid importedAt >>= _) = _
  rw [create_ok (canonical_of_parse h)]
  rfl

/-- An import that is answered has been read. -/
theorem parsed_of_import {value : Json} {uuid importedAt : String} {answer : Registry × KnownHashDataSet}
    (h : importKnownHashDataSet r rows value uuid importedAt = .ok answer) :
    ∃ input, parseKnownHashSetImport r.lower value = .ok input ∧
      putKnownHashDataSet rows (newRow r input uuid importedAt) = .ok answer := by
  obtain ⟨input, hinput, -⟩ := bind_ok.1 h
  rw [import_eq hinput] at h
  exact ⟨input, hinput, h⟩

/-- What an answered import does: the content is there, under its name and version, or it is added. -/
theorem put_ok (hsound : Sound r rows)
    {input : KnownHashSetImport} {uuid importedAt : String} {answer : Registry × KnownHashDataSet}
    (h : putKnownHashDataSet rows (newRow r input uuid importedAt) = .ok answer) :
    answer.2.content = input ∧ ((answer.1 = rows ∧ answer.2 ∈ rows) ∨
      (answer.2 = newRow r input uuid importedAt ∧ answer.1 = rows ++ [answer.2] ∧
        (∀ d ∈ rows, ¬ (d.name = input.name ∧ d.version = input.version)) ∧
        ∀ d ∈ rows, d.dataSetRef ≠ answer.2.dataSetRef)) := by
  have hcontent : ∀ d ∈ rows, d.digest = contentDigest r input → d.content = input := by
    intro d hd hdigest
    rw [hsound.digest d hd] at hdigest
    exact contentDigest_injective hdigest
  unfold putKnownHashDataSet at h
  split at h
  · rename_i existing hfind
    have hmem := List.mem_of_find?_eq_some hfind
    split at h
    · cases h
    · rename_i hdigest
      obtain rfl := Except.ok.inj h
      exact ⟨hcontent existing hmem (not_not.1 hdigest), Or.inl ⟨rfl, hmem⟩⟩
  · rename_i hnone
    split at h
    · rename_i existing hfind
      obtain rfl := Except.ok.inj h
      have hmem := List.mem_of_find?_eq_some hfind
      have hdigest := List.find?_some hfind
      exact ⟨hcontent existing hmem (of_decide_eq_true hdigest), Or.inl ⟨rfl, hmem⟩⟩
    · split at h
      · cases h
      · rename_i hfresh
        obtain rfl := Except.ok.inj h
        refine ⟨rfl, Or.inr ⟨rfl, rfl, fun d hd => ?_, fun d hd => ?_⟩⟩
        · have hother := List.find?_eq_none.1 hnone d hd
          rw [decide_eq_true_iff] at hother
          exact hother
        · simpa using fun heq => hfresh (List.any_eq_true.2 ⟨d, hd, decide_eq_true heq⟩)

theorem sound_import (hsound : Sound r rows) {value : Json}
    {uuid importedAt : String} {answer : Registry × KnownHashDataSet}
    (h : importKnownHashDataSet r rows value uuid importedAt = .ok answer) :
    Sound r answer.1 ∧ rows <+: answer.1 ∧ answer.2 ∈ answer.1 := by
  obtain ⟨input, hinput, hput⟩ := parsed_of_import h
  obtain ⟨-, ⟨hrows, hmem⟩ | ⟨hnew, hrows, hversion, href⟩⟩ := put_ok hsound hput
  · rw [hrows]
    exact ⟨hsound, List.prefix_refl rows, hmem⟩
  · rw [hrows]
    refine ⟨?_, List.prefix_append rows _, by simp⟩
    refine ⟨?_, ?_, ?_, ?_, ?_⟩
    · rw [List.map_append, List.nodup_append]
      refine ⟨hsound.versions, List.nodup_singleton _, ?_⟩
      rintro _ hkey _ hnewKey rfl
      obtain ⟨d, hd, hdkey⟩ := List.mem_map.1 hkey
      rw [List.map_singleton, List.mem_singleton, ← hdkey, hnew] at hnewKey
      exact hversion d hd (Prod.mk.inj hnewKey)
    · rw [List.map_append, List.nodup_append]
      refine ⟨hsound.refs, List.nodup_singleton _, ?_⟩
      rintro _ hkey _ hnewKey rfl
      obtain ⟨d, hd, hdkey⟩ := List.mem_map.1 hkey
      rw [List.map_singleton, List.mem_singleton, ← hdkey] at hnewKey
      exact href d hd hnewKey
    · intro d hd
      rcases List.mem_append.1 hd with hd | hd
      · exact hsound.canonical d hd
      · rw [List.mem_singleton.1 hd, hnew]
        exact canonical_of_parse hinput
    · intro d hd
      rcases List.mem_append.1 hd with hd | hd
      · exact hsound.digest d hd
      · rw [List.mem_singleton.1 hd, hnew]
        rfl
    · intro d hd
      rcases List.mem_append.1 hd with hd | hd
      · exact hsound.named d hd
      · rw [List.mem_singleton.1 hd, hnew]
        exact ⟨uuid, rfl⟩

/-- One import, answered or refused, only adds rows. -/
theorem sound_step (hsound : Sound r rows) (op : Import) :
    Sound r (step r rows op) ∧
      rows <+: step r rows op := by
  rw [step]
  split
  · rename_i h
    obtain ⟨hrows, hprefix, -⟩ := sound_import hsound h
    exact ⟨hrows, hprefix⟩
  · exact ⟨hsound, List.prefix_refl rows⟩

theorem sound_nil : Sound r [] :=
  ⟨List.nodup_nil, List.nodup_nil, by simp, by simp, by simp⟩

theorem sound_run (hsound : Sound r rows) (ops : List Import) :
    Sound r (Runs.run (step r) rows ops) :=
  have hstep : ∀ (rows : Registry) (op : Import), Sound r rows →
      True → Sound r (step r rows op) :=
    fun _ op h _ => (sound_step h op).1
  Runs.run_invariant hstep ops rows hsound (Runs.along_true rows ops)

/-- What is stored stays. -/
theorem prefix_run (hsound : Sound r rows) (ops : List Import) :
    rows <+: Runs.run (step r) rows ops :=
  have hstep : ∀ (rows : Registry) (op : Import), Sound r rows →
      True → Sound r (step r rows op) :=
    fun _ op h _ => (sound_step h op).1
  Runs.run_rel List.prefix_refl List.IsPrefix.trans hstep (fun _ op h _ => (sound_step h op).2) ops rows
    hsound (Runs.along_true rows ops)

theorem get_of_mem (hsound : Sound r rows) {d : KnownHashDataSet}
    (hd : d ∈ rows) : getKnownHashDataSet rows d.dataSetRef = some d :=
  (Paging.find_key hsound.refs).2 ⟨hd, rfl⟩

theorem truthy_ref (hsound : Sound r rows) {d : KnownHashDataSet} (hd : d ∈ rows) :
    Js.truthyText (some d.dataSetRef) = some d.dataSetRef := by
  obtain ⟨uuid, huuid⟩ := hsound.named d hd
  rw [Js.truthyText, Option.filter_some_pos]
  refine decide_eq_true fun hempty => ?_
  have hlist := congrArg String.toList (huuid.symm.trans hempty)
  rw [String.toList_append] at hlist
  cases hlist

/-! ### What an import is good for -/

/-- The object as it is reported: judged by whether the import lists its digest, and otherwise unchanged. -/
structure Adjudicated (r : Runtime) (value : Json) (d : KnownHashDataSet)
    (object answer : VerifiedObject) : Prop where
  sameNamespace : answer.namespaceName = object.namespaceName
  judged : ∃ sha256, observedSha256 object = some sha256 ∧
    (answer.fields.lookup "baselineStatus" = some (.str "MATCH") ↔ Lists r.lower value sha256) ∧
    (answer.fields.lookup "baselineStatus" = some (.str "MISMATCH") ↔ ¬ Lists r.lower value sha256)
  baseline : answer.fields.lookup "baseline" =
    some (.str s!"known_hash_set:{d.dataSetRef}@{d.version}")
  rest : ∀ name, name ≠ "baseline" → name ≠ "baselineStatus" →
    answer.fields.lookup name = object.fields.lookup name

/-- The set stands for the import: it is found and listed, and files are judged by what the import lists. -/
structure Dependable (r : Runtime) (rows : Registry) (value : Json) (d : KnownHashDataSet) : Prop where
  content : parseKnownHashSetImport r.lower value = .ok d.content
  listed : summarizeKnownHashDataSet d ∈ listKnownHashDataSets rows
  prepared : prepareVerify rows .knownHashSet (some d.dataSetRef) = .ok ()
  judged : ∀ objects answer, finishVerify rows .knownHashSet (some d.dataSetRef) objects = .ok answer →
    List.Forall₂ (Adjudicated r value d) objects answer
  answered : ∀ objects, (∀ object ∈ objects, (observedSha256 object).isSome) →
    ∃ answer, finishVerify rows .knownHashSet (some d.dataSetRef) objects = .ok answer

theorem adjudicated_of_ok {value : Json} {d : KnownHashDataSet}
    (hlists : ∀ sha256, sha256 ∈ d.sha256 ↔ Lists r.lower value sha256) {object answer : VerifiedObject}
    (h : adjudicate d object = .ok answer) : Adjudicated r value d object answer := by
  obtain ⟨sha256, hsha256, h⟩ := bind_ok.1 h
  obtain rfl := pure_ok.1 h
  refine ⟨rfl, ⟨sha256, orThrow_ok.1 hsha256, ?_, ?_⟩, ?_, ?_⟩
  · dsimp only
    rw [OrderedMap.lookup_upsert, if_pos rfl, ← hlists]
    by_cases hmem : sha256 ∈ d.sha256 <;> simp [hmem]
  · dsimp only
    rw [OrderedMap.lookup_upsert, if_pos rfl, ← hlists]
    by_cases hmem : sha256 ∈ d.sha256 <;> simp [hmem]
  · dsimp only
    rw [OrderedMap.lookup_upsert, if_neg (by decide), OrderedMap.lookup_upsert, if_pos rfl]
  · intro name hbaseline hstatus
    dsimp only
    rw [OrderedMap.lookup_upsert, if_neg hstatus, OrderedMap.lookup_upsert, if_neg hbaseline]

/-- A set in the registry stands for every import it is the content of. -/
theorem dependable_of_mem (hsound : Sound r rows) {d : KnownHashDataSet} (hd : d ∈ rows) {value : Json}
    (hvalue : parseKnownHashSetImport r.lower value = .ok d.content) : Dependable r rows value d := by
  have hget := get_of_mem hsound hd
  have hfinish : ∀ objects, finishVerify rows .knownHashSet (some d.dataSetRef) objects =
      objects.mapM (adjudicate d) := by
    intro objects
    unfold finishVerify
    rw [truthy_ref hsound hd]
    dsimp only
    rw [hget]
    rfl
  refine ⟨hvalue, List.mem_map_of_mem (Paging.mem_sortBy.2 hd), ?_, ?_, ?_⟩
  · unfold prepareVerify
    rw [truthy_ref hsound hd]
    dsimp only
    rw [hget]
    rfl
  · intro objects answer h
    rw [hfinish] at h
    exact forall₂_of_mapM (fun _ _ => adjudicated_of_ok (mem_sha256_of_parse hvalue)) h
  · intro objects hobjects
    rw [hfinish]
    refine mapM_total fun object hobject => ?_
    obtain ⟨sha256, hsha256⟩ := Option.isSome_iff_exists.1 (hobjects object hobject)
    exact ⟨_, bind_ok.2 ⟨sha256, orThrow_ok.2 hsha256, rfl⟩⟩

/-- Whatever is imported before and after: a set that an import was answered with stands for that import. -/
theorem import_dependable (r : Runtime) (before after : List Import) {value : Json}
    {uuid importedAt : String} {rows : Registry} {d : KnownHashDataSet}
    (h : importKnownHashDataSet r (Runs.run (step r) [] before) value uuid importedAt = .ok (rows, d)) :
    Dependable r (Runs.run (step r) rows after) value d := by
  have hbefore := sound_run (r := r) sound_nil before
  obtain ⟨hrows, -, hmem⟩ := sound_import hbefore h
  obtain ⟨input, hinput, hput⟩ := parsed_of_import h
  obtain ⟨rfl, -⟩ := put_ok hbefore hput
  exact dependable_of_mem (sound_run hrows after) ((prefix_run hrows after).subset hmem) hinput

/-- A runtime for small lists in lower case. -/
def plainRuntime : Runtime where
  lower := ⟨id, fun _ _ => rfl⟩
  collation := Js.codeUnitCollation
  numbers := tallyNumbers
  hash := ⟨String.ofList, fun _ _ h => String.ofList_injective h⟩

def hashOf (ch : Char) : String := String.ofList (List.replicate 64 ch)

def baseImport : Json :=
  .obj [("version", .str " 1 "), ("name", .str "base"), ("sha256", .arr [.str (hashOf 'b'), .str (hashOf 'a')])]

def baseContent : KnownHashSetImport := ⟨"base", "1", none, [hashOf 'a', hashOf 'b']⟩

/-- Other content under the same version. -/
def otherImport : Import where
  value := .obj [("version", .str "1"), ("name", .str "base"), ("sha256", .arr [.str (hashOf 'c')])]
  uuid := "2"
  importedAt := "2026"

theorem parse_baseImport : parseKnownHashSetImport plainRuntime.lower baseImport = .ok baseContent := by decide +kernel

/-- The set of the first import. -/
def baseRow : KnownHashDataSet := newRow plainRuntime baseContent "1" "2025"

theorem import_base : importKnownHashDataSet plainRuntime [] baseImport "1" "2025" = .ok ([baseRow], baseRow) := by
  rw [import_eq parse_baseImport]
  rfl

theorem import_dependable_base :
    Dependable plainRuntime (Runs.run (step plainRuntime) [baseRow] [otherImport]) baseImport baseRow :=
  import_dependable plainRuntime [] [otherImport] import_base

/-- The import gives this set: its description, and its hashes in any order and letter case. -/
def Gives (r : Runtime) (value : Json) (input : KnownHashSetImport) (d : KnownHashDataSet) : Prop :=
  d.description = input.description ∧ ∀ sha256, sha256 ∈ d.sha256 ↔ Lists r.lower value sha256

theorem content_eq_iff {value : Json} {input : KnownHashSetImport}
    (hinput : parseKnownHashSetImport r.lower value = .ok input) {d : KnownHashDataSet}
    (hcanonical : Canonical d.content) (hname : d.name = input.name) (hversion : d.version = input.version) :
    d.content = input ↔ Gives r value input d := by
  constructor
  · rintro rfl
    exact ⟨rfl, mem_sha256_of_parse hinput⟩
  · rintro ⟨hdescription, hlists⟩
    have hsorted : ∀ {hashes : List String},
        (hashes.Pairwise fun a b => Js.codeUnitCollation.localeCompare a b = .lt) →
          hashes = normalForm hashes := fun h => (normalForm_of_sorted h).symm
    have hhashes : d.sha256 = input.sha256 := by
      rw [show d.sha256 = normalForm d.sha256 from hsorted hcanonical.sorted,
        hsorted (canonical_of_parse hinput).sorted]
      exact normalForm_congr fun sha256 => by rw [hlists, mem_sha256_of_parse hinput]
    cases input
    simp_all [KnownHashDataSet.content]

/-- A version is what it was first imported as: the same content is answered with the set that is there, other
    content is refused; and a version that is not there yet is stored as it is given. -/
theorem import_version (r : Runtime) (before : List Import) {value : Json} {input : KnownHashSetImport}
    (hinput : parseKnownHashSetImport r.lower value = .ok input) (uuid importedAt : String) :
    (∀ d ∈ Runs.run (step r) [] before, d.name = input.name → d.version = input.version →
      (Gives r value input d → importKnownHashDataSet r (Runs.run (step r) [] before) value uuid importedAt =
        .ok (Runs.run (step r) [] before, d)) ∧
      (¬ Gives r value input d →
        importKnownHashDataSet r (Runs.run (step r) [] before) value uuid importedAt = .error
          (invalidArgument s!"数据集 {input.name}@{input.version} 已存在且内容不同；版本不可变"))) ∧
    ((∀ d ∈ Runs.run (step r) [] before, ¬ (d.name = input.name ∧ d.version = input.version) ∧
        d.dataSetRef ≠ "DATASET-" ++ uuid) →
      importKnownHashDataSet r (Runs.run (step r) [] before) value uuid importedAt =
        .ok (Runs.run (step r) [] before ++ [newRow r input uuid importedAt], newRow r input uuid importedAt)) := by
  have hsound := sound_run (r := r) sound_nil before
  rw [import_eq hinput]
  generalize Runs.run (step r) [] before = rows at hsound
  refine ⟨fun d hd hname hversion => ?_, fun hnew => ?_⟩
  · have hfind : (rows.find? fun row => row.name = (newRow r input uuid importedAt).name ∧
        row.version = (newRow r input uuid importedAt).version) = some d := by
      have hkey : (rows.find? fun row => (row.name, row.version) = (input.name, input.version)) = some d :=
        (Paging.find_key hsound.versions).2 ⟨hd, by rw [hname, hversion]⟩
      rw [← hkey]
      congr 1
      funext row
      rw [decide_eq_decide, Prod.mk.injEq]
      rfl
    have hdigest : d.digest = (newRow r input uuid importedAt).digest ↔ Gives r value input d := by
      rw [← content_eq_iff hinput (hsound.canonical d hd) hname hversion, hsound.digest d hd]
      exact ⟨contentDigest_injective, fun h => by rw [h]; rfl⟩
    unfold putKnownHashDataSet
    rw [hfind]
    dsimp only
    refine ⟨fun h => ?_, fun h => ?_⟩
    · rw [if_neg (not_not.2 (hdigest.2 h))]
    · rw [if_pos (mt hdigest.1 h)]
      rfl
  · have hversions : (rows.find? fun row => row.name = (newRow r input uuid importedAt).name ∧
        row.version = (newRow r input uuid importedAt).version) = none :=
      List.find?_eq_none.2 fun d hd => by
        rw [decide_eq_true_iff]
        exact (hnew d hd).1
    have hdigests : (rows.find? fun row => row.digest = (newRow r input uuid importedAt).digest) = none := by
      refine List.find?_eq_none.2 fun d hd => ?_
      rw [decide_eq_true_iff, hsound.digest d hd]
      intro h
      have hcontent : d.content = input := contentDigest_injective h
      exact (hnew d hd).1 ⟨congrArg (·.name) hcontent, congrArg (·.version) hcontent⟩
    have hrefs : ¬ (rows.any fun d => d.dataSetRef = (newRow r input uuid importedAt).dataSetRef) = true := by
      rw [List.any_eq_true]
      rintro ⟨d, hd, href⟩
      exact (hnew d hd).2 (of_decide_eq_true href)
    unfold putKnownHashDataSet
    rw [hversions]
    dsimp only
    rw [hdigests]
    dsimp only
    rw [if_neg hrefs]

/-- The hashes of the first import in another order, one of them twice. -/
def againImport : Json :=
  .obj [("version", .str "1"), ("name", .str "base"),
    ("sha256", .arr [.str (hashOf 'a'), .str (hashOf 'b'), .str (hashOf 'a')])]

def nextImport : Json :=
  .obj [("version", .str "2"), ("name", .str "base"), ("sha256", .arr [.str (hashOf 'c')])]

def nextContent : KnownHashSetImport := ⟨"base", "2", none, [hashOf 'c']⟩

/-- After the first import: the same set again, other content under its version, and another version. -/
theorem import_version_base :
    importKnownHashDataSet plainRuntime [baseRow] againImport "2" "2026" = .ok ([baseRow], baseRow) ∧
    importKnownHashDataSet plainRuntime [baseRow] otherImport.value "2" "2026" =
      .error (invalidArgument "数据集 base@1 已存在且内容不同；版本不可变") ∧
    importKnownHashDataSet plainRuntime [baseRow] nextImport "2" "2026" =
      .ok ([baseRow, newRow plainRuntime nextContent "2" "2026"], newRow plainRuntime nextContent "2" "2026") := by
  have hagain : parseKnownHashSetImport plainRuntime.lower againImport = .ok baseContent := by decide +kernel
  have hother : parseKnownHashSetImport plainRuntime.lower otherImport.value =
      .ok ⟨"base", "1", none, [hashOf 'c']⟩ := by decide +kernel
  have hnext : parseKnownHashSetImport plainRuntime.lower nextImport = .ok nextContent := by decide +kernel
  have hrun : Runs.run (step plainRuntime) [] [⟨baseImport, "1", "2025"⟩] = [baseRow] := by
    rw [Runs.run_cons, step, import_base]
    rfl
  have hsame := import_version plainRuntime [⟨baseImport, "1", "2025"⟩] hagain "2" "2026"
  have hchanged := import_version plainRuntime [⟨baseImport, "1", "2025"⟩] hother "2" "2026"
  have hadded := import_version plainRuntime [⟨baseImport, "1", "2025"⟩] hnext "2" "2026"
  rw [hrun] at hsame hchanged hadded
  refine ⟨?_, ?_, ?_⟩
  · exact (hsame.1 baseRow (List.mem_singleton_self _) rfl rfl).1 ⟨rfl, mem_sha256_of_parse hagain⟩
  · refine (hchanged.1 baseRow (List.mem_singleton_self _) rfl rfl).2 fun hgives => ?_
    have hlisted := (hgives.2 (hashOf 'c')).2 ((mem_sha256_of_parse hother _).1 (List.mem_singleton_self _))
    revert hlisted
    decide
  · refine hadded.2 fun d hd => ?_
    rw [List.mem_singleton.1 hd]
    decide

end HuntWarden.Datasets
