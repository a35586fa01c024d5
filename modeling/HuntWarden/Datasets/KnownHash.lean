import HuntWarden.Common.Errors
import HuntWarden.Common.StableJson
import HuntWarden.Lib.Outcome
import HuntWarden.Lib.Paging

/-! Lists of known hashes as they are imported. An import may list a hash twice, in any letter case and in
    any order; what is kept of it is one normal form, which reads as itself when it is read again. The
    digest of a data set is the digest of that form. -/

namespace HuntWarden.Datasets

open Outcome StableJson

/-- `/^[a-f0-9]{64}$/` -/
def isSha256 (text : String) : Bool :=
  text.toList.length = 64 && text.toList.all fun ch => ('a' ≤ ch && ch ≤ 'f') || ('0' ≤ ch && ch ≤ '9')

/-- `toLowerCase`, of which only this much is used: a digest has no capital letters. -/
structure LowerCase where
  toLowerCase : String → String
  digest : ∀ text, isSha256 text = true → toLowerCase text = text

variable (l : LowerCase)

def MAX_HASHES : ℕ := 100000

def isVersionHead (ch : Char) : Bool :=
  ('0' ≤ ch && ch ≤ '9') || ('A' ≤ ch && ch ≤ 'Z') || ('a' ≤ ch && ch ≤ 'z')

def isVersionChar (ch : Char) : Bool := isVersionHead ch || ['.', '_', '+', '-'].contains ch

/-- `/^[0-9A-Za-z][0-9A-Za-z._+-]{0,63}$/` -/
def isVersion (text : String) : Bool :=
  match text.toList with
  | [] => false
  | ch :: rest => isVersionHead ch && decide (rest.length ≤ 63) && rest.all isVersionChar

structure KnownHashSetImport where
  name : String
  version : String
  description : Option String
  sha256 : List String
  deriving DecidableEq

/-- The import as the record that is read again. -/
def KnownHashSetImport.fields (input : KnownHashSetImport) : List (String × Json) :=
  ("name", .str input.name) :: ("version", .str input.version) ::
    ((input.description.map fun text => ("description", Json.str text)).toList ++
      [("sha256", .arr (input.sha256.map .str))])

/-! ### Reading an import -/

def hashError : Thrown := invalidArgument "known_hash_set 仅接受 64 位 SHA-256 十六进制摘要"

def readHash : Json → Except Thrown String
  | .str text =>
    if isSha256 (l.toLowerCase text) then .ok (l.toLowerCase text) else .error hashError
  | _ => .error hashError

/-- `[...new Set(hashes)].sort()` -/
def normalForm (hashes : List String) : List String :=
  Paging.sortBy Js.codeUnitCollation.localeCompare (Js.distinct hashes)

def allowed : List String := ["name", "version", "description", "sha256"]

/-- `typeof input[name] === "string" ? input[name].trim() : undefined` -/
def trimmed (fields : List (String × Json)) (name : String) : Option String :=
  ((fields.lookup name).bind Json.asString?).map Js.trim

def requireObject : Json → Except Thrown (List (String × Json))
  | .obj fields => .ok fields
  | _ => .error (invalidArgument "known_hash_set 必须是 JSON 对象")

/-- `input.sha256`, a list of one to `MAX_HASHES` items. -/
def requireHashes (fields : List (String × Json)) : Except Thrown (List Json) :=
  orThrow (((fields.lookup "sha256").bind Json.asArray?).filter fun items =>
      items ≠ [] ∧ items.length ≤ MAX_HASHES)
    (invalidArgument s!"known_hash_set.sha256 必须包含 1-{MAX_HASHES} 个摘要")

def parseKnownHashSetImport (value : Json) : Except Thrown KnownHashSetImport := do
  let input ← requireObject value
  let unknown := ((PropertyOrder.ownProperties input).map Prod.fst).filter (· ∉ allowed)
  require (unknown = []) (invalidArgument ("known_hash_set 包含未知字段: " ++ ", ".intercalate unknown))
  let name := (trimmed input "name").getD ""
  let version := (trimmed input "version").getD ""
  let description := trimmed input "description"
  require (name ≠ "" ∧ (Js.codeUnits name).length ≤ 128)
    (invalidArgument "known_hash_set.name 必须为 1-128 个字符")
  require (isVersion version) (invalidArgument "known_hash_set.version 格式无效")
  require (description.all fun text => (Js.codeUnits text).length ≤ 1024)
    (invalidArgument "known_hash_set.description 不能超过 1024 个字符")
  let items ← requireHashes input
  let hashes ← items.mapM (readHash l)
  return { name, version, description := description.filter (· ≠ ""), sha256 := normalForm hashes }

/-! ### What is read -/

/-- The import lists this hash, in some letter case. -/
def Lists (value : Json) (hash : String) : Prop :=
  ∃ fields items text, value = .obj fields ∧ fields.lookup "sha256" = some (.arr items) ∧
    Json.str text ∈ items ∧ l.toLowerCase text = hash

/-- What every import that was read satisfies. -/
structure Canonical (input : KnownHashSetImport) : Prop where
  nameTrimmed : Js.trim input.name = input.name
  nameGiven : input.name ≠ ""
  nameLength : (Js.codeUnits input.name).length ≤ 128
  versionTrimmed : Js.trim input.version = input.version
  version : isVersion input.version = true
  description : ∀ text, input.description = some text →
    Js.trim text = text ∧ text ≠ "" ∧ (Js.codeUnits text).length ≤ 1024
  hashes : ∀ hash ∈ input.sha256, isSha256 hash = true
  sorted : input.sha256.Pairwise fun a b => Js.codeUnitCollation.localeCompare a b = .lt
  given : input.sha256 ≠ []
  length : input.sha256.length ≤ MAX_HASHES

theorem trimmed_trim {fields : List (String × Json)} {name text : String}
    (h : trimmed fields name = some text) : Js.trim text = text := by
  obtain ⟨whole, -, rfl⟩ := Option.map_eq_some_iff.1 h
  exact Js.trim_trim whole

variable {l}

theorem readHash_ok {item : Json} {hash : String} :
    readHash l item = .ok hash ↔
      ∃ text, item = .str text ∧ l.toLowerCase text = hash ∧ isSha256 hash = true := by
  cases item with
  | str text =>
    rw [readHash]
    constructor
    · intro h
      split at h
      · rename_i hdigest
        obtain rfl := Except.ok.inj h
        exact ⟨text, rfl, rfl, hdigest⟩
      · cases h
    · rintro ⟨_, ⟨⟩, rfl, hdigest⟩
      rw [if_pos hdigest]
  | _ => simp [readHash]

theorem mapM_readHash {items : List Json} {hashes : List String} :
    items.mapM (readHash l) = .ok hashes ↔ ∃ texts : List String, items = texts.map .str ∧
      hashes = texts.map l.toLowerCase ∧ ∀ hash ∈ hashes, isSha256 hash = true := by
  induction items generalizing hashes with
  | nil =>
    rw [List.mapM_nil, pure_ok]
    constructor
    · rintro rfl
      exact ⟨[], rfl, rfl, by simp⟩
    · rintro ⟨texts, hitems, rfl, -⟩
      rw [List.map_eq_nil_iff.1 hitems.symm]
      rfl
  | cons item items ih =>
    rw [List.mapM_cons]
    constructor
    · intro h
      obtain ⟨hash, hhash, h⟩ := bind_ok.1 h
      obtain ⟨rest, hrest, h⟩ := bind_ok.1 h
      obtain rfl := pure_ok.1 h
      obtain ⟨text, rfl, rfl, hdigest⟩ := readHash_ok.1 hhash
      obtain ⟨texts, rfl, rfl, hdigests⟩ := ih.1 hrest
      exact ⟨text :: texts, rfl, rfl, List.forall_mem_cons.2 ⟨hdigest, hdigests⟩⟩
    · rintro ⟨_ | ⟨text, texts⟩, hitems, rfl, hdigests⟩
      · cases hitems
      · obtain ⟨rfl, rfl⟩ := List.cons.inj hitems
        obtain ⟨hdigest, hdigests⟩ := List.forall_mem_cons.1 hdigests
        exact bind_ok.2 ⟨_, readHash_ok.2 ⟨text, rfl, rfl, hdigest⟩,
          bind_ok.2 ⟨_, ih.2 ⟨texts, rfl, rfl, hdigests⟩, rfl⟩⟩

/-! ### The normal form of the hashes -/

theorem localeCompare_eq {a b : String} (h : Js.codeUnitCollation.localeCompare a b = .eq) : a = b :=
  Js.codeUnits_injective (Js.cmp_eq_eq.1 h)

theorem separates (hashes : List String) :
    Paging.Separates Js.codeUnitCollation.localeCompare hashes :=
  fun _ _ _ _ h => localeCompare_eq h

@[simp] theorem mem_normalForm {hash : String} {hashes : List String} :
    hash ∈ normalForm hashes ↔ hash ∈ hashes := by
  rw [normalForm, Paging.mem_sortBy, Js.mem_distinct]

theorem sorted_normalForm (hashes : List String) :
    (normalForm hashes).Pairwise fun a b => Js.codeUnitCollation.localeCompare a b = .lt :=
  Paging.strict_sortBy (separates _) (Js.nodup_distinct _)

theorem nodup_of_sorted {hashes : List String}
    (h : hashes.Pairwise fun a b => Js.codeUnitCollation.localeCompare a b = .lt) : hashes.Nodup := by
  refine h.imp ?_
  rintro a b hlt rfl
  have hself : Js.codeUnitCollation.localeCompare a a = .eq := Js.cmp_eq_eq.2 rfl
  rw [hself] at hlt
  cases hlt

theorem normalForm_of_sorted {hashes : List String}
    (h : hashes.Pairwise fun a b => Js.codeUnitCollation.localeCompare a b = .lt) :
    normalForm hashes = hashes := by
  rw [normalForm, Js.distinct_of_nodup (nodup_of_sorted h)]
  exact Paging.sortBy_eq_of_strict (.refl _) h

/-- Lists with the same members have one normal form. -/
theorem normalForm_congr {hashes hashes' : List String} (h : ∀ hash, hash ∈ hashes ↔ hash ∈ hashes') :
    normalForm hashes = normalForm hashes' := by
  refine Paging.sortBy_congr (separates _) ?_
  rw [List.perm_ext_iff_of_nodup (Js.nodup_distinct _) (Js.nodup_distinct _)]
  intro hash
  rw [Js.mem_distinct, Js.mem_distinct, h]

theorem length_normalForm_le (hashes : List String) : (normalForm hashes).length ≤ hashes.length := by
  rw [normalForm, Paging.length_sortBy]
  exact (List.subperm_of_subset (Js.nodup_distinct hashes) fun _ => Js.mem_distinct.1).length_le

/-! ### Reading and reading again -/

theorem requireObject_ok {value : Json} {fields : List (String × Json)} :
    requireObject value = .ok fields ↔ value = .obj fields := by
  cases value <;> simp [requireObject]

theorem requireHashes_ok {fields : List (String × Json)} {items : List Json} :
    requireHashes fields = .ok items ↔
      fields.lookup "sha256" = some (.arr items) ∧ items ≠ [] ∧ items.length ≤ MAX_HASHES := by
  rw [requireHashes, orThrow_ok, Option.filter_eq_some_iff, Option.bind_eq_some_iff, decide_eq_true_iff]
  refine and_congr_left fun _ => ⟨?_, fun h => ⟨_, h, rfl⟩⟩
  rintro ⟨value, hvalue, harray⟩
  cases value with
  | arr _ => rw [hvalue, Option.some.inj harray]
  | _ => cases harray

/-- The names of the record are the known ones. -/
theorem unknown_eq_nil {fields : List (String × Json)} :
    ((PropertyOrder.ownProperties fields).map Prod.fst).filter (· ∉ allowed) = [] ↔
      ∀ name ∈ fields.map Prod.fst, name ∈ allowed := by
  rw [List.filter_eq_nil_iff]
  have hperm := (PropertyOrder.perm_ownProperties fields).map Prod.fst
  constructor
  · intro h name hname
    simpa using h name (hperm.mem_iff.2 hname)
  · intro h name hname
    simpa using h name (hperm.mem_iff.1 hname)

/-- What is read out of the fields, before any check. -/
def taken (fields : List (String × Json)) (hashes : List String) : KnownHashSetImport where
  name := (trimmed fields "name").getD ""
  version := (trimmed fields "version").getD ""
  description := (trimmed fields "description").filter (· ≠ "")
  sha256 := normalForm hashes

theorem parse_ok {value : Json} {input : KnownHashSetImport} :
    parseKnownHashSetImport l value = .ok input ↔ ∃ fields items hashes, value = .obj fields ∧
      (∀ name ∈ fields.map Prod.fst, name ∈ allowed) ∧
      (input.name ≠ "" ∧ (Js.codeUnits input.name).length ≤ 128) ∧ isVersion input.version = true ∧
      ((trimmed fields "description").all fun text => (Js.codeUnits text).length ≤ 1024) = true ∧
      requireHashes fields = .ok items ∧ items.mapM (readHash l) = .ok hashes ∧
      input = taken fields hashes := by
  rw [parseKnownHashSetImport]
  constructor
  · intro h
    obtain ⟨fields, hfields, h⟩ := bind_ok.1 h
    obtain ⟨_, hunknown, h⟩ := bind_ok.1 h
    obtain ⟨_, hname, h⟩ := bind_ok.1 h
    obtain ⟨_, hversion, h⟩ := bind_ok.1 h
    obtain ⟨_, hdescription, h⟩ := bind_ok.1 h
    obtain ⟨items, hitems, h⟩ := bind_ok.1 h
    obtain ⟨hashes, hhashes, h⟩ := bind_ok.1 h
    obtain rfl := pure_ok.1 h
    rw [require_ok, decide_eq_true_iff] at hunknown hname
    exact ⟨fields, items, hashes, requireObject_ok.1 hfields, unknown_eq_nil.1 hunknown, hname,
      require_ok.1 hversion, require_ok.1 hdescription, hitems, hhashes, rfl⟩
  · rintro ⟨fields, items, hashes, rfl, hunknown, hname, hversion, hdescription, hitems, hhashes, rfl⟩
    refine bind_ok.2 ⟨fields, rfl, bind_ok.2 ⟨(), ?_, bind_ok.2 ⟨(), ?_, bind_ok.2 ⟨(), ?_,
      bind_ok.2 ⟨(), ?_, bind_ok.2 ⟨items, hitems, bind_ok.2 ⟨hashes, hhashes, rfl⟩⟩⟩⟩⟩⟩⟩
    · rw [require_ok, decide_eq_true_iff]
      exact unknown_eq_nil.2 hunknown
    · rw [require_ok, decide_eq_true_iff]
      exact hname
    · exact require_ok.2 hversion
    · exact require_ok.2 hdescription

theorem canonical_of_parse {value : Json} {input : KnownHashSetImport}
    (h : parseKnownHashSetImport l value = .ok input) : Canonical input := by
  obtain ⟨fields, items, hashes, rfl, -, hname, hversion, hdescription, hitems, hhashes, rfl⟩ := parse_ok.1 h
  obtain ⟨-, hgiven, hlength⟩ := requireHashes_ok.1 hitems
  obtain ⟨texts, rfl, rfl, hdigests⟩ := mapM_readHash.1 hhashes
  have htrim : ∀ name, Js.trim ((trimmed fields name).getD "") = (trimmed fields name).getD "" := by
    intro name
    cases htext : trimmed fields name with
    | none => rfl
    | some text => exact trimmed_trim htext
  refine ⟨htrim "name", hname.1, hname.2, htrim "version", hversion, ?_, ?_, sorted_normalForm _, ?_, ?_⟩
  · intro text htext
    obtain ⟨htext, hne⟩ := Option.filter_eq_some_iff.1 htext
    rw [htext, Option.all_some, decide_eq_true_iff] at hdescription
    exact ⟨trimmed_trim htext, of_decide_eq_true hne, hdescription⟩
  · intro hash hhash
    exact hdigests hash (mem_normalForm.1 hhash)
  · intro hnil
    cases texts with
    | nil => exact hgiven rfl
    | cons text texts =>
      have hmem : l.toLowerCase text ∈ normalForm ((text :: texts).map l.toLowerCase) :=
        mem_normalForm.2 List.mem_cons_self
      rw [show normalForm _ = [] from hnil] at hmem
      cases hmem
  · refine (length_normalForm_le _).trans ?_
    rw [List.length_map] at hlength ⊢
    exact hlength

/-- The hashes that are kept are those that the import lists. -/
theorem mem_sha256_of_parse {value : Json} {input : KnownHashSetImport}
    (h : parseKnownHashSetImport l value = .ok input) (hash : String) :
    hash ∈ input.sha256 ↔ Lists l value hash := by
  obtain ⟨fields, items, hashes, rfl, -, -, -, -, hitems, hhashes, rfl⟩ := parse_ok.1 h
  obtain ⟨hlookup, -⟩ := requireHashes_ok.1 hitems
  obtain ⟨texts, rfl, rfl, -⟩ := mapM_readHash.1 hhashes
  rw [taken, mem_normalForm, List.mem_map]
  constructor
  · rintro ⟨text, htext, rfl⟩
    exact ⟨fields, _, text, rfl, hlookup, List.mem_map_of_mem htext, rfl⟩
  · rintro ⟨_, items, text, hvalue, hlisted, hmem, rfl⟩
    cases hvalue
    rw [hlookup] at hlisted
    cases hlisted
    obtain ⟨_, htext, heq⟩ := List.mem_map.1 hmem
    cases heq
    exact ⟨text, htext, rfl⟩

/-- What was read is read again as it is. -/
theorem parse_fields {input : KnownHashSetImport} (h : Canonical input) :
    parseKnownHashSetImport l (.obj input.fields) = .ok input := by
  have hname : trimmed input.fields "name" = some (Js.trim input.name) := rfl
  have hversion : trimmed input.fields "version" = some (Js.trim input.version) := rfl
  have hdescription : trimmed input.fields "description" = input.description := by
    rw [trimmed, KnownHashSetImport.fields]
    cases hcase : input.description with
    | none => rfl
    | some text => exact congrArg some (h.description text hcase).1
  have hhashes : input.fields.lookup "sha256" = some (.arr (input.sha256.map .str)) := by
    rw [KnownHashSetImport.fields]
    cases input.description <;> rfl
  have hkept : input.description.filter (· ≠ "") = input.description := by
    cases hcase : input.description with
    | none => rfl
    | some text => rw [Option.filter_some_pos (by simpa using (h.description text hcase).2.1)]
  have hlower : input.sha256.map l.toLowerCase = input.sha256 :=
    (List.map_congr_left fun hash hhash => l.digest hash (h.hashes hash hhash)).trans (List.map_id _)
  refine parse_ok.2 ⟨_, input.sha256.map .str, input.sha256, rfl, ?_, ⟨h.nameGiven, h.nameLength⟩,
    h.version, ?_, requireHashes_ok.2 ⟨hhashes, ?_, ?_⟩,
    mapM_readHash.2 ⟨_, rfl, hlower.symm, h.hashes⟩, ?_⟩
  · rw [KnownHashSetImport.fields]
    cases input.description <;> simp [allowed]
  · rw [hdescription, Option.all_eq_true]
    intro text htext
    exact decide_eq_true (h.description text htext).2.2
  · exact fun hnil => h.given (List.map_eq_nil_iff.1 hnil)
  · rw [List.length_map]
    exact h.length
  · rw [taken, hname, hversion, hdescription, hkept, normalForm_of_sorted h.sorted, Option.getD_some,
      Option.getD_some, h.nameTrimmed, h.versionTrimmed]

end HuntWarden.Datasets
