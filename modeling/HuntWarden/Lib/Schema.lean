import HuntWarden.Lib.Record
import Mathlib.Data.List.Nodup

/-! Schemas of JSON values as they are declared, and the library that checks a value against one. The library is a
    parameter: its laws say what it documents of the kinds of schema that are declared here. -/

namespace HuntWarden

open OrderedMap

/-- The schemas. A pattern is given by its test. A property of a record is required or not; a strict record has no
    others. -/
inductive Schema where
  | literal (value : Json)
  | boolean
  /-- `Type.Number`, or `Type.Integer` -/
  | number (whole : Bool) (minimum maximum : Option ℚ)
  | text (minLength : ℕ) (maxLength : Option ℕ) (pattern : String → Bool)
  | array (item : Schema) (minItems : ℕ) (maxItems : Option ℕ) (unique : Bool)
  | record (strict : Bool) (properties : List (String × Bool × Schema))
  | union (branches : List Schema)

namespace Schema

/-- The names that a strict record does not know. -/
def additional (properties : List (String × Bool × Schema)) (fields : List (String × Json)) : List String :=
  (fields.map Prod.fst).filter (· ∉ properties.map Prod.fst)

/-! ### Common schemas -/

/-- `Type.Union` of `Type.Literal`s, or `Type.Enum`. -/
def oneOf (texts : List String) : Schema := .union (texts.map fun text => .literal (.str text))

def anyText : Schema := .text 0 none fun _ => true

/-- `Type.String({ minLength, maxLength, pattern })` -/
def textWithin (minLength maxLength : ℕ) (pattern : String → Bool) : Schema := .text minLength (some maxLength) pattern

/-- A property that has to be there. -/
def needs (name : String) (schema : Schema) : String × Bool × Schema := (name, true, schema)

/-- `Type.Optional` -/
def allows (name : String) (schema : Schema) : String × Bool × Schema := (name, false, schema)

end Schema

/-! ### The library -/

/-- An error of `Value.Errors`, with the names of `params.additionalProperties`. -/
structure ValueError where
  keyword : String
  instancePath : String
  additionalProperties : List String
  message : String

/-- `Value.Check(schema, value)`, `Value.Errors(schema, value)`, and the length of a text. -/
structure TypeBox where
  textLength : String → ℕ
  check : Schema → Json → Bool
  errors : Schema → Json → List ValueError

namespace TypeBox

/-- Each property is there unless it is optional, and checks if it is there. -/
def Fits (t : TypeBox) (properties : List (String × Bool × Schema)) (fields : List (String × Json)) : Prop :=
  ∀ property ∈ properties,
    (fields.lookup property.1).elim (property.2.1 = false) fun v => t.check property.2.2 v = true

/-- A path is one of another path or below it. -/
def Below (path error : String) : Prop := error = path ∨ ∃ rest, error = path ++ "/" ++ rest

/-- What the library documents. A value checks when it has what its schema says, and has errors when it does not check.
    Where properties of a record do not fit, an error speaks of one that is missing, at the record, or of one that does
    not check, at its path or below; where all fit, the only error of a strict record names what it does not know.
    (Names with `/` or `~` are written differently in a path.) -/
structure Lawful (t : TypeBox) : Prop where
  textLength_pos : ∀ text, text ≠ "" → 0 < t.textLength text
  literal : ∀ value v, t.check (.literal value) v = true ↔ v = value
  text : ∀ minLength maxLength pattern v, t.check (.text minLength maxLength pattern) v = true ↔
    ∃ text, v = .str text ∧ minLength ≤ t.textLength text ∧ (∀ maximum ∈ maxLength, t.textLength text ≤ maximum) ∧
      pattern text = true
  record : ∀ strict properties v, t.check (.record strict properties) v = true ↔
    ∃ fields, v = .obj fields ∧ (strict = true → Schema.additional properties fields = []) ∧ t.Fits properties fields
  union : ∀ branches v, t.check (.union branches) v = true ↔ ∃ branch ∈ branches, t.check branch v = true
  errors_nil : ∀ schema v, t.errors schema v = [] ↔ t.check schema v = true
  errors_unfit : ∀ strict properties fields,
    (∀ property ∈ properties, ∀ ch ∈ property.1.toList, ch ≠ '/' ∧ ch ≠ '~') → ¬ t.Fits properties fields →
      ∃ error ∈ t.errors (.record strict properties) (.obj fields),
        error.instancePath = "" ∧ error.keyword ≠ "additionalProperties" ∨
          ∃ property ∈ properties, ∃ v, fields.lookup property.1 = some v ∧ t.check property.2.2 v = false ∧
            Below ("/" ++ property.1) error.instancePath
  errors_fit : ∀ properties fields, t.Fits properties fields → Schema.additional properties fields ≠ [] →
    ∃ message, t.errors (.record true properties) (.obj fields) =
      [⟨"additionalProperties", "", Schema.additional properties fields, message⟩]

end TypeBox

namespace Schema

variable {t : TypeBox} {strict required : Bool} {properties : List (String × Bool × Schema)}
  {fields : List (String × Json)} {schema : Schema} {name : String} {v w : Json}

/-! ### What a check says of a property -/

theorem isRecord_of_check (h : t.Lawful) (hv : t.check (.record strict properties) v = true) : v.isRecord = true := by
  obtain ⟨fields, rfl, -⟩ := (h.record strict properties v).1 hv
  rfl

/-- A property that is there checks. -/
theorem check_of_get? (h : t.Lawful) (hv : t.check (.record strict properties) v = true)
    (hmem : (name, required, schema) ∈ properties) (hw : v.get? name = some w) : t.check schema w = true := by
  obtain ⟨fields, rfl, -, hfits⟩ := (h.record strict properties v).1 hv
  have hproperty := hfits _ hmem
  rw [show fields.lookup name = some w from hw] at hproperty
  exact hproperty

/-- A required property is there. -/
theorem exists_get? (h : t.Lawful) (hv : t.check (.record strict properties) v = true)
    (hmem : (name, true, schema) ∈ properties) : ∃ w, v.get? name = some w ∧ t.check schema w = true := by
  obtain ⟨fields, rfl, -, hfits⟩ := (h.record strict properties v).1 hv
  have hproperty := hfits _ hmem
  cases hw : fields.lookup name with
  | none =>
    rw [hw] at hproperty
    cases hproperty
  | some w =>
    rw [hw] at hproperty
    exact ⟨w, hw, hproperty⟩

theorem mem_additional : name ∈ additional properties fields ↔
    (fields.lookup name).isSome = true ∧ name ∉ properties.map Prod.fst := by
  rw [additional, List.mem_filter, decide_eq_true_eq]
  refine and_congr_left fun _ => ?_
  rw [Option.isSome_iff_ne_none, ne_eq, List.lookup_eq_none_iff]
  simp only [List.mem_map, bne_iff_ne, not_forall, not_not, exists_prop]
  exact exists_congr fun field => and_congr_right fun _ => eq_comm

/-- A strict record has no other property. -/
theorem get?_eq_none (h : t.Lawful) (hv : t.check (.record true properties) v = true)
    (hnot : name ∉ properties.map Prod.fst) : v.get? name = none := by
  obtain ⟨fields, rfl, hstrict, -⟩ := (h.record true properties v).1 hv
  by_contra hthere
  have hmem : name ∈ additional properties fields :=
    mem_additional.2 ⟨Option.isSome_iff_ne_none.2 hthere, hnot⟩
  rw [hstrict rfl] at hmem
  cases hmem

/-- Where the names differ, a name has one schema. -/
theorem schema_unique {required' : Bool} {schema' : Schema} (hnodup : (properties.map Prod.fst).Nodup)
    (h : (name, required, schema) ∈ properties) (h' : (name, required', schema') ∈ properties) : schema' = schema := by
  have hsame := List.inj_on_of_nodup_map hnodup h' h rfl
  cases hsame
  rfl

/-! ### Changing one property -/

theorem additional_upsert (hmem : name ∈ properties.map Prod.fst) :
    additional properties (upsert name (fun _ => w) fields) = additional properties fields := by
  rw [additional, additional, keys_upsert]
  split
  · rfl
  · rw [List.filter_append, List.filter_cons_of_neg (by rw [decide_eq_true_eq]; exact not_not_intro hmem)]
    exact List.append_nil _

/-- The properties fit after one of them was changed to a value that checks. -/
theorem fits_upsert (hfits : t.Fits properties fields)
    (hw : ∀ required schema, (name, required, schema) ∈ properties → t.check schema w = true) :
    t.Fits properties (upsert name (fun _ => w) fields) := by
  rintro ⟨key, required, schema⟩ hmem
  rw [lookup_upsert]
  by_cases hkey : key = name
  · subst hkey
    rw [if_pos rfl]
    exact hw required schema hmem
  · rw [if_neg hkey]
    exact hfits _ hmem

theorem check_set (h : t.Lawful) (hv : t.check (.record strict properties) v = true)
    (hmem : name ∈ properties.map Prod.fst)
    (hw : ∀ required schema, (name, required, schema) ∈ properties → t.check schema w = true) :
    t.check (.record strict properties) (v.set name w) = true := by
  obtain ⟨fields, rfl, hstrict, hfits⟩ := (h.record strict properties v).1 hv
  refine (h.record strict properties _).2 ⟨_, rfl, fun hnone => ?_, fits_upsert hfits hw⟩
  rw [additional_upsert hmem]
  exact hstrict hnone

/-- A property of an inner record is changed to a value that checks. -/
theorem check_setIn (h : t.Lawful) (hv : t.check (.record strict properties) v = true)
    (hnodup : (properties.map Prod.fst).Nodup) {inner : List (String × Bool × Schema)} {outer : String}
    {strict' required' : Bool} (houter : (outer, required', .record strict' inner) ∈ properties)
    (hnodup' : (inner.map Prod.fst).Nodup) (hname : (name, required, schema) ∈ inner)
    (hw : t.check schema w = true) : t.check (.record strict properties) (v.setIn outer name w) = true := by
  cases hold : v.get? outer with
  | none => rwa [Json.setIn, Json.onRecord, hold]
  | some old =>
    have hinner := check_of_get? h hv houter hold
    rw [Json.setIn_eq hold (isRecord_of_check h hinner)]
    refine check_set h hv (List.mem_map_of_mem houter) fun _ found hfound => ?_
    rw [schema_unique hnodup houter hfound]
    refine check_set h hinner (List.mem_map_of_mem hname) fun _ found hfound => ?_
    rw [schema_unique hnodup' hname hfound]
    exact hw

end Schema

/-! ### A library -/

namespace TypeBox

variable (textLength : String → ℕ)

mutual
/-- The values of a schema. -/
def admits : Schema → Json → Bool
  | .literal value, v => v = value
  | .boolean, v => v.asBool?.isSome
  | .number whole minimum maximum, v => v.asNumber?.any fun q =>
    (!whole || q.den = 1) && minimum.all (· ≤ q) && maximum.all (q ≤ ·)
  | .text minLength maxLength pattern, v => v.asString?.any fun text =>
    minLength ≤ textLength text && maxLength.all (textLength text ≤ ·) && pattern text
  | .array item minItems maxItems unique, v => v.asArray?.any fun items =>
    minItems ≤ items.length && maxItems.all (items.length ≤ ·) && (!unique || items.Nodup) && items.all (admits item)
  | .record strict properties, .obj fields =>
    (!strict || (Schema.additional properties fields).isEmpty) && admitsProperties properties fields
  | .record _ _, _ => false
  | .union branches, v => admitsAny branches v

def admitsProperties : List (String × Bool × Schema) → List (String × Json) → Bool
  | [], _ => true
  | (name, required, schema) :: properties, fields =>
    (match fields.lookup name with
      | some v => admits schema v
      | none => !required) && admitsProperties properties fields

def admitsAny : List Schema → Json → Bool
  | [], _ => false
  | branch :: branches, v => admits branch v || admitsAny branches v
end

/-- What is wrong with a property of a record. -/
def faultOf (fields : List (String × Json)) : String × Bool × Schema → Option ValueError
  | (name, required, schema) =>
    match fields.lookup name with
    | some v => if admits textLength schema v then none else some ⟨"type", "/" ++ name, [], "must match schema"⟩
    | none => if required then some ⟨"required", "", [], "must have required properties"⟩ else none

/-- The errors of a record, one for each fault; any other value has one error at most. -/
def faults : Schema → Json → List ValueError
  | .record strict properties, .obj fields =>
    properties.filterMap (faultOf textLength fields) ++
      if strict && !(Schema.additional properties fields).isEmpty then
        [⟨"additionalProperties", "", Schema.additional properties fields, "must not have additional properties"⟩]
      else []
  | schema, v => if admits textLength schema v then [] else [⟨"type", "", [], "must match schema"⟩]

/-- A library that does no more than the laws say. -/
def plain : TypeBox where
  textLength := textLength
  check := admits textLength
  errors := faults textLength

variable {textLength} {properties : List (String × Bool × Schema)} {fields : List (String × Json)}

theorem admitsAny_iff {v : Json} : ∀ {branches : List Schema},
    admitsAny textLength branches v = true ↔ ∃ branch ∈ branches, admits textLength branch v = true
  | [] => by simp [admitsAny]
  | branch :: branches => by
    rw [admitsAny, Bool.or_eq_true, @admitsAny_iff v branches]
    simp

theorem admitsProperties_iff : ∀ {properties : List (String × Bool × Schema)},
    admitsProperties textLength properties fields = true ↔ (plain textLength).Fits properties fields
  | [] => iff_of_true rfl fun _ h => absurd h List.not_mem_nil
  | (name, required, schema) :: properties => by
    rw [admitsProperties, Bool.and_eq_true, @admitsProperties_iff properties, Fits, Fits, List.forall_mem_cons]
    refine and_congr_left fun _ => ?_
    cases fields.lookup name with
    | some v => exact Iff.rfl
    | none => cases required <;> simp

theorem faultOf_eq_none {property : String × Bool × Schema} : faultOf textLength fields property = none ↔
    (fields.lookup property.1).elim (property.2.1 = false) fun v => (plain textLength).check property.2.2 v = true := by
  obtain ⟨name, required, schema⟩ := property
  rw [faultOf]
  cases fields.lookup name with
  | some v => simp [plain]
  | none => cases required <;> simp

theorem faults_properties : properties.filterMap (faultOf textLength fields) = [] ↔
    (plain textLength).Fits properties fields := by
  rw [List.filterMap_eq_nil_iff]
  exact forall₂_congr fun _ _ => faultOf_eq_none

theorem lawful_plain (hpos : ∀ text, text ≠ "" → 0 < textLength text) : (plain textLength).Lawful where
  textLength_pos := hpos
  literal value v := by simp [plain, admits]
  text minLength maxLength pattern v := by
    cases v with
    | str s => cases maxLength <;> simp [plain, admits, Json.asString?, and_assoc]
    | _ => simp [plain, admits, Json.asString?]
  record strict properties v := by
    cases v with
    | obj fields =>
      simp only [plain, admits, Bool.and_eq_true, admitsProperties_iff, Json.obj.injEq, exists_eq_left']
      refine and_congr_left fun _ => ?_
      cases strict <;> simp
    | _ => simp [plain, admits]
  union branches v := by
    change admits textLength (.union branches) v = true ↔ _
    rw [admits]
    exact admitsAny_iff
  errors_nil schema v := by
    change faults textLength schema v = [] ↔ admits textLength schema v = true
    unfold faults
    split
    · next strict properties fields =>
      rw [List.append_eq_nil_iff, faults_properties, ← admitsProperties_iff, admits]
      cases strict <;> simp [and_comm]
    · cases admits textLength schema v <;> simp
  errors_unfit strict properties fields _ hunfit := by
    rw [← faults_properties] at hunfit
    obtain ⟨error, herror⟩ := List.exists_mem_of_ne_nil _ hunfit
    refine ⟨error, List.mem_append_left _ herror, ?_⟩
    obtain ⟨⟨name, required, schema⟩, hmem, hfault⟩ := List.mem_filterMap.1 herror
    rw [faultOf] at hfault
    cases hw : fields.lookup name with
    | some v =>
      simp only [hw] at hfault
      split at hfault
      · cases hfault
      · next hbad =>
        cases hfault
        exact Or.inr ⟨_, hmem, v, hw, Bool.eq_false_iff.2 hbad, Or.inl rfl⟩
    | none =>
      simp only [hw] at hfault
      split at hfault
      · cases hfault
        exact Or.inl ⟨rfl, by decide⟩
      · cases hfault
  errors_fit properties fields hfits hunknown := by
    refine ⟨"must not have additional properties", ?_⟩
    change properties.filterMap (faultOf textLength fields) ++ _ = _
    rw [faults_properties.2 hfits, List.nil_append, if_pos]
    simpa using hunknown

end TypeBox

end HuntWarden
