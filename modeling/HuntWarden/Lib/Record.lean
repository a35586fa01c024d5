import HuntWarden.Lib.Json
import HuntWarden.Lib.OrderedMap

/-! Assignments to the properties of a JSON record, at any depth: a property is set, given a default, changed
    where it is a record itself, or deleted. What is found along a path afterwards, and when nothing changes. -/

namespace HuntWarden.Json

open OrderedMap

variable {name key : String} {value old v w : Json} {keys : List String} {f : Json → Json}

/-! ### Assignments -/

/-- `record[name] = value`. -/
def set (v : Json) (name : String) (value : Json) : Json :=
  match v with
  | .obj fields => .obj (upsert name (fun _ => value) fields)
  | other => other

/-- `if (record[name] === undefined) record[name] = value`. -/
def setDefault (v : Json) (name : String) (value : Json) : Json :=
  if (v.get? name).isNone then v.set name value else v

/-- `if (isRecord(record[name])) …`, for what happens to that record. -/
def onRecord (v : Json) (name : String) (f : Json → Json) : Json :=
  match v.get? name with
  | some w => if w.isRecord then v.set name (f w) else v
  | none => v

/-- `record[outer][name] = value`, for a record at `outer`. -/
def setIn (v : Json) (outer name : String) (value : Json) : Json := v.onRecord outer (·.set name value)

/-- `delete record[key]`, for some keys. -/
def without (v : Json) (keys : List String) : Json :=
  match v with
  | .obj fields => .obj (fields.filter (·.1 ∉ keys))
  | other => other

/-- What stands at the end of a path of names. -/
def at? (v : Json) : List String → Option Json
  | [] => some v
  | key :: rest => (v.get? key).bind fun w => w.at? rest

/-! ### What is found -/

theorem get?_set (h : v.isRecord = true) :
    (v.set name value).get? key = if key = name then some value else v.get? key := by
  cases v with
  | obj fields =>
    rw [set, get?, lookup_upsert]
    rfl
  | _ => cases h

theorem get?_set_of_ne (h : key ≠ name) : (v.set name value).get? key = v.get? key := by
  cases v with
  | obj fields => rw [get?_set rfl, if_neg h]
  | _ => rfl

theorem get?_without (h : key ∉ keys) : (v.without keys).get? key = v.get? key := by
  cases v with
  | obj fields =>
    rw [without, get?, get?]
    induction fields with
    | nil => rfl
    | cons field fields ih =>
      rw [List.filter_cons]
      split
      · rw [lookup_cons_if, lookup_cons_if, ih]
      · next hdeleted =>
        have hne : key ≠ field.1 := by
          rintro rfl
          exact hdeleted (decide_eq_true h)
        rw [ih, lookup_cons_if, if_neg hne]
  | _ => rfl

theorem isRecord_of_get? (h : v.get? key = some w) : v.isRecord = true := by
  cases v with
  | obj fields => rfl
  | _ => cases h

@[simp] theorem isRecord_set : (v.set name value).isRecord = v.isRecord := by cases v <;> rfl

@[simp] theorem isRecord_setDefault : (v.setDefault name value).isRecord = v.isRecord := by
  rw [setDefault]
  split
  · exact isRecord_set
  · rfl

@[simp] theorem isRecord_without : (v.without keys).isRecord = v.isRecord := by cases v <;> rfl

@[simp] theorem isRecord_onRecord : (v.onRecord name f).isRecord = v.isRecord := by
  rw [onRecord]
  split
  · split
    · exact isRecord_set
    · rfl
  · rfl

theorem get?_setDefault_of_ne (h : key ≠ name) : (v.setDefault name value).get? key = v.get? key := by
  rw [setDefault]
  split
  · exact get?_set_of_ne h
  · rfl

theorem get?_onRecord_of_ne (h : key ≠ name) : (v.onRecord name f).get? key = v.get? key := by
  rw [onRecord]
  split
  · split
    · exact get?_set_of_ne h
    · rfl
  · rfl

theorem get?_onRecord (hw : v.get? name = some w) (h : w.isRecord = true) :
    (v.onRecord name f).get? name = some (f w) := by
  rw [onRecord, hw]
  dsimp only
  rw [if_pos h, get?_set (isRecord_of_get? hw), if_pos rfl]

/-! ### When nothing changes -/

theorem upsert_eq_self : ∀ {fields : List (String × Json)}, fields.lookup name = some value →
    upsert name (fun _ => value) fields = fields
  | [], h => by cases h
  | (k, u) :: fields, h => by
    rw [lookup_cons_if] at h
    rw [upsert]
    by_cases hk : k = name
    · rw [if_pos hk.symm] at h
      rw [if_pos hk, Option.some.inj h]
    · rw [if_neg (Ne.symm hk)] at h
      rw [if_neg hk, upsert_eq_self h]

theorem set_eq_self (h : v.get? name = some value) : v.set name value = v := by
  cases v with
  | obj fields => rw [set, upsert_eq_self h]
  | _ => rfl

theorem setDefault_eq_self (h : (v.get? name).isSome = true) : v.setDefault name value = v := by
  rw [setDefault, if_neg]
  rw [Option.isNone_iff_eq_none]
  exact Option.isSome_iff_ne_none.1 h

theorem onRecord_eq_self (h : ∀ w, v.get? name = some w → w.isRecord = true → f w = w) :
    v.onRecord name f = v := by
  rw [onRecord]
  split
  · next w hw =>
    split
    · next hrecord =>
      rw [h w hw hrecord]
      exact set_eq_self hw
    · rfl
  · rfl

theorem without_eq_self (h : ∀ key ∈ keys, v.get? key = none) : v.without keys = v := by
  cases v with
  | obj fields =>
    rw [without, List.filter_eq_self.2]
    intro field hfield
    refine decide_eq_true fun hkey => ?_
    have hnone := h field.1 hkey
    rw [get?, List.lookup_eq_none_iff] at hnone
    have := hnone field hfield
    simp at this
  | _ => rfl

/-! ### Paths -/

theorem at?_cons (rest : List String) : v.at? (key :: rest) = (v.get? key).bind fun w => w.at? rest := rfl

theorem at?_set_of_ne {rest : List String} (h : key ≠ name) :
    (v.set name value).at? (key :: rest) = v.at? (key :: rest) := by
  rw [at?_cons, at?_cons, get?_set_of_ne h]

theorem at?_without {rest : List String} (h : key ∉ keys) :
    (v.without keys).at? (key :: rest) = v.at? (key :: rest) := by
  rw [at?_cons, at?_cons, get?_without h]

/-- A default does not touch what is there. -/
theorem at?_setDefault {path : List String} (hleaf : old.isRecord = false) (h : v.at? path = some old) :
    (v.setDefault name value).at? path = some old := by
  rw [setDefault]
  split
  · next hnone =>
    cases path with
    | nil =>
      cases h
      cases old with
      | obj fields => cases hleaf
      | _ => rfl
    | cons key rest =>
      rw [at?_set_of_ne, h]
      rintro rfl
      rw [at?_cons, Option.isNone_iff_eq_none.1 hnone] at h
      cases h
  · exact h

theorem get?_setIn_of_ne {outer : String} (h : key ≠ outer) : (v.setIn outer name value).get? key = v.get? key :=
  get?_onRecord_of_ne h

theorem setIn_eq {outer : String} (hw : v.get? outer = some w) (h : w.isRecord = true) :
    v.setIn outer name value = v.set outer (w.set name value) := by
  rw [setIn, onRecord, hw]
  dsimp only
  rw [if_pos h]

@[simp] theorem isRecord_setIn {outer : String} : (v.setIn outer name value).isRecord = v.isRecord := isRecord_onRecord

/-- A property that is there belongs to a record. -/
theorem exists_of_at? {outer : String} {rest : List String} (h : v.at? (outer :: name :: rest) = some old) :
    ∃ w, v.get? outer = some w ∧ w.isRecord = true := by
  rw [at?_cons, Option.bind_eq_some_iff] at h
  obtain ⟨w, hw, h⟩ := h
  rw [at?_cons, Option.bind_eq_some_iff] at h
  obtain ⟨_, hname, _⟩ := h
  exact ⟨w, hw, isRecord_of_get? hname⟩

theorem at?_setIn {outer : String} (h : v.at? [outer, name] = some old) :
    (v.setIn outer name value).at? [outer, name] = some value := by
  obtain ⟨w, hw, hrecord⟩ := exists_of_at? h
  rw [at?_cons, setIn, get?_onRecord hw hrecord, Option.bind_some, at?_cons, get?_set hrecord, if_pos rfl]
  rfl

theorem at?_setIn_of_ne {outer outer' key : String} {rest : List String} (h : outer' ≠ outer ∨ key ≠ name) :
    (v.setIn outer name value).at? (outer' :: key :: rest) = v.at? (outer' :: key :: rest) := by
  by_cases houter : outer' = outer
  · subst houter
    rw [at?_cons, at?_cons]
    cases hw : v.get? outer' with
    | none => rw [setIn, onRecord, hw, hw]
    | some w =>
      cases hrecord : w.isRecord with
      | true =>
        rw [setIn, get?_onRecord hw hrecord, Option.bind_some, Option.bind_some,
          at?_set_of_ne (h.resolve_left (absurd rfl))]
      | false =>
        rw [setIn, onRecord, hw]
        dsimp only
        rw [hrecord, if_neg Bool.false_ne_true, hw]
  · rw [at?_cons, at?_cons, get?_setIn_of_ne houter]

theorem setIn_eq_self {outer : String} (h : v.at? [outer, name] = some value) : v.setIn outer name value = v := by
  refine onRecord_eq_self fun w hw hrecord => set_eq_self ?_
  rw [at?_cons, hw, Option.bind_some, at?_cons, Option.bind_eq_some_iff] at h
  obtain ⟨old, hold, h⟩ := h
  rw [hold]
  exact h

/-- What is done to a record keeps what it keeps of that record. -/
theorem at?_onRecord {rest : List String} (h : v.at? (key :: rest) = some old)
    (hf : ∀ w, key = name → w.isRecord = true → w.at? rest = some old → (f w).at? rest = some old) :
    (v.onRecord name f).at? (key :: rest) = some old := by
  rw [onRecord]
  split
  · next w hw =>
    split
    · next hrecord =>
      by_cases hne : key = name
      · subst hne
        rw [at?_cons, hw, Option.bind_some] at h
        rw [at?_cons, get?_set (isRecord_of_get? hw), if_pos rfl]
        exact hf w rfl hrecord h
      · rw [at?_set_of_ne hne]
        exact h
    · exact h
  · exact h

end HuntWarden.Json
