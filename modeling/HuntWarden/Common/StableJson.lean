import HuntWarden.Lib.JsonDump
import HuntWarden.Lib.PropertyOrder
import Mathlib.Data.Rat.Encodable

/-! `stableJson` and `digestObject`: the text of a value whose records are rebuilt from their sorted
    entries. Digests of arguments, requests and idempotency keys are digests of this text, so it should
    be the same for one value however its records were set up, and another one for every other value.
    How a number is written and how names are compared belongs to the language runtime. -/

namespace HuntWarden.StableJson

open PropertyOrder

def isNumberChar (ch : Char) : Bool :=
  ch.isDigit || decide (ch ∈ ['-', '+', '.', 'e'])

/-- How numbers are written: different numbers differently. -/
structure NumberText where
  write : ℚ → List Char
  injective : Function.Injective write
  nonempty : ∀ q, write q ≠ []
  chars : ∀ q, ∀ ch ∈ write q, isNumberChar ch = true

variable (c : Collation) (numbers : NumberText)

/-! ### The functions -/

mutual
/-- `stable`. The sort looks at names only, so the values may be made stable before it. -/
def stable : Json → Json
  | .arr items => .arr (stableItems items)
  | .obj fields => .obj (sortNames c (ownProperties (stableFields fields)))
  | value => value

def stableItems : List Json → List Json
  | [] => []
  | item :: items => stable item :: stableItems items

def stableFields : List (String × Json) → List (String × Json)
  | [] => []
  | (name, value) :: fields => (name, stable value) :: stableFields fields
end

def quote (text : String) : List Char :=
  '"' :: (text.toList.flatMap (fun ch => JsonText.jsEscape ch.toNat) ++ ['"'])

def member (field : String × List Char) : List Char := quote field.1 ++ ':' :: field.2

mutual
/-- `JSON.stringify`. -/
def stringify : Json → List Char
  | .null => "null".toList
  | .bool true => "true".toList
  | .bool false => "false".toList
  | .num q => numbers.write q
  | .str s => quote s
  | .arr items => '[' :: (JsonDump.joined [','] (stringifyItems items) ++ [']'])
  | .obj fields =>
    '{' :: (JsonDump.joined [','] ((ownProperties (stringifyFields fields)).map member) ++ ['}'])

def stringifyItems : List Json → List (List Char)
  | [] => []
  | item :: items => stringify item :: stringifyItems items

def stringifyFields : List (String × Json) → List (String × List Char)
  | [] => []
  | (name, value) :: fields => (name, stringify value) :: stringifyFields fields
end

def stableJson (value : Json) : List Char := stringify numbers (stable c value)

/-- `sha256Text`: of the text, by a hash that no two texts share. -/
structure Hash where
  sha256 : List Char → String
  injective : Function.Injective sha256

def digestObject (hash : Hash) (value : Json) : String := hash.sha256 (stableJson c numbers value)

/-! ### Values and their records -/

/-- Over a value, with the hypothesis for each part. -/
theorem json_induction {P : Json → Prop} (hnull : P .null) (hbool : ∀ b, P (.bool b))
    (hnum : ∀ q, P (.num q)) (hstr : ∀ s, P (.str s))
    (harr : ∀ items, (∀ item ∈ items, P item) → P (.arr items))
    (hobj : ∀ fields : List (String × Json), (∀ field ∈ fields, P field.2) → P (.obj fields)) :
    ∀ value, P value
  | .null => hnull
  | .bool b => hbool b
  | .num q => hnum q
  | .str s => hstr s
  | .arr items => harr items fun item _ => json_induction hnull hbool hnum hstr harr hobj item
  | .obj fields => hobj fields fun field hmem => by
      have := List.sizeOf_lt_of_mem hmem
      have : sizeOf field.2 < sizeOf field := by
        obtain ⟨name, value⟩ := field
        simp only [Prod.mk.sizeOf_spec]
        omega
      exact json_induction hnull hbool hnum hstr harr hobj field.2

mutual
/-- Something holds of the names of every record in the value. -/
def AllNames (P : List String → Prop) : Json → Prop
  | .arr items => AllNamesItems P items
  | .obj fields => P (fields.map Prod.fst) ∧ AllNamesFields P fields
  | _ => True

def AllNamesItems (P : List String → Prop) : List Json → Prop
  | [] => True
  | item :: items => AllNames P item ∧ AllNamesItems P items

def AllNamesFields (P : List String → Prop) : List (String × Json) → Prop
  | [] => True
  | (_, value) :: fields => AllNames P value ∧ AllNamesFields P fields
end

/-- No record has a name twice. -/
def WellFormed (value : Json) : Prop := AllNames List.Nodup value

/-- No record has two names that the comparison takes for one and that are no array indices. -/
def Separated (value : Json) : Prop := AllNames (NoTies c) value

mutual
/-- One value, up to the order of the names in its records. -/
def Same : Json → Json → Prop
  | .arr xs, .arr ys => SameItems xs ys
  | .obj fields, .obj fields' => fields.length = fields'.length ∧ SameFields fields fields'
  | value, value' => value = value'

def SameItems : List Json → List Json → Prop
  | [], [] => True
  | x :: xs, y :: ys => Same x y ∧ SameItems xs ys
  | _, _ => False

/-- Every field has its match. -/
def SameFields : List (String × Json) → List (String × Json) → Prop
  | [], _ => True
  | (name, value) :: fields, fields' =>
    (∃ value', (name, value') ∈ fields' ∧ Same value value') ∧ SameFields fields fields'
end

variable {c numbers} {P : List String → Prop}

theorem allNames_arr {items : List Json} :
    AllNames P (.arr items) ↔ ∀ item ∈ items, AllNames P item := by
  rw [AllNames]
  induction items with
  | nil => simp [AllNamesItems]
  | cons item items ih => rw [AllNamesItems, ih, List.forall_mem_cons]

theorem allNames_obj {fields : List (String × Json)} :
    AllNames P (.obj fields) ↔ P (fields.map Prod.fst) ∧ ∀ field ∈ fields, AllNames P field.2 := by
  rw [AllNames]
  refine and_congr_right fun h => ?_
  clear h
  induction fields with
  | nil => simp [AllNamesFields]
  | cons field fields ih => rw [AllNamesFields, ih, List.forall_mem_cons]

theorem same_arr {xs ys : List Json} : Same (.arr xs) (.arr ys) ↔ List.Forall₂ Same xs ys := by
  rw [Same]
  induction xs generalizing ys with
  | nil => cases ys <;> simp [SameItems]
  | cons x xs ih => cases ys <;> simp [SameItems, ih]

theorem same_obj {fields fields' : List (String × Json)} :
    Same (.obj fields) (.obj fields') ↔ fields.length = fields'.length ∧
      ∀ field ∈ fields, ∃ value', (field.1, value') ∈ fields' ∧ Same field.2 value' := by
  rw [Same]
  refine and_congr_right fun _ => ?_
  clear * -
  induction fields with
  | nil => simp [SameFields]
  | cons field fields ih => rw [SameFields, ih, List.forall_mem_cons]

theorem Same.refl (value : Json) : Same value value := by
  induction value using json_induction with
  | harr items ih => exact same_arr.2 (List.forall₂_same.2 ih)
  | hobj fields ih => exact same_obj.2 ⟨rfl, fun field hfield => ⟨field.2, hfield, ih field hfield⟩⟩
  | _ => rfl

/-- The same fields in another order. -/
theorem same_of_perm {fields fields' : List (String × Json)} (h : fields.Perm fields') :
    Same (.obj fields) (.obj fields') :=
  same_obj.2 ⟨h.length_eq, fun field hfield => ⟨field.2, h.mem_iff.1 hfield, Same.refl _⟩⟩

/-! ### The text of a value, by its parts -/

theorem stableItems_eq (items : List Json) : stableItems c items = items.map (stable c) := by
  induction items with
  | nil => rfl
  | cons item items ih => rw [stableItems, ih, List.map_cons]

theorem stableFields_eq (fields : List (String × Json)) :
    stableFields c fields = fields.map (Prod.map id (stable c)) := by
  induction fields with
  | nil => rfl
  | cons field fields ih => rw [stableFields, ih]; rfl

theorem stringifyItems_eq (items : List Json) :
    stringifyItems numbers items = items.map (stringify numbers) := by
  induction items with
  | nil => rfl
  | cons item items ih => rw [stringifyItems, ih, List.map_cons]

theorem stringifyFields_eq (fields : List (String × Json)) :
    stringifyFields numbers fields = fields.map (Prod.map id (stringify numbers)) := by
  induction fields with
  | nil => rfl
  | cons field fields ih => rw [stringifyFields, ih]; rfl

/-- The fields of a record, each value in its text. -/
def texts (c : Collation) (numbers : NumberText) (fields : List (String × Json)) :
    List (String × List Char) :=
  fields.map (Prod.map id (stableJson c numbers))

theorem stableJson_arr (items : List Json) : stableJson c numbers (.arr items) =
    '[' :: (JsonDump.joined [','] (items.map (stableJson c numbers)) ++ [']']) := by
  rw [stableJson, stable, stringify, stringifyItems_eq, stableItems_eq, List.map_map]
  rfl

theorem stableJson_obj (fields : List (String × Json)) : stableJson c numbers (.obj fields) =
    '{' :: (JsonDump.joined [','] ((canonical c (texts c numbers fields)).map member) ++ ['}']) := by
  have htexts : texts c numbers fields =
      (fields.map (Prod.map id (stable c))).map (Prod.map id (stringify numbers)) := by
    rw [texts, List.map_map]
    rfl
  rw [stableJson, stable, stringify, stringifyFields_eq, stableFields_eq, htexts, canonical_map,
    canonical, ownProperties_map]

/-! ### Reading a text back -/

/-- No number goes on here. -/
def Stops (rest : List Char) : Prop := ∀ ch ∈ rest.head?, isNumberChar ch = false

/-- Two texts are told apart whatever follows them. -/
def Split (text text' : List Char) : Prop :=
  ∀ rest rest', text ++ rest = text' ++ rest' → Stops rest → Stops rest' →
    text = text' ∧ rest = rest'

theorem stops_cons {ch : Char} (h : isNumberChar ch = false) (rest : List Char) :
    Stops (ch :: rest) := by
  rintro _ ⟨⟩
  exact h

/-- Texts of number characters end where the number characters do. -/
theorem split_numbers : ∀ {text text' : List Char}, (∀ ch ∈ text, isNumberChar ch = true) →
    (∀ ch ∈ text', isNumberChar ch = true) → Split text text'
  | [], [], _, _, _, _, h, _, _ => ⟨rfl, h⟩
  | [], ch :: _, _, htext', _, _, h, hrest, _ => by
      have hstop := hrest ch (by rw [List.nil_append] at h; rw [h]; rfl)
      rw [htext' ch List.mem_cons_self] at hstop
      cases hstop
  | ch :: _, [], htext, _, _, _, h, _, hrest' => by
      have hstop := hrest' ch (by rw [List.nil_append] at h; rw [← h]; rfl)
      rw [htext ch List.mem_cons_self] at hstop
      cases hstop
  | ch :: text, ch' :: text', htext, htext', rest, rest', h, hrest, hrest' => by
      obtain ⟨rfl, htail⟩ := List.cons.inj h
      obtain ⟨rfl, hrest⟩ := split_numbers (fun x hx => htext x (List.mem_cons_of_mem _ hx))
        (fun x hx => htext' x (List.mem_cons_of_mem _ hx)) rest rest' htail hrest hrest'
      exact ⟨rfl, hrest⟩

/-- The escape of a character is read back as the character. -/
theorem readPoint_escape (ch : Char) (rest : List Char) :
    JsonText.readPoint (JsonText.jsEscape ch.toNat ++ rest) = some (ch.toNat, rest) := by
  have hvalid : ch.toNat < 0xD800 ∨ 0xDFFF < ch.toNat ∧ ch.toNat < 0x110000 := ch.valid
  have hsurrogate : ¬ JsonText.surrogate ch.toNat = true := by
    rw [JsonText.surrogate_iff]
    omega
  rw [JsonText.jsEscape]
  cases hshort : JsonText.shortEscape ch.toNat with
  | some letter =>
    have hletter := JsonText.shortEscape_some hshort
    generalize ch.toNat = point at hletter ⊢
    simp only [List.mem_cons, Prod.mk.injEq, List.not_mem_nil, or_false] at hletter
    rcases hletter with ⟨rfl, rfl⟩ | ⟨rfl, rfl⟩ | ⟨rfl, rfl⟩ | ⟨rfl, rfl⟩ | ⟨rfl, rfl⟩ |
      ⟨rfl, rfl⟩ | ⟨rfl, rfl⟩ <;> rfl
  | none =>
    dsimp only
    by_cases hcontrol : ch.toNat < 0x20
    · rw [if_pos (Or.inl hcontrol), JsonText.readPoint_hexEscape (by omega)]
    · have hchar : Char.ofNat ch.toNat = ch := Char.ofNat_toNat ch
      rw [if_neg (not_or.2 ⟨hcontrol, hsurrogate⟩), hchar, List.singleton_append,
        JsonText.readPoint_raw]
      · rintro rfl
        exact absurd hshort (by decide)
      · rintro rfl
        exact absurd hshort (by decide)

theorem quote_split {text text' : String} {rest rest' : List Char}
    (h : quote text ++ rest = quote text' ++ rest') : text = text' ∧ rest = rest' := by
  have hlist : ∀ {chs chs' : List Char}, chs.flatMap (fun ch => JsonText.jsEscape ch.toNat) ++
      '"' :: rest = chs'.flatMap (fun ch => JsonText.jsEscape ch.toNat) ++ '"' :: rest' →
        chs = chs' ∧ rest = rest' := by
    intro chs
    induction chs with
    | nil =>
      intro chs' h
      cases chs' with
      | nil => exact ⟨rfl, (List.cons.inj h).2⟩
      | cons ch chs' =>
        have hread := congrArg JsonText.readPoint h
        rw [List.flatMap_cons, List.append_assoc, readPoint_escape] at hread
        cases hread
    | cons ch chs ih =>
      intro chs' h
      cases chs' with
      | nil =>
        have hread := congrArg JsonText.readPoint h
        rw [List.flatMap_cons, List.append_assoc, readPoint_escape] at hread
        cases hread
      | cons ch' chs' =>
        have hread := congrArg JsonText.readPoint h
        rw [List.flatMap_cons, List.append_assoc, List.flatMap_cons, List.append_assoc,
          readPoint_escape, readPoint_escape] at hread
        obtain ⟨hch, hchs⟩ := Prod.mk.inj (Option.some.inj hread)
        obtain ⟨rfl, hrest⟩ := ih hchs
        exact ⟨by rw [Char.toNat_inj.1 hch], hrest⟩
  simp only [quote, List.cons_append, List.append_assoc, List.nil_append, List.cons.injEq,
    true_and] at h
  obtain ⟨hchars, hrest⟩ := hlist h
  exact ⟨String.toList_injective hchars, hrest⟩

theorem member_split {a b : String × List Char} (h : Split a.2 b.2) :
    Split (member a) (member b) := by
  intro rest rest' heq hrest hrest'
  simp only [member, List.append_assoc, List.cons_append] at heq
  obtain ⟨hname, hvalue⟩ := quote_split heq
  obtain ⟨htext, hrest⟩ := h rest rest' (List.cons.inj hvalue).2 hrest hrest'
  exact ⟨by rw [member, member, hname, htext], hrest⟩

/-- Parts between commas, up to the bracket that closes them. -/
theorem joined_split {close : Char} (hclose : close ≠ ',') (hstops : isNumberChar close = false)
    {parts parts' : List (List Char)} (hsplit : ∀ a ∈ parts, ∀ b ∈ parts', Split a b)
    (hparts : ∀ a ∈ parts, ∃ ch rest, a = ch :: rest ∧ ch ≠ close)
    (hparts' : ∀ b ∈ parts', ∃ ch rest, b = ch :: rest ∧ ch ≠ close) {rest rest' : List Char}
    (h : JsonDump.joined [','] parts ++ close :: rest =
      JsonDump.joined [','] parts' ++ close :: rest') :
    parts = parts' ∧ rest = rest' := by
  have htail : ∀ {parts parts' : List (List Char)}, (∀ a ∈ parts, ∀ b ∈ parts', Split a b) →
      parts.flatMap (fun part => [','] ++ part) ++ close :: rest =
        parts'.flatMap (fun part => [','] ++ part) ++ close :: rest' →
      parts = parts' ∧ rest = rest' := by
    intro parts
    induction parts with
    | nil =>
      rintro (_ | ⟨b, parts'⟩) - h
      · exact ⟨rfl, (List.cons.inj h).2⟩
      · exact absurd (List.cons.inj h).1 hclose
    | cons a parts ih =>
      rintro (_ | ⟨b, parts'⟩) hsplit h
      · exact absurd (List.cons.inj h).1.symm hclose
      · simp only [List.flatMap_cons, List.append_assoc, List.cons_append, List.nil_append,
          List.cons.injEq, true_and] at h
        have hstop : ∀ (parts : List (List Char)) (rest : List Char),
            Stops (parts.flatMap (fun part => ',' :: part) ++ close :: rest) := by
          rintro (_ | ⟨part, parts⟩) rest
          · exact stops_cons hstops rest
          · exact stops_cons (by decide) _
        obtain ⟨rfl, hnext⟩ := hsplit a List.mem_cons_self b List.mem_cons_self _ _ h
          (hstop parts rest) (hstop parts' rest')
        obtain ⟨rfl, hrest⟩ := ih (fun x hx y hy =>
          hsplit x (List.mem_cons_of_mem _ hx) y (List.mem_cons_of_mem _ hy)) hnext
        exact ⟨rfl, hrest⟩
  cases parts with
  | nil =>
    cases parts' with
    | nil => exact ⟨rfl, (List.cons.inj h).2⟩
    | cons b parts' =>
      obtain ⟨ch, tail, rfl, hne⟩ := hparts' b List.mem_cons_self
      exact absurd (List.cons.inj h).1.symm hne
  | cons a parts =>
    cases parts' with
    | nil =>
      obtain ⟨ch, tail, rfl, hne⟩ := hparts a List.mem_cons_self
      exact absurd (List.cons.inj h).1 hne
    | cons b parts' =>
      -- a comma before the first part makes the list a tail
      exact htail hsplit (by simpa only [JsonDump.joined, List.flatMap_cons, List.append_assoc,
        List.cons_append, List.nil_append, List.cons.injEq, true_and] using h)

/-- What a value is, as its first character shows. -/
def kindOf : Json → ℕ
  | .null => 0
  | .bool true => 1
  | .bool false => 2
  | .num _ => 3
  | .str _ => 4
  | .arr _ => 5
  | .obj _ => 6

def kindOfChar (ch : Char) : ℕ :=
  if ch = 'n' then 0 else if ch = 't' then 1 else if ch = 'f' then 2 else
  if isNumberChar ch then 3 else if ch = '"' then 4 else if ch = '[' then 5 else
  if ch = '{' then 6 else 7

theorem kindOf_lt (value : Json) : kindOf value < 7 := by
  cases value with
  | bool b => cases b <;> decide
  | _ => rw [kindOf]; decide

theorem kindOfChar_number {ch : Char} (h : isNumberChar ch = true) : kindOfChar ch = 3 := by
  have hne : ∀ other : Char, isNumberChar other = false → ch ≠ other := by
    rintro other hother rfl
    rw [h] at hother
    cases hother
  rw [kindOfChar, if_neg (hne 'n' (by decide)), if_neg (hne 't' (by decide)),
    if_neg (hne 'f' (by decide)), if_pos h]

theorem stableJson_head (value : Json) :
    ∃ ch rest, stableJson c numbers value = ch :: rest ∧ kindOfChar ch = kindOf value := by
  cases value with
  | null => exact ⟨_, _, rfl, by decide⟩
  | bool b => cases b <;> exact ⟨_, _, rfl, by decide⟩
  | num q =>
    obtain ⟨ch, rest, h⟩ := List.exists_cons_of_ne_nil (numbers.nonempty q)
    exact ⟨ch, rest, h, kindOfChar_number (numbers.chars q ch (h ▸ List.mem_cons_self))⟩
  | str s => exact ⟨'"', _, rfl, show kindOfChar '"' = 4 by decide⟩
  | arr items => exact ⟨'[', _, stableJson_arr items, show kindOfChar '[' = 5 by decide⟩
  | obj fields => exact ⟨'{', _, stableJson_obj fields, show kindOfChar '{' = 6 by decide⟩

/-- No text begins with a closing bracket. -/
theorem stableJson_opens (value : Json) :
    ∃ ch rest, stableJson c numbers value = ch :: rest ∧ ch ≠ ']' := by
  obtain ⟨ch, rest, htext, hkind⟩ := @stableJson_head c numbers value
  refine ⟨ch, rest, htext, ?_⟩
  rintro rfl
  have hlt := kindOf_lt value
  rw [← hkind] at hlt
  exact absurd hlt (by decide)

/-- Texts that begin alike are texts of one kind of value. -/
theorem kindOf_eq {value value' : Json} {rest rest' : List Char}
    (h : stableJson c numbers value ++ rest = stableJson c numbers value' ++ rest') :
    kindOf value = kindOf value' := by
  obtain ⟨ch, tail, htext, hkind⟩ := @stableJson_head c numbers value
  obtain ⟨ch', tail', htext', hkind'⟩ := @stableJson_head c numbers value'
  rw [htext, htext'] at h
  rw [← hkind, ← hkind', (List.cons.inj h).1]

/-- The same literal in both places. -/
theorem split_literal {text rest rest' : List Char} (h : text ++ rest = text ++ rest') :
    text = text ∧ rest = rest' :=
  ⟨rfl, List.append_cancel_left h⟩

theorem mem_texts {fields : List (String × Json)} {entry : String × List Char}
    (h : entry ∈ canonical c (texts c numbers fields)) :
    ∃ field ∈ fields, entry = (field.1, stableJson c numbers field.2) := by
  obtain ⟨field, hfield, hentry⟩ := List.mem_map.1 ((perm_canonical c _).mem_iff.1 h)
  exact ⟨field, hfield, hentry.symm⟩

/-- Two lists with one text have the same texts in the same order. -/
theorem arr_split {items items' : List Json} {rest rest' : List Char}
    (hsplit : ∀ item ∈ items, ∀ item',
      Split (stableJson c numbers item) (stableJson c numbers item'))
    (h : stableJson c numbers (.arr items) ++ rest = stableJson c numbers (.arr items') ++ rest') :
    items.map (stableJson c numbers) = items'.map (stableJson c numbers) ∧ rest = rest' := by
  simp only [stableJson_arr, List.cons_append, List.append_assoc, List.nil_append,
    List.cons.injEq, true_and] at h
  have hopens : ∀ items : List Json, ∀ a ∈ items.map (stableJson c numbers),
      ∃ ch rest, a = ch :: rest ∧ ch ≠ ']' := by
    intro items a ha
    obtain ⟨item, -, rfl⟩ := List.mem_map.1 ha
    exact stableJson_opens item
  refine joined_split (by decide) (by decide) ?_ (hopens items) (hopens items') h
  intro a ha b hb
  obtain ⟨item, hitem, rfl⟩ := List.mem_map.1 ha
  obtain ⟨item', -, rfl⟩ := List.mem_map.1 hb
  exact hsplit item hitem item'

/-- Two records with one text have the same members in the same order. -/
theorem obj_split {fields fields' : List (String × Json)} {rest rest' : List Char}
    (hsplit : ∀ field ∈ fields, ∀ value',
      Split (stableJson c numbers field.2) (stableJson c numbers value'))
    (h : stableJson c numbers (.obj fields) ++ rest =
      stableJson c numbers (.obj fields') ++ rest') :
    (canonical c (texts c numbers fields)).map member =
      (canonical c (texts c numbers fields')).map member ∧ rest = rest' := by
  simp only [stableJson_obj, List.cons_append, List.append_assoc, List.nil_append,
    List.cons.injEq, true_and] at h
  have hopens : ∀ entries : List (String × List Char), ∀ a ∈ entries.map member,
      ∃ ch rest, a = ch :: rest ∧ ch ≠ '\x7d' := by
    intro entries a ha
    obtain ⟨entry, -, rfl⟩ := List.mem_map.1 ha
    exact ⟨'"', _, rfl, by decide⟩
  refine joined_split (by decide) (by decide) ?_ (hopens _) (hopens _) h
  intro a ha b hb
  obtain ⟨entry, hentry, rfl⟩ := List.mem_map.1 ha
  obtain ⟨entry', hentry', rfl⟩ := List.mem_map.1 hb
  obtain ⟨field, hfield, rfl⟩ := mem_texts hentry
  obtain ⟨field', -, rfl⟩ := mem_texts hentry'
  exact member_split (hsplit field hfield field'.2)

/-- The text of a value is told apart from every other, and split off what follows it. -/
theorem split_stableJson (value value' : Json) :
    Split (stableJson c numbers value) (stableJson c numbers value') := by
  induction value using json_induction generalizing value' with
  | hnull =>
    intro rest rest' h _ _
    have hkind := kindOf_eq h
    cases value' with
    | null => exact split_literal h
    | bool b => cases b <;> simp [kindOf] at hkind
    | _ => simp [kindOf] at hkind
  | hbool b =>
    intro rest rest' h _ _
    have hkind := kindOf_eq h
    cases value' with
    | bool b' =>
      cases b <;> cases b' <;> first | exact split_literal h | simp [kindOf] at hkind
    | _ => cases b <;> simp [kindOf] at hkind
  | hnum q =>
    intro rest rest' h hrest hrest'
    have hkind := kindOf_eq h
    cases value' with
    | num q' => exact split_numbers (numbers.chars q) (numbers.chars q') rest rest' h hrest hrest'
    | bool b => cases b <;> simp [kindOf] at hkind
    | _ => simp [kindOf] at hkind
  | hstr s =>
    intro rest rest' h _ _
    have hkind := kindOf_eq h
    cases value' with
    | str s' =>
      obtain ⟨rfl, hrest⟩ := quote_split h
      exact ⟨rfl, hrest⟩
    | bool b => cases b <;> simp [kindOf] at hkind
    | _ => simp [kindOf] at hkind
  | harr items ih =>
    intro rest rest' h _ _
    have hkind := kindOf_eq h
    cases value' with
    | arr items' =>
      obtain ⟨hparts, hrest⟩ := arr_split ih h
      exact ⟨by rw [stableJson_arr, stableJson_arr, hparts], hrest⟩
    | bool b => cases b <;> simp [kindOf] at hkind
    | _ => simp [kindOf] at hkind
  | hobj fields ih =>
    intro rest rest' h _ _
    have hkind := kindOf_eq h
    cases value' with
    | obj fields' =>
      obtain ⟨hparts, hrest⟩ := obj_split ih h
      exact ⟨by rw [stableJson_obj, stableJson_obj, hparts], hrest⟩
    | bool b => cases b <;> simp [kindOf] at hkind
    | _ => simp [kindOf] at hkind

theorem texts_of_arr {items items' : List Json}
    (h : stableJson c numbers (.arr items) = stableJson c numbers (.arr items')) :
    items.map (stableJson c numbers) = items'.map (stableJson c numbers) :=
  (arr_split (fun item _ => split_stableJson item) (congrArg (· ++ []) h)).1

theorem member_injective : Function.Injective member := by
  intro a b h
  obtain ⟨hname, hvalue⟩ := quote_split h
  exact Prod.ext hname (List.cons.inj hvalue).2

theorem texts_of_obj {fields fields' : List (String × Json)}
    (h : stableJson c numbers (.obj fields) = stableJson c numbers (.obj fields')) :
    canonical c (texts c numbers fields) = canonical c (texts c numbers fields') :=
  List.map_injective_iff.2 member_injective
    (obj_split (fun field _ => split_stableJson field.2) (congrArg (· ++ []) h)).1

/-! ### One text, one value -/

theorem names_texts (fields : List (String × Json)) :
    (texts c numbers fields).map Prod.fst = fields.map Prod.fst := by
  rw [texts, List.map_map]
  rfl

theorem texts_of_perm {fields fields' : List (String × Json)}
    (h : stableJson c numbers (.obj fields) = stableJson c numbers (.obj fields')) :
    (texts c numbers fields).Perm (texts c numbers fields') :=
  (perm_canonical c _).symm.trans ((texts_of_obj h) ▸ perm_canonical c _)

theorem length_texts (fields : List (String × Json)) :
    (texts c numbers fields).length = fields.length := List.length_map _

theorem kindOf_eq_of_stableJson {value value' : Json}
    (h : stableJson c numbers value = stableJson c numbers value') : kindOf value = kindOf value' :=
  kindOf_eq (congrArg (· ++ []) h)

/-- Values with one text are one value, up to the order of names. -/
theorem same_of_stableJson {value value' : Json}
    (h : stableJson c numbers value = stableJson c numbers value') : Same value value' := by
  induction value using json_induction generalizing value' with
  | hnull =>
    have hkind := kindOf_eq_of_stableJson h
    cases value' with
    | null => rfl
    | bool b => cases b <;> simp [kindOf] at hkind
    | _ => simp [kindOf] at hkind
  | hbool b =>
    have hkind := kindOf_eq_of_stableJson h
    cases value' with
    | bool b' => cases b <;> cases b' <;> first | rfl | simp [kindOf] at hkind
    | _ => cases b <;> simp [kindOf] at hkind
  | hnum q =>
    have hkind := kindOf_eq_of_stableJson h
    cases value' with
    | num q' => exact congrArg Json.num (numbers.injective h)
    | bool b => cases b <;> simp [kindOf] at hkind
    | _ => simp [kindOf] at hkind
  | hstr s =>
    have hkind := kindOf_eq_of_stableJson h
    cases value' with
    | str s' => exact congrArg Json.str (quote_split (congrArg (· ++ []) h)).1
    | bool b => cases b <;> simp [kindOf] at hkind
    | _ => simp [kindOf] at hkind
  | harr items ih =>
    have hkind := kindOf_eq_of_stableJson h
    cases value' with
    | arr items' =>
      have htexts := texts_of_arr h
      clear h hkind
      rw [same_arr]
      induction items generalizing items' with
      | nil => rw [List.map_eq_nil_iff.1 htexts.symm]; exact .nil
      | cons item items ihitems =>
        cases items' with
        | nil => cases htexts
        | cons item' items' =>
          obtain ⟨hitem, hitems⟩ := List.cons.inj htexts
          exact .cons (ih item List.mem_cons_self hitem)
            (ihitems (fun x hx => ih x (List.mem_cons_of_mem _ hx)) _ hitems)
    | bool b => cases b <;> simp [kindOf] at hkind
    | _ => simp [kindOf] at hkind
  | hobj fields ih =>
    have hkind := kindOf_eq_of_stableJson h
    cases value' with
    | obj fields' =>
      have hperm := texts_of_perm h
      have hlength := hperm.length_eq
      rw [length_texts, length_texts] at hlength
      refine same_obj.2 ⟨hlength, fun field hfield => ?_⟩
      obtain ⟨field', hfield', htext⟩ :=
        List.mem_map.1 (hperm.mem_iff.1 (List.mem_map_of_mem hfield))
      obtain ⟨hname, hvalue⟩ := Prod.mk.inj htext
      exact ⟨field'.2, by rw [← show field'.1 = field.1 from hname]; exact hfield',
        ih field hfield hvalue.symm⟩
    | bool b => cases b <;> simp [kindOf] at hkind
    | _ => simp [kindOf] at hkind

/-! ### One value, one text -/

theorem nodup_texts {fields : List (String × Json)} (h : (fields.map Prod.fst).Nodup) :
    (texts c numbers fields).Nodup :=
  List.Nodup.of_map Prod.fst (by rw [names_texts]; exact h)

theorem map_eq_of_forall₂ {α β : Type} {R : α → α → Prop} {f : α → β} {xs ys : List α}
    (h : List.Forall₂ R xs ys) (hf : ∀ x ∈ xs, ∀ y ∈ ys, R x y → f y = f x) :
    ys.map f = xs.map f := by
  induction h with
  | nil => rfl
  | cons hxy _ ih =>
    rw [List.map_cons, List.map_cons, hf _ List.mem_cons_self _ List.mem_cons_self hxy,
      ih fun x hx y hy => hf x (List.mem_cons_of_mem _ hx) y (List.mem_cons_of_mem _ hy)]

/-- Where the comparison tells all names apart, the order in which they were set does not show. -/
theorem stableJson_of_same {value value' : Json} (hvalue : WellFormed value)
    (hvalue' : WellFormed value') (hseparated : Separated c value) (h : Same value value') :
    stableJson c numbers value' = stableJson c numbers value := by
  induction value using json_induction generalizing value' with
  | harr items ih =>
    cases value' with
    | arr items' =>
      have hitems := map_eq_of_forall₂ (same_arr.1 h) fun item hitem item' hitem' hsame =>
        ih item hitem (allNames_arr.1 hvalue item hitem) (allNames_arr.1 hvalue' item' hitem')
          (allNames_arr.1 hseparated item hitem) hsame
      rw [stableJson_arr, stableJson_arr, hitems]
    | _ => cases h
  | hobj fields ih =>
    cases value' with
    | obj fields' =>
      obtain ⟨hlength, hmatch⟩ := same_obj.1 h
      obtain ⟨hnodup, hfields⟩ := allNames_obj.1 hvalue
      obtain ⟨hnodup', hfields'⟩ := allNames_obj.1 hvalue'
      obtain ⟨hties, hseparated⟩ := allNames_obj.1 hseparated
      have hsubset : texts c numbers fields ⊆ texts c numbers fields' := by
        intro entry hentry
        obtain ⟨field, hfield, rfl⟩ := List.mem_map.1 hentry
        obtain ⟨value', hmem, hsame⟩ := hmatch field hfield
        have htext := ih field hfield (hfields field hfield) (hfields' _ hmem)
          (hseparated field hfield) hsame
        refine List.mem_map.2 ⟨_, hmem, ?_⟩
        exact Prod.ext rfl htext
      have hperm : (texts c numbers fields).Perm (texts c numbers fields') :=
        (List.subperm_of_subset (nodup_texts hnodup) hsubset).perm_of_length_le
          (by rw [length_texts, length_texts, hlength])
      have hcanonical := canonical_eq_of_perm (c := c) hperm (by rw [names_texts]; exact hnodup)
        (by rw [names_texts]; exact hties)
      rw [stableJson_obj, stableJson_obj, hcanonical]
    | _ => cases h
  | _ =>
    cases value' with
    | _ => cases h <;> rfl

/-! ### Names the comparison takes for one -/

/-- Two members of a list without repetitions stand in one order only. -/
theorem eq_of_sublists {α : Type} {a b : α} {l : List α} (hnodup : l.Nodup)
    (hab : [a, b].Sublist l) (hba : [b, a].Sublist l) : a = b := by
  induction l with
  | nil => cases hab
  | cons x l ih =>
    obtain ⟨hx, hl⟩ := List.nodup_cons.1 hnodup
    cases hab with
    | cons _ hab' =>
      cases hba with
      | cons _ hba' => exact ih hl hab' hba'
      | cons_cons _ hba' => exact absurd (hab'.subset (by simp)) hx
    | cons_cons _ hab' =>
      cases hba with
      | cons _ hba' => exact absurd (hba'.subset (by simp)) hx
      | cons_cons _ hba' => rfl

theorem exists_perm_of_ne {α : Type} {a b : α} {l : List α} (ha : a ∈ l) (hb : b ∈ l)
    (hne : a ≠ b) : ∃ rest, l.Perm (a :: b :: rest) := by
  obtain ⟨pre, post, rfl⟩ := List.append_of_mem ha
  have hperm : (pre ++ a :: post).Perm (a :: (pre ++ post)) := List.perm_middle
  obtain hb' := (List.mem_cons.1 (hperm.mem_iff.1 hb)).resolve_left (Ne.symm hne)
  obtain ⟨pre', post', hsplit⟩ := List.append_of_mem hb'
  refine ⟨pre' ++ post', hperm.trans (List.Perm.cons a ?_)⟩
  rw [hsplit]
  exact List.perm_middle

theorem wellFormed_of_perm {fields fields' : List (String × Json)} (h : fields.Perm fields')
    (hwf : WellFormed (.obj fields)) : WellFormed (.obj fields') := by
  obtain ⟨hnodup, hfields⟩ := allNames_obj.1 hwf
  exact allNames_obj.2 ⟨(h.map Prod.fst).nodup_iff.1 hnodup, fun field hfield =>
    hfields field (h.mem_iff.2 hfield)⟩

/-- Two names that tie keep the order in which they were set, and the text shows it. -/
theorem exists_other_text_of_tie {fields : List (String × Json)}
    (hwf : WellFormed (.obj fields)) (hties : ¬ NoTies c (fields.map Prod.fst)) :
    ∃ value', WellFormed value' ∧ Same (.obj fields) value' ∧
      stableJson c numbers value' ≠ stableJson c numbers (.obj fields) := by
  simp only [NoTies, not_forall, not_not] at hties
  obtain ⟨name, hname, name', hname', hne, hindex, hindex', htie⟩ := hties
  obtain ⟨a, ha, rfl⟩ := List.mem_map.1 hname
  obtain ⟨b, hb, rfl⟩ := List.mem_map.1 hname'
  have hab : a ≠ b := fun h => hne (congrArg Prod.fst h)
  obtain ⟨rest, hperm⟩ := exists_perm_of_ne ha hb hab
  have hperm' : fields.Perm (b :: a :: rest) := hperm.trans (List.Perm.swap b a rest)
  by_contra hall
  have hone : ∀ {fields' : List (String × Json)}, fields.Perm fields' →
      stableJson c numbers (.obj fields') = stableJson c numbers (.obj fields) := by
    intro fields' h
    by_contra hother
    exact hall ⟨.obj fields', wellFormed_of_perm h hwf, same_of_perm h, hother⟩
  have hcanonical := texts_of_obj ((hone hperm).trans (hone hperm').symm)
  have htext : ∀ {x y : String × Json}, [x, y].Sublist (x :: y :: rest) →
      index? x.1 = none → index? y.1 = none → c.localeCompare x.1 y.1 = .eq →
      [(x.1, stableJson c numbers x.2), (y.1, stableJson c numbers y.2)].Sublist
        (canonical c (texts c numbers (x :: y :: rest))) := fun hsub hx hy hxy =>
    tie_sublist (hsub.map (Prod.map id (stableJson c numbers))) hx hy hxy
  have hpair : ∀ x y : String × Json, [x, y].Sublist (x :: y :: rest) := fun x y =>
    List.sublist_append_left [x, y] rest
  have hnodup : (canonical c (texts c numbers (a :: b :: rest))).Nodup :=
    (perm_canonical c _).nodup_iff.2
      (nodup_texts (allNames_obj.1 (wellFormed_of_perm hperm hwf)).1)
  have htie' : c.localeCompare b.1 a.1 = .eq := by
    rw [← c.swap a.1 b.1, htie]
    rfl
  have hforward := htext (hpair a b) hindex hindex' htie
  have hbackward := htext (hpair b a) hindex' hindex htie'
  rw [← hcanonical] at hbackward
  have heq := eq_of_sublists hnodup hforward hbackward
  exact hne (Prod.mk.inj heq).1

/-- Where the comparison takes two names for one, the value has another text as well. -/
theorem exists_other_text {value : Json} (hwf : WellFormed value)
    (hseparated : ¬ Separated c value) :
    ∃ value', WellFormed value' ∧ Same value value' ∧
      stableJson c numbers value' ≠ stableJson c numbers value := by
  induction value using json_induction with
  | harr items ih =>
    have hbad : ∃ item ∈ items, ¬ Separated c item := by
      by_contra hall
      exact hseparated (allNames_arr.2 fun item hitem => by
        by_contra hitem'
        exact hall ⟨item, hitem, hitem'⟩)
    obtain ⟨item, hitem, hitem'⟩ := hbad
    obtain ⟨other, hother, hsame, htext⟩ := ih item hitem (allNames_arr.1 hwf item hitem) hitem'
    obtain ⟨pre, post, rfl⟩ := List.append_of_mem hitem
    refine ⟨.arr (pre ++ other :: post), allNames_arr.2 ?_, same_arr.2 ?_, fun h => htext ?_⟩
    · intro x hx
      rcases List.mem_append.1 hx with hx | hx
      · exact allNames_arr.1 hwf x (List.mem_append_left _ hx)
      · rcases List.mem_cons.1 hx with rfl | hx
        · exact hother
        · exact allNames_arr.1 hwf x (List.mem_append_right _ (List.mem_cons_of_mem _ hx))
    · exact List.rel_append (List.forall₂_same.2 fun x _ => Same.refl x)
        (.cons hsame (List.forall₂_same.2 fun x _ => Same.refl x))
    · have htexts := texts_of_arr h
      rw [List.map_append, List.map_append] at htexts
      exact (List.cons.inj (List.append_cancel_left htexts)).1
  | hobj fields ih =>
    by_cases hties : NoTies c (fields.map Prod.fst)
    · have hbad : ∃ field ∈ fields, ¬ Separated c field.2 := by
        by_contra hall
        exact hseparated (allNames_obj.2 ⟨hties, fun field hfield => by
          by_contra hfield'
          exact hall ⟨field, hfield, hfield'⟩⟩)
      obtain ⟨field, hfield, hfield'⟩ := hbad
      obtain ⟨hnodup, hfields⟩ := allNames_obj.1 hwf
      obtain ⟨other, hother, hsame, htext⟩ := ih field hfield (hfields field hfield) hfield'
      obtain ⟨pre, post, rfl⟩ := List.append_of_mem hfield
      have hnames : (pre ++ (field.1, other) :: post).map Prod.fst =
          (pre ++ field :: post).map Prod.fst := by simp
      refine ⟨.obj (pre ++ (field.1, other) :: post), allNames_obj.2 ⟨hnames ▸ hnodup, ?_⟩,
        same_obj.2 ⟨by simp, ?_⟩, fun h => htext ?_⟩
      · intro x hx
        rcases List.mem_append.1 hx with hx | hx
        · exact hfields x (List.mem_append_left _ hx)
        · rcases List.mem_cons.1 hx with rfl | hx
          · exact hother
          · exact hfields x (List.mem_append_right _ (List.mem_cons_of_mem _ hx))
      · intro x hx
        rcases List.mem_append.1 hx with hx | hx
        · exact ⟨x.2, List.mem_append_left _ hx, Same.refl _⟩
        · rcases List.mem_cons.1 hx with rfl | hx
          · exact ⟨other, List.mem_append_right _ List.mem_cons_self, hsame⟩
          · exact ⟨x.2, List.mem_append_right _ (List.mem_cons_of_mem _ hx), Same.refl _⟩
      · -- the two records have the same names, so the member of each name is the same
        have hperm := texts_of_perm h
        have hnodup' : ((texts c numbers (pre ++ field :: post)).map Prod.fst).Nodup := by
          rw [names_texts]
          exact hnodup
        have hmem : (field.1, stableJson c numbers other) ∈
            texts c numbers (pre ++ field :: post) :=
          hperm.mem_iff.1 (List.mem_map.2 ⟨(field.1, other), by simp, rfl⟩)
        have hmem' : (field.1, stableJson c numbers field.2) ∈
            texts c numbers (pre ++ field :: post) :=
          List.mem_map.2 ⟨field, by simp, rfl⟩
        exact congrArg Prod.snd (eq_of_name hnodup' hmem hmem' rfl)
    · exact exists_other_text_of_tie hwf hties
  | _ => exact absurd trivial hseparated

/-! ### What a digest identifies -/

/-- A value as a program can hold it. -/
structure JsonValue where
  json : Json
  wellFormed : WellFormed json

/-- The text never confuses two values; it is the same for all orders of the names exactly when the
    comparison tells the names of each record apart, and exactly then a digest identifies the value. -/
theorem digestObject_identifies_iff (c : Collation) (numbers : NumberText) (hash : Hash)
    (value : JsonValue) :
    (∀ value' : JsonValue,
      stableJson c numbers value'.json = stableJson c numbers value.json →
        Same value.json value'.json) ∧
    ((∀ value' : JsonValue, Same value.json value'.json →
        stableJson c numbers value'.json = stableJson c numbers value.json) ↔
      Separated c value.json) ∧
    ((∀ value' : JsonValue, digestObject c numbers hash value'.json =
        digestObject c numbers hash value.json ↔ Same value.json value'.json) ↔
      Separated c value.json) := by
  have hinvariant : (∀ value' : JsonValue, Same value.json value'.json →
      stableJson c numbers value'.json = stableJson c numbers value.json) ↔
        Separated c value.json := by
    constructor
    · intro h
      by_contra hseparated
      obtain ⟨value', hwf, hsame, htext⟩ :=
        @exists_other_text c numbers _ value.wellFormed hseparated
      exact htext (h ⟨value', hwf⟩ hsame)
    · intro hseparated value' hsame
      exact stableJson_of_same value.wellFormed value'.wellFormed hseparated hsame
  refine ⟨fun value' h => same_of_stableJson h.symm, hinvariant, ?_⟩
  rw [← hinvariant]
  refine forall_congr' fun value' => ?_
  rw [digestObject, digestObject, hash.injective.eq_iff]
  exact ⟨fun h => h.2, fun h => ⟨fun htext => same_of_stableJson htext.symm, h⟩⟩

/-! ### Two ways to write one letter -/

/-- A comparison as the language requires it: a letter with an accent is the letter and the accent. -/
def accentCollation : Collation where
  localeCompare a b := cmp (decomposed a) (decomposed b)
  swap _ _ := cmp_swap _ _
  trans h h' := Js.cmp_ne_gt.2 ((Js.cmp_ne_gt.1 h).trans (Js.cmp_ne_gt.1 h'))
where
  decomposed (text : String) : List ℕ :=
    text.toList.flatMap fun ch => if ch = 'é' then [0x65, 0x301] else [ch.toNat]

/-- A runtime whose numbers play no part. -/
def tallyNumbers : NumberText where
  write q := List.replicate (Encodable.encode q + 1) '1'
  injective q q' h := by
    have hlength := congrArg List.length h
    simp only [List.length_replicate, Nat.add_right_cancel_iff] at hlength
    exact Encodable.encode_injective hlength
  nonempty q := by simp
  chars q ch h := by
    obtain ⟨-, rfl⟩ := List.mem_replicate.1 h
    decide

def composedFirst : Json := .obj [("é", .bool true), ("e\u0301", .bool false)]

def decomposedFirst : Json := .obj [("e\u0301", .bool false), ("é", .bool true)]

theorem stableJson_not_invariant : Same composedFirst decomposedFirst ∧
    stableJson accentCollation tallyNumbers composedFirst ≠
      stableJson accentCollation tallyNumbers decomposedFirst :=
  ⟨same_of_perm (List.Perm.swap _ _ _), by decide⟩

end HuntWarden.StableJson
