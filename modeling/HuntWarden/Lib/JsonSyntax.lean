import Mathlib.Data.List.Basic
import Mathlib.Data.Nat.Notation

/-! The syntax of JSON over code units, as a reader: blanks, the three words, numbers by their grammar,
    texts with their escapes, arrays and objects. Of two members of one name the later one counts. What
    a number's text means is left open. -/

namespace HuntWarden.JsonSyntax

/-- A text, by its code units. -/
abbrev Units := List ℕ

inductive JsonTree (ν : Type) where
  | null
  | boolean (value : Bool)
  | number (value : ν)
  | text (units : Units)
  | array (items : List (JsonTree ν))
  | object (members : List (Units × JsonTree ν))

def units (text : String) : Units := text.toList.map Char.toNat

def isBlank (unit : ℕ) : Bool := unit = 0x20 || unit = 0x09 || unit = 0x0A || unit = 0x0D

def skipBlanks (text : Units) : Units := text.dropWhile isBlank

/-! ### Numbers -/

def isDigit (unit : ℕ) : Bool := 0x30 ≤ unit && unit ≤ 0x39

/-- Some digits, as many as there are. -/
def digits (text : Units) : Option (Units × Units) :=
  if (text.takeWhile isDigit).isEmpty then none else some (text.takeWhile isDigit, text.dropWhile isDigit)

/-- A zero, or digits that start with no zero. -/
def integerPart (text : Units) : Option (Units × Units) :=
  match text with
  | 0x30 :: rest => some ([0x30], rest)
  | text => digits text

def sign (text : Units) : Units × Units :=
  match text with
  | 0x2D :: rest => ([0x2D], rest)
  | text => ([], text)

/-- A point and digits, or nothing. -/
def fraction (text : Units) : Option (Units × Units) :=
  match text with
  | 0x2E :: rest => (digits rest).map fun read => (0x2E :: read.1, read.2)
  | text => some ([], text)

def exponentSign (text : Units) : Units × Units :=
  match text with
  | 0x2B :: rest => ([0x2B], rest)
  | text => sign text

/-- An `e`, perhaps a sign, and digits, or nothing. -/
def exponent (text : Units) : Option (Units × Units) :=
  match text with
  | unit :: rest =>
    if unit = 0x65 ∨ unit = 0x45 then
      (digits (exponentSign rest).2).map fun read => (unit :: ((exponentSign rest).1 ++ read.1), read.2)
    else some ([], text)
  | [] => some ([], [])

/-- The text of a number, as far as it goes. -/
def number (text : Units) : Option (Units × Units) := do
  let whole ← integerPart (sign text).2
  let part ← fraction whole.2
  let power ← exponent part.2
  return ((sign text).1 ++ whole.1 ++ part.1 ++ power.1, power.2)

/-! ### Texts -/

def hexValue? (unit : ℕ) : Option ℕ :=
  if 0x30 ≤ unit ∧ unit ≤ 0x39 then some (unit - 0x30)
  else if 0x61 ≤ unit ∧ unit ≤ 0x66 then some (unit - 0x57)
  else if 0x41 ≤ unit ∧ unit ≤ 0x46 then some (unit - 0x37)
  else none

/-- The unit that an escape of one letter stands for. -/
def escaped? (letter : ℕ) : Option ℕ :=
  if letter = 0x22 ∨ letter = 0x5C ∨ letter = 0x2F then some letter
  else if letter = 0x62 then some 0x08
  else if letter = 0x66 then some 0x0C
  else if letter = 0x6E then some 0x0A
  else if letter = 0x72 then some 0x0D
  else if letter = 0x74 then some 0x09
  else none

/-- A text behind its opening quotation mark. -/
def textBody : Units → Option (Units × Units)
  | [] => none
  | unit :: rest =>
    if unit = 0x22 then some ([], rest)
    else if unit = 0x5C then
      match rest with
      | [] => none
      | letter :: rest =>
        if letter = 0x75 then
          match rest with
          | a :: b :: c :: d :: rest => do
            let unit := (← hexValue? a) * 0x1000 + (← hexValue? b) * 0x100 + (← hexValue? c) * 0x10 + (← hexValue? d)
            (textBody rest).map fun later => (unit :: later.1, later.2)
          | _ => none
        else do
          let unit ← escaped? letter
          (textBody rest).map fun later => (unit :: later.1, later.2)
    else if unit < 0x20 then none
    else (textBody rest).map fun later => (unit :: later.1, later.2)

/-! ### Values -/

variable {ν : Type}

/-- What follows a word. -/
def after? : Units → Units → Option Units
  | [], text => some text
  | unit :: word, other :: text => if unit = other then after? word text else none
  | _ :: _, [] => none

/-- A member, and those read after it: it keeps its place, and a later one of its name gives the value. -/
def put (name : Units) (value : JsonTree ν) (later : List (Units × JsonTree ν)) : List (Units × JsonTree ν) :=
  match later.find? (·.1 = name) with
  | some same => (name, same.2) :: later.filter (·.1 ≠ name)
  | none => (name, value) :: later

mutual

def value (read : Units → ν) : ℕ → Units → Option (JsonTree ν × Units)
  | 0, _ => none
  | fuel + 1, text =>
    match skipBlanks text with
    | [] => none
    | unit :: rest =>
      if unit = 0x22 then (textBody rest).map fun read => (.text read.1, read.2)
      else if unit = 0x5B then
        match skipBlanks rest with
        | [] => none
        | next :: later =>
          if next = 0x5D then some (.array [], later)
          else (items read fuel (next :: later)).map fun read => (.array read.1, read.2)
      else if unit = 0x7B then
        match skipBlanks rest with
        | [] => none
        | next :: later =>
          if next = 0x7D then some (.object [], later)
          else (members read fuel (next :: later)).map fun read => (.object read.1, read.2)
      else if unit = 0x6E then (after? (units "ull") rest).map fun rest => (.null, rest)
      else if unit = 0x74 then (after? (units "rue") rest).map fun rest => (.boolean true, rest)
      else if unit = 0x66 then (after? (units "alse") rest).map fun rest => (.boolean false, rest)
      else (number (unit :: rest)).map fun number => (.number (read number.1), number.2)

def items (read : Units → ν) : ℕ → Units → Option (List (JsonTree ν) × Units)
  | 0, _ => none
  | fuel + 1, text => do
    let first ← value read fuel text
    match skipBlanks first.2 with
    | [] => none
    | unit :: rest =>
      if unit = 0x2C then (items read fuel rest).map fun later => (first.1 :: later.1, later.2)
      else if unit = 0x5D then some ([first.1], rest)
      else none

def member (read : Units → ν) : ℕ → Units → Option ((Units × JsonTree ν) × Units)
  | 0, _ => none
  | fuel + 1, text =>
    match skipBlanks text with
    | [] => none
    | unit :: rest =>
      if unit = 0x22 then do
        let name ← textBody rest
        match skipBlanks name.2 with
        | [] => none
        | unit :: rest =>
          if unit = 0x3A then (value read fuel rest).map fun read => ((name.1, read.1), read.2)
          else none
      else none

def members (read : Units → ν) : ℕ → Units → Option (List (Units × JsonTree ν) × Units)
  | 0, _ => none
  | fuel + 1, text => do
    let first ← member read fuel text
    match skipBlanks first.2 with
    | [] => none
    | unit :: rest =>
      if unit = 0x2C then (members read fuel rest).map fun later => (put first.1.1 first.1.2 later.1, later.2)
      else if unit = 0x7D then some ([first.1], rest)
      else none

end

/-- A whole text, as one value between blanks. -/
def parse (read : Units → ν) (fuel : ℕ) (text : Units) : Option (JsonTree ν) :=
  match value read fuel text with
  | some (tree, rest) => if skipBlanks rest = [] then some tree else none
  | none => none

/-! ### The grammar of numbers -/

def AllDigits (text : Units) : Prop := text ≠ [] ∧ ∀ unit ∈ text, isDigit unit = true

/-- The text is empty, or its first unit is of a kind. -/
def Starts (kind : ℕ → Prop) (text : Units) : Prop := ∀ unit later, text = unit :: later → kind unit

theorem Starts.append {kind : ℕ → Prop} {text rest : Units} (htext : Starts kind text) (hrest : Starts kind rest) :
    Starts kind (text ++ rest) := by
  cases text with
  | nil => exact hrest
  | cons unit text =>
    rintro _ _ ⟨⟩
    exact htext unit text rfl

theorem starts_cons {kind : ℕ → Prop} {unit : ℕ} (h : kind unit) (later : Units) : Starts kind (unit :: later) := by
  rintro _ _ ⟨⟩
  exact h

theorem Starts.imp {kind kind' : ℕ → Prop} (himp : ∀ unit, kind unit → kind' unit) {text : Units}
    (h : Starts kind text) : Starts kind' text :=
  fun unit later heq => himp unit (h unit later heq)

/-- What follows a value: the end, or a mark that parts or closes. -/
def Ends : Units → Prop := Starts fun unit => unit = 0x2C ∨ unit = 0x5D ∨ unit = 0x7D

theorem isDigit_iff {unit : ℕ} : isDigit unit = true ↔ 0x30 ≤ unit ∧ unit ≤ 0x39 := by
  simp [isDigit]

theorem digits_append {text rest : Units} (htext : AllDigits text) (hrest : Starts (isDigit · = false) rest) :
    digits (text ++ rest) = some (text, rest) := by
  have htake : (text ++ rest).takeWhile isDigit = text := by
    rw [List.takeWhile_append_of_pos htext.2]
    cases rest with
    | nil => simp
    | cons unit later => simp [hrest unit later rfl]
  have hdrop : (text ++ rest).dropWhile isDigit = rest := by
    rw [List.dropWhile_append_of_pos htext.2]
    cases rest with
    | nil => rfl
    | cons unit later => simp [hrest unit later rfl]
  have hsome : text.isEmpty = false := by simpa using htext.1
  simp [digits, htake, hdrop, hsome]

theorem AllDigits.starts {text : Units} (h : AllDigits text) : Starts (isDigit · = true) text := by
  rintro unit later rfl
  exact h.2 unit List.mem_cons_self

/-- A sign that may be missing, before something else. -/
theorem sign_append {mark : Units} {rest : Units} (hmark : mark = [] ∨ mark = [0x2D])
    (hrest : Starts (· ≠ 0x2D) rest) : sign (mark ++ rest) = (mark, rest) := by
  rcases hmark with rfl | rfl
  · cases rest with
    | nil => rfl
    | cons unit later => simp [sign, hrest unit later rfl]
  · rfl

theorem exponentSign_append {mark : Units} {rest : Units} (hmark : mark = [] ∨ mark = [0x2B] ∨ mark = [0x2D])
    (hrest : Starts (isDigit · = true) rest) : exponentSign (mark ++ rest) = (mark, rest) := by
  rcases hmark with rfl | rfl | rfl
  · cases rest with
    | nil => rfl
    | cons unit later =>
      have hdigit := isDigit_iff.1 (hrest unit later rfl)
      have hplus : unit ≠ 0x2B := by omega
      have hminus : unit ≠ 0x2D := by omega
      simp [exponentSign, sign, hplus, hminus]
  · rfl
  · rfl

/-- The exponent of a number, or nothing, before the end of the number. -/
def IsExponent (text : Units) : Prop :=
  text = [] ∨ ∃ mark sign digits, text = mark :: (sign ++ digits) ∧ (mark = 0x65 ∨ mark = 0x45) ∧
    (sign = [] ∨ sign = [0x2B] ∨ sign = [0x2D]) ∧ AllDigits digits

theorem exponent_append {text rest : Units} (htext : IsExponent text) (hrest : Ends rest) :
    exponent (text ++ rest) = some (text, rest) := by
  rcases htext with rfl | ⟨mark, sign, digits, rfl, hmark, hsign, hdigits⟩
  · cases rest with
    | nil => rfl
    | cons unit later =>
      have hend := hrest unit later rfl
      have hmark : ¬ (unit = 0x65 ∨ unit = 0x45) := by omega
      simp [exponent, hmark]
  · have hnot : Starts (isDigit · = false) rest := hrest.imp fun unit h => by
      rcases h with rfl | rfl | rfl <;> rfl
    have hread : exponentSign (sign ++ digits ++ rest) = (sign, digits ++ rest) := by
      rw [List.append_assoc]
      refine exponentSign_append hsign ?_
      obtain ⟨first, more, rfl⟩ := List.exists_cons_of_ne_nil hdigits.1
      exact starts_cons (hdigits.2 first List.mem_cons_self) _
    rw [List.cons_append, exponent, if_pos hmark, hread, digits_append hdigits hnot]
    rfl

theorem IsExponent.starts {text rest : Units} (htext : IsExponent text) (hrest : Ends rest) :
    Starts (fun unit => isDigit unit = false ∧ unit ≠ 0x2E) (text ++ rest) := by
  refine Starts.append ?_ (hrest.imp fun unit h => ?_)
  · rcases htext with rfl | ⟨mark, sign, digits, rfl, hmark, -, -⟩
    · exact fun unit later h => absurd h.symm (List.cons_ne_nil _ _)
    · refine starts_cons ?_ _
      rcases hmark with rfl | rfl <;> exact ⟨rfl, by decide⟩
  · rcases h with rfl | rfl | rfl <;> exact ⟨rfl, by decide⟩

def IsFraction (text : Units) : Prop := text = [] ∨ ∃ digits, text = 0x2E :: digits ∧ AllDigits digits

theorem fraction_append {text rest : Units} (htext : IsFraction text)
    (hrest : Starts (fun unit => isDigit unit = false ∧ unit ≠ 0x2E) rest) :
    fraction (text ++ rest) = some (text, rest) := by
  rcases htext with rfl | ⟨digits, rfl, hdigits⟩
  · cases rest with
    | nil => rfl
    | cons unit later => simp [fraction, (hrest unit later rfl).2]
  · rw [List.cons_append, fraction, digits_append hdigits (hrest.imp fun _ h => h.1)]
    rfl

def IsWhole (text : Units) : Prop := text = [0x30] ∨ AllDigits text ∧ text.head? ≠ some 0x30

theorem integerPart_append {text rest : Units} (htext : IsWhole text) (hrest : Starts (isDigit · = false) rest) :
    integerPart (text ++ rest) = some (text, rest) := by
  rcases htext with rfl | ⟨hdigits, hhead⟩
  · rfl
  · obtain ⟨first, more, rfl⟩ := List.exists_cons_of_ne_nil hdigits.1
    have hfirst : first ≠ 0x30 := fun h => hhead (by rw [h]; rfl)
    have hread := digits_append hdigits hrest
    rw [List.cons_append] at hread ⊢
    simp [integerPart, hfirst, hread]

/-- A number as the grammar has it. -/
structure IsNumber (text : Units) : Prop where
  parts : ∃ sign whole fraction exponent, text = sign ++ (whole ++ (fraction ++ exponent)) ∧
    (sign = [] ∨ sign = [0x2D]) ∧ IsWhole whole ∧ IsFraction fraction ∧ IsExponent exponent

theorem IsWhole.starts {text : Units} (h : IsWhole text) (rest : Units) :
    ∃ first more, text ++ rest = first :: more ∧ isDigit first = true := by
  rcases h with rfl | ⟨hdigits, -⟩
  · exact ⟨0x30, rest, rfl, rfl⟩
  · obtain ⟨first, more, rfl⟩ := List.exists_cons_of_ne_nil hdigits.1
    exact ⟨first, more ++ rest, rfl, hdigits.2 first List.mem_cons_self⟩

theorem number_append {text rest : Units} (htext : IsNumber text) (hrest : Ends rest) :
    number (text ++ rest) = some (text, rest) := by
  obtain ⟨mark, whole, part, power, rfl, hsign, hwhole, hfraction, hexponent⟩ := htext.parts
  have hpower := hexponent.starts hrest
  have hpart : Starts (isDigit · = false) (part ++ (power ++ rest)) := by
    refine Starts.append ?_ (hpower.imp fun _ h => h.1)
    rcases hfraction with rfl | ⟨digits, rfl, -⟩
    · exact fun unit later h => absurd h.symm (List.cons_ne_nil _ _)
    · exact starts_cons (show isDigit 0x2E = false from rfl) _
  have hstart : Starts (· ≠ 0x2D) (whole ++ (part ++ (power ++ rest))) := by
    obtain ⟨first, more, hfirst, hdigit⟩ := hwhole.starts (part ++ (power ++ rest))
    rw [hfirst]
    refine starts_cons (fun h => ?_) _
    rw [h] at hdigit
    cases hdigit
  rw [List.append_assoc, List.append_assoc, List.append_assoc, number, sign_append hsign hstart,
    integerPart_append hwhole hpart]
  dsimp only [Option.bind_eq_bind, Option.bind_some]
  rw [fraction_append hfraction hpower]
  dsimp only [Option.bind_some]
  rw [exponent_append hexponent hrest]
  simp

/-- A number starts with a minus or a digit. -/
theorem IsNumber.starts {text : Units} (h : IsNumber text) (rest : Units) :
    ∃ first more, text ++ rest = first :: more ∧ (first = 0x2D ∨ isDigit first = true) := by
  obtain ⟨mark, whole, part, power, rfl, hsign, hwhole, -, -⟩ := h.parts
  rcases hsign with rfl | rfl
  · obtain ⟨first, more, hfirst, hdigit⟩ := hwhole.starts (part ++ power ++ rest)
    refine ⟨first, more, ?_, Or.inr hdigit⟩
    rw [← hfirst]
    simp
  · exact ⟨0x2D, _, rfl, Or.inl rfl⟩

/-- The numbers of a program: how it writes each, by the grammar, and what a reader makes of a text. -/
structure Numbers (ν : Type) where
  write : ν → Units
  read : Units → ν
  grammar : ∀ n, IsNumber (write n)
  read_write : ∀ n, read (write n) = n

/-! ### Reading a text back -/

theorem textBody_close (rest : Units) : textBody (0x22 :: rest) = some ([], rest) := by
  rw [textBody.eq_def]
  exact if_pos rfl

theorem textBody_raw {unit : ℕ} (hquote : unit ≠ 0x22) (hslash : unit ≠ 0x5C) (hplain : 0x20 ≤ unit) (rest : Units) :
    textBody (unit :: rest) = (textBody rest).map fun later => (unit :: later.1, later.2) := by
  rw [textBody.eq_def]
  dsimp only
  rw [if_neg hquote, if_neg hslash, if_neg (Nat.not_lt.2 hplain)]

theorem textBody_letter {letter unit : ℕ} (hletter : letter ≠ 0x75) (hunit : escaped? letter = some unit)
    (rest : Units) :
    textBody (0x5C :: letter :: rest) = (textBody rest).map fun later => (unit :: later.1, later.2) := by
  rw [textBody.eq_def]
  dsimp only
  rw [if_neg (by decide), if_pos rfl, if_neg hletter, hunit]
  rfl

def hexDigit (value : ℕ) : ℕ := if value < 10 then 0x30 + value else 0x57 + value

/-- The escape of a unit by four hexadecimal digits. -/
def hexEscape (unit : ℕ) : Units :=
  [0x5C, 0x75, hexDigit (unit / 0x1000 % 16), hexDigit (unit / 0x100 % 16), hexDigit (unit / 0x10 % 16),
    hexDigit (unit % 16)]

theorem hexValue?_hexDigit : ∀ value < 16, hexValue? (hexDigit value) = some value := by decide

theorem textBody_hex {unit : ℕ} (hunit : unit < 0x10000) (rest : Units) :
    textBody (hexEscape unit ++ rest) = (textBody rest).map fun later => (unit :: later.1, later.2) := by
  have hdigit : ∀ n, hexValue? (hexDigit (n % 16)) = some (n % 16) :=
    fun n => hexValue?_hexDigit _ (Nat.mod_lt _ (by decide))
  have hsum : unit / 0x1000 % 16 * 0x1000 + unit / 0x100 % 16 * 0x100 + unit / 0x10 % 16 * 0x10 + unit % 16 = unit := by
    omega
  rw [hexEscape, List.cons_append, textBody.eq_def]
  dsimp only
  rw [if_neg (by decide), if_pos rfl]
  simp only [List.cons_append, List.nil_append, if_true, hdigit, Option.bind_eq_bind, Option.bind_some, hsum]

/-! ### Reading a value back -/

theorem skipBlanks_cons {unit : ℕ} (h : isBlank unit = false) (rest : Units) :
    skipBlanks (unit :: rest) = unit :: rest := by
  simp [skipBlanks, h]

theorem after?_append : ∀ word rest : Units, after? word (word ++ rest) = some rest
  | [], _ => rfl
  | unit :: word, rest => by rw [List.cons_append, after?, if_pos rfl, after?_append word rest]

theorem put_new {name : Units} {tree : JsonTree ν} {later : List (Units × JsonTree ν)} (h : name ∉ later.map Prod.fst) :
    put name tree later = (name, tree) :: later := by
  have hnone : later.find? (·.1 = name) = none := by
    rw [List.find?_eq_none]
    intro member hmember
    have hne : member.1 ≠ name := fun heq => h (heq ▸ List.mem_map_of_mem hmember)
    simpa using hne
  rw [put, hnone]

section

variable (read : Units → ν) (fuel : ℕ) {rest later : Units}

theorem value_text {text : Units} (h : textBody rest = some (text, later)) :
    value read (fuel + 1) (0x22 :: rest) = some (.text text, later) := by
  rw [value, skipBlanks_cons rfl]
  dsimp only
  rw [if_pos rfl, h]
  rfl

theorem value_null : value read (fuel + 1) (units "null" ++ rest) = some (.null, rest) := by
  rw [show units "null" ++ rest = 0x6E :: (units "ull" ++ rest) from rfl, value, skipBlanks_cons rfl]
  dsimp only
  rw [if_neg (by decide), if_neg (by decide), if_neg (by decide), if_pos rfl, after?_append]
  rfl

theorem value_true : value read (fuel + 1) (units "true" ++ rest) = some (.boolean true, rest) := by
  rw [show units "true" ++ rest = 0x74 :: (units "rue" ++ rest) from rfl, value, skipBlanks_cons rfl]
  dsimp only
  rw [if_neg (by decide), if_neg (by decide), if_neg (by decide), if_neg (by decide), if_pos rfl, after?_append]
  rfl

theorem value_false : value read (fuel + 1) (units "false" ++ rest) = some (.boolean false, rest) := by
  rw [show units "false" ++ rest = 0x66 :: (units "alse" ++ rest) from rfl, value, skipBlanks_cons rfl]
  dsimp only
  rw [if_neg (by decide), if_neg (by decide), if_neg (by decide), if_neg (by decide), if_neg (by decide),
    if_pos rfl, after?_append]
  rfl

theorem value_number {text : Units} (htext : IsNumber text) (hrest : Ends rest) :
    value read (fuel + 1) (text ++ rest) = some (.number (read text), rest) := by
  obtain ⟨first, more, hfirst, hstart⟩ := htext.starts rest
  have hrange : first = 0x2D ∨ 0x30 ≤ first ∧ first ≤ 0x39 := by rwa [isDigit_iff] at hstart
  have hblank : isBlank first = false := by
    rcases hrange with rfl | hdigit
    · rfl
    · simp only [isBlank, Bool.or_eq_false_iff, decide_eq_false_iff_not]
      omega
  have hnumber := number_append htext hrest
  rw [hfirst] at hnumber ⊢
  rw [value, skipBlanks_cons hblank]
  dsimp only
  rw [if_neg (by omega), if_neg (by omega), if_neg (by omega), if_neg (by omega), if_neg (by omega), if_neg (by omega),
    hnumber]
  rfl

theorem value_array_nil : value read (fuel + 1) (0x5B :: 0x5D :: rest) = some (.array [], rest) := by
  rw [value, skipBlanks_cons rfl]
  dsimp only
  rw [if_neg (by decide), if_pos rfl, skipBlanks_cons rfl]
  rfl

theorem value_array {unit : ℕ} {trees : List (JsonTree ν)} (hblank : isBlank unit = false) (hclose : unit ≠ 0x5D)
    (h : items read fuel (unit :: rest) = some (trees, later)) :
    value read (fuel + 1) (0x5B :: unit :: rest) = some (.array trees, later) := by
  rw [value, skipBlanks_cons rfl]
  dsimp only
  rw [if_neg (by decide), if_pos rfl, skipBlanks_cons hblank]
  dsimp only
  rw [if_neg hclose, h]
  rfl

theorem value_object_nil : value read (fuel + 1) (0x7B :: 0x7D :: rest) = some (.object [], rest) := by
  rw [value, skipBlanks_cons rfl]
  dsimp only
  rw [if_neg (by decide), if_neg (by decide), if_pos rfl, skipBlanks_cons rfl]
  rfl

theorem value_object {trees : List (Units × JsonTree ν)} (h : members read fuel (0x22 :: rest) = some (trees, later)) :
    value read (fuel + 1) (0x7B :: 0x22 :: rest) = some (.object trees, later) := by
  rw [value, skipBlanks_cons rfl]
  dsimp only
  rw [if_neg (by decide), if_neg (by decide), if_pos rfl, skipBlanks_cons rfl]
  dsimp only
  rw [if_neg (by decide), h]
  rfl

theorem items_last {text : Units} {tree : JsonTree ν} (h : value read fuel text = some (tree, 0x5D :: rest)) :
    items read (fuel + 1) text = some ([tree], rest) := by
  rw [items, h]
  simp [@skipBlanks_cons 0x5D rfl]

theorem items_more {text : Units} {tree : JsonTree ν} {trees : List (JsonTree ν)}
    (h : value read fuel text = some (tree, 0x2C :: rest)) (hrest : items read fuel rest = some (trees, later)) :
    items read (fuel + 1) text = some (tree :: trees, later) := by
  rw [items, h]
  simp [@skipBlanks_cons 0x2C rfl, hrest]

theorem member_read {name text : Units} {tree : JsonTree ν} (hname : textBody rest = some (name, 0x3A :: text))
    (h : value read fuel text = some (tree, later)) :
    member read (fuel + 1) (0x22 :: rest) = some ((name, tree), later) := by
  rw [member, skipBlanks_cons rfl]
  dsimp only
  rw [if_pos rfl, hname]
  simp [@skipBlanks_cons 0x3A rfl, h]

theorem members_last {text : Units} {first : Units × JsonTree ν}
    (h : member read fuel text = some (first, 0x7D :: rest)) :
    members read (fuel + 1) text = some ([first], rest) := by
  rw [members, h]
  simp [@skipBlanks_cons 0x7D rfl]

theorem members_more {text : Units} {first : Units × JsonTree ν} {trees : List (Units × JsonTree ν)}
    (h : member read fuel text = some (first, 0x2C :: rest)) (hrest : members read fuel rest = some (trees, later)) :
    members read (fuel + 1) text = some (put first.1 first.2 trees, later) := by
  rw [members, h]
  simp [@skipBlanks_cons 0x2C rfl, hrest]

end

end HuntWarden.JsonSyntax
