import HuntWarden.Lib.Json

/-! The text of a JSON record as two writers emit it. One leaves every character of Unicode as it is
    (`JSON.stringify`), the other escapes everything outside printable ASCII (`json.dumps` with
    `ensure_ascii`). A text is a list of UTF-16 code units, lone surrogates included; both writers go
    through its code points. The second writer can be read back, and the two write the same only where
    no code point needs an escape that the first one leaves out. -/

namespace HuntWarden.JsonText

/-- A string of the host language: its UTF-16 code units. -/
abbrev Text := List UInt16

def isHigh (unit : UInt16) : Bool := 0xD800 ≤ unit.toNat ∧ unit.toNat < 0xDC00

def isLow (unit : UInt16) : Bool := 0xDC00 ≤ unit.toNat ∧ unit.toNat < 0xE000

/-- The code point of a surrogate pair. -/
def pairPoint (high low : UInt16) : ℕ :=
  0x10000 + (high.toNat - 0xD800) * 0x400 + (low.toNat - 0xDC00)

/-- The code points of a text; a surrogate without its partner is one by itself. -/
def codePoints : Text → List ℕ
  | [] => []
  | [unit] => [unit.toNat]
  | high :: low :: rest =>
    if isHigh high && isLow low then pairPoint high low :: codePoints rest
    else high.toNat :: codePoints (low :: rest)

def surrogate (point : ℕ) : Bool := 0xD800 ≤ point ∧ point < 0xE000

/-! ### The two escapes -/

def hexDigit (value : ℕ) : Char := "0123456789abcdef".toList.getD value '0'

/-- The escape `\u` with four hexadecimal digits. -/
def hexEscape (value : ℕ) : List Char :=
  ['\\', 'u', hexDigit (value / 0x1000 % 16), hexDigit (value / 0x100 % 16),
    hexDigit (value / 0x10 % 16), hexDigit (value % 16)]

/-- The letter of a two-character escape. -/
def shortEscape (point : ℕ) : Option Char :=
  match point with
  | 8 => some 'b'
  | 9 => some 't'
  | 10 => some 'n'
  | 12 => some 'f'
  | 13 => some 'r'
  | 34 => some '"'
  | 92 => some '\\'
  | _ => none

/-- One code point as `JSON.stringify` writes it. -/
def jsEscape (point : ℕ) : List Char :=
  match shortEscape point with
  | some letter => ['\\', letter]
  | none => if point < 0x20 ∨ surrogate point then hexEscape point else [Char.ofNat point]

def printable (point : ℕ) : Bool := 0x20 ≤ point ∧ point ≤ 0x7E

/-- One code point as `json.dumps` writes it. -/
def asciiEscape (point : ℕ) : List Char :=
  match shortEscape point with
  | some letter => ['\\', letter]
  | none =>
    if printable point then [Char.ofNat point]
    else if point < 0x10000 then hexEscape point
    else
      hexEscape (0xD800 + (point - 0x10000) / 0x400 % 0x400) ++
        hexEscape (0xDC00 + (point - 0x10000) % 0x400)

/-! ### Records of texts -/

def quote (escape : ℕ → List Char) (text : Text) : List Char :=
  '"' :: ((codePoints text).flatMap escape ++ ['"'])

def writeMember (escape : ℕ → List Char) (field : Text × Text) : List Char :=
  quote escape field.1 ++ ':' :: quote escape field.2

def writeMembers (escape : ℕ → List Char) : List (Text × Text) → List Char
  | [] => []
  | [field] => writeMember escape field
  | field :: rest => writeMember escape field ++ ',' :: writeMembers escape rest

/-- A record without blanks, its fields in the order given. -/
def writeRecord (escape : ℕ → List Char) (fields : List (Text × Text)) : List Char :=
  '{' :: (writeMembers escape fields ++ ['}'])

/-! ### Where the writers agree -/

/-- A code point that both writers put down alike. -/
def Plain (point : ℕ) : Prop := point < 0x7F ∨ surrogate point

instance (point : ℕ) : Decidable (Plain point) :=
  inferInstanceAs (Decidable (point < 0x7F ∨ surrogate point = true))

theorem surrogate_iff {point : ℕ} : surrogate point = true ↔ 0xD800 ≤ point ∧ point < 0xE000 := by
  simp [surrogate]

theorem printable_iff {point : ℕ} : printable point = true ↔ 0x20 ≤ point ∧ point ≤ 0x7E := by
  simp [printable]

theorem escape_plain {point : ℕ} (h : Plain point) : jsEscape point = asciiEscape point := by
  rw [jsEscape, asciiEscape]
  cases shortEscape point with
  | some letter => rfl
  | none =>
    dsimp only
    rw [Plain, surrogate_iff] at h
    by_cases hprint : printable point = true
    · have hbounds := printable_iff.1 hprint
      rw [if_pos hprint, if_neg]
      rw [surrogate_iff]
      omega
    · rw [if_neg hprint, if_pos, if_pos]
      · omega
      · rw [printable_iff] at hprint
        rw [surrogate_iff]
        omega

theorem shortEscape_some {point : ℕ} {letter : Char} (h : shortEscape point = some letter) :
    (point, letter) ∈ [(8, 'b'), (9, 't'), (10, 'n'), (12, 'f'), (13, 'r'), (34, '"'),
      (92, '\\')] := by
  rw [shortEscape.eq_def] at h
  split at h <;> cases h <;> decide

/-- A code point with no plain form stands as a raw character in the text of the first writer. -/
theorem raw_of_not_plain {point : ℕ} (h : ¬ Plain point) : jsEscape point = [Char.ofNat point] := by
  rw [Plain, surrogate_iff, not_or] at h
  rw [jsEscape]
  cases hshort : shortEscape point with
  | some letter =>
    have hmem := shortEscape_some hshort
    simp only [List.mem_cons, Prod.mk.injEq, List.not_mem_nil, or_false] at hmem
    omega
  | none =>
    dsimp only
    rw [if_neg]
    rw [surrogate_iff]
    omega

theorem toNat_ofNat {point : ℕ} (h : ¬ surrogate point) (hlt : point < 0x110000) :
    (Char.ofNat point).toNat = point := by
  have hvalid : point.isValidChar := by
    rw [surrogate_iff] at h
    rw [Nat.isValidChar]
    omega
  rw [Char.ofNat, dif_pos hvalid]
  rfl

theorem hexDigit_printable : ∀ value < 16, printable (hexDigit value).toNat := by decide

theorem hexEscape_printable {value : ℕ} : ∀ ch ∈ hexEscape value, printable ch.toNat := by
  intro ch hch
  simp only [hexEscape, List.mem_cons, List.not_mem_nil, or_false] at hch
  rcases hch with rfl | rfl | rfl | rfl | rfl | rfl
  · decide
  · decide
  all_goals exact hexDigit_printable _ (Nat.mod_lt _ (by decide))

theorem asciiEscape_printable {point : ℕ} : ∀ ch ∈ asciiEscape point, printable ch.toNat := by
  intro ch hch
  rw [asciiEscape] at hch
  cases hshort : shortEscape point with
  | some letter =>
    rw [hshort] at hch
    have hletter := shortEscape_some hshort
    simp only [List.mem_cons, Prod.mk.injEq, List.not_mem_nil, or_false] at hch hletter
    rcases hch with rfl | rfl
    · decide
    · rcases hletter with ⟨-, rfl⟩ | ⟨-, rfl⟩ | ⟨-, rfl⟩ | ⟨-, rfl⟩ | ⟨-, rfl⟩ | ⟨-, rfl⟩ |
        ⟨-, rfl⟩ <;> decide
  | none =>
    rw [hshort] at hch
    dsimp only at hch
    split at hch
    · rename_i hprint
      rw [List.mem_singleton] at hch
      subst hch
      have hbounds := printable_iff.1 hprint
      rw [toNat_ofNat (by rw [surrogate_iff]; omega) (by omega)]
      exact hprint
    · split at hch
      · exact hexEscape_printable ch hch
      · rcases List.mem_append.1 hch with hch | hch <;> exact hexEscape_printable ch hch

/-! ### Reading the escapes back -/

def hexValue (digit : Char) : ℕ := "0123456789abcdef".toList.idxOf digit

theorem hexValue_hexDigit : ∀ value < 16, hexValue (hexDigit value) = value := by decide

/-- The point that the letter of a two-character escape stands for. -/
def longOf (letter : Char) : Option ℕ :=
  match letter with
  | 'b' => some 8
  | 't' => some 9
  | 'n' => some 10
  | 'f' => some 12
  | 'r' => some 13
  | '"' => some 34
  | '\\' => some 92
  | _ => none

/-- The first point of an escaped text and what follows it; none at the closing quote. -/
def readPoint : List Char → Option (ℕ × List Char)
  | '\\' :: 'u' :: a :: b :: c :: d :: rest =>
    some (hexValue a * 0x1000 + hexValue b * 0x100 + hexValue c * 0x10 + hexValue d, rest)
  | '\\' :: letter :: rest => (longOf letter).map (·, rest)
  | '"' :: _ => none
  | ch :: rest => some (ch.toNat, rest)
  | [] => none

theorem readPoint_hexEscape {value : ℕ} (h : value < 0x10000) (rest : List Char) :
    readPoint (hexEscape value ++ rest) = some (value, rest) := by
  simp only [hexEscape, List.cons_append, List.nil_append, readPoint]
  rw [hexValue_hexDigit _ (Nat.mod_lt _ (by decide)), hexValue_hexDigit _ (Nat.mod_lt _ (by decide)),
    hexValue_hexDigit _ (Nat.mod_lt _ (by decide)), hexValue_hexDigit _ (Nat.mod_lt _ (by decide))]
  congr 2
  omega

theorem readPoint_raw {ch : Char} (hquote : ch ≠ '"') (hslash : ch ≠ '\\') (rest : List Char) :
    readPoint (ch :: rest) = some (ch.toNat, rest) := by
  rw [readPoint.eq_def]
  split <;> simp_all

theorem readPoint_asciiEscape {point : ℕ} (h : point < 0x10000) (rest : List Char) :
    readPoint (asciiEscape point ++ rest) = some (point, rest) := by
  rw [asciiEscape]
  cases hshort : shortEscape point with
  | some letter =>
    have hletter := shortEscape_some hshort
    simp only [List.mem_cons, Prod.mk.injEq, List.not_mem_nil, or_false] at hletter
    rcases hletter with ⟨rfl, rfl⟩ | ⟨rfl, rfl⟩ | ⟨rfl, rfl⟩ | ⟨rfl, rfl⟩ | ⟨rfl, rfl⟩ |
      ⟨rfl, rfl⟩ | ⟨rfl, rfl⟩ <;> rfl
  | none =>
    dsimp only
    by_cases hprint : printable point = true
    · have hbounds := printable_iff.1 hprint
      have hchar : (Char.ofNat point).toNat = point :=
        toNat_ofNat (by rw [surrogate_iff]; omega) (by omega)
      rw [if_pos hprint, List.singleton_append, readPoint_raw ?_ ?_, hchar]
      · intro hquote
        rw [hquote] at hchar
        rw [← hchar] at hshort
        simp [shortEscape] at hshort
      · intro hslash
        rw [hslash] at hchar
        rw [← hchar] at hshort
        simp [shortEscape] at hshort
    · rw [if_neg hprint, if_pos h, readPoint_hexEscape h]

theorem pairPoint_escape {high low : UInt16} (hhigh : isHigh high) (hlow : isLow low) :
    asciiEscape (pairPoint high low) = asciiEscape high.toNat ++ asciiEscape low.toNat := by
  simp only [isHigh, isLow, decide_eq_true_eq] at hhigh hlow
  have hshort : ∀ point, 0x7F ≤ point → shortEscape point = none := by
    intro point hpoint
    cases hs : shortEscape point with
    | none => rfl
    | some letter =>
      have hletter := shortEscape_some hs
      simp only [List.mem_cons, Prod.mk.injEq, List.not_mem_nil, or_false] at hletter
      omega
  have hprint : ∀ point, 0x7F ≤ point → ¬ printable point = true := by
    intro point hpoint
    rw [printable_iff]
    omega
  have hpair : pairPoint high low = 0x10000 + (high.toNat - 0xD800) * 0x400 +
      (low.toNat - 0xDC00) := rfl
  have hh : 0xD800 + (pairPoint high low - 0x10000) / 0x400 % 0x400 = high.toNat := by omega
  have hl : 0xDC00 + (pairPoint high low - 0x10000) % 0x400 = low.toNat := by omega
  rw [asciiEscape, asciiEscape, asciiEscape, hshort _ (by omega), hshort _ (by omega),
    hshort _ (by omega)]
  dsimp only
  rw [if_neg (hprint _ (by omega)), if_neg (hprint _ (by omega)), if_neg (hprint _ (by omega)),
    if_neg (by omega), if_pos (by omega), if_pos (by omega), hh, hl]

/-- The second writer treats the code units one by one. -/
theorem escape_units (text : Text) :
    (codePoints text).flatMap asciiEscape = text.flatMap fun unit => asciiEscape unit.toNat := by
  induction text using codePoints.induct with
  | case1 => rfl
  | case2 unit => rfl
  | case3 high low rest hpair ih =>
    rw [Bool.and_eq_true] at hpair
    rw [codePoints, if_pos (by rw [hpair.1, hpair.2]; rfl)]
    simp only [List.flatMap_cons, ih, pairPoint_escape hpair.1 hpair.2, List.append_assoc]
  | case4 high low rest hpair ih =>
    rw [codePoints, if_neg hpair]
    simp only [List.flatMap_cons] at ih ⊢
    rw [ih]

theorem quote_injective {text text' : Text} {rest rest' : List Char}
    (h : quote asciiEscape text ++ rest = quote asciiEscape text' ++ rest') :
    text = text' ∧ rest = rest' := by
  simp only [quote, escape_units, List.cons_append, List.append_assoc, List.nil_append,
    List.cons.injEq, true_and] at h
  induction text generalizing text' with
  | nil =>
    cases text' with
    | nil => simpa using h
    | cons unit units =>
      have hread := congrArg readPoint h
      rw [List.flatMap_cons, List.append_assoc, readPoint_asciiEscape unit.toNat_lt] at hread
      cases hread
  | cons unit units ih =>
    cases text' with
    | nil =>
      have hread := congrArg readPoint h
      rw [List.flatMap_cons, List.append_assoc, readPoint_asciiEscape unit.toNat_lt] at hread
      cases hread
    | cons unit' units' =>
      have hread := congrArg readPoint h
      rw [List.flatMap_cons, List.append_assoc, List.flatMap_cons, List.append_assoc,
        readPoint_asciiEscape unit.toNat_lt, readPoint_asciiEscape unit'.toNat_lt] at hread
      simp only [Option.some.injEq, Prod.mk.injEq] at hread
      obtain ⟨rfl, hrest⟩ := ih hread.2
      exact ⟨by rw [UInt16.toNat_inj.1 hread.1], hrest⟩

/-! ### Records -/

theorem member_injective {field field' : Text × Text} {rest rest' : List Char}
    (h : writeMember asciiEscape field ++ rest = writeMember asciiEscape field' ++ rest') :
    field = field' ∧ rest = rest' := by
  simp only [writeMember, List.append_assoc, List.cons_append] at h
  obtain ⟨hkey, h⟩ := quote_injective h
  obtain ⟨hvalue, hrest⟩ := quote_injective (List.cons.inj h).2
  exact ⟨Prod.ext hkey hvalue, hrest⟩

theorem writeMember_eq (escape : ℕ → List Char) (field : Text × Text) :
    ∃ more, writeMember escape field = '"' :: more := ⟨_, rfl⟩

/-- What the second writer emits determines the fields and their order. -/
theorem members_injective : ∀ {fields fields' : List (Text × Text)},
    writeMembers asciiEscape fields ++ ['}'] = writeMembers asciiEscape fields' ++ ['}'] →
      fields = fields'
  | [], [], _ => rfl
  | [], [field], h => by
      obtain ⟨more, hmore⟩ := writeMember_eq asciiEscape field
      simp [writeMembers, hmore] at h
  | [], field :: _ :: _, h => by
      obtain ⟨more, hmore⟩ := writeMember_eq asciiEscape field
      simp [writeMembers, hmore] at h
  | [field], [], h => by
      obtain ⟨more, hmore⟩ := writeMember_eq asciiEscape field
      simp [writeMembers, hmore] at h
  | field :: _ :: _, [], h => by
      obtain ⟨more, hmore⟩ := writeMember_eq asciiEscape field
      simp [writeMembers, hmore] at h
  | [_], [_], h => by
      rw [(member_injective h).1]
  | [_], _ :: _ :: _, h => by
      simp only [writeMembers, List.append_assoc, List.cons_append] at h
      have hrest := (member_injective h).2
      simp at hrest
  | _ :: _ :: _, [_], h => by
      simp only [writeMembers, List.append_assoc, List.cons_append] at h
      have hrest := (member_injective h).2
      simp at hrest
  | _ :: next :: rest, _ :: next' :: rest', h => by
      simp only [writeMembers, List.append_assoc, List.cons_append] at h
      obtain ⟨rfl, hrest⟩ := member_injective h
      rw [members_injective (List.cons.inj hrest).2]

theorem record_injective {fields fields' : List (Text × Text)}
    (h : writeRecord asciiEscape fields = writeRecord asciiEscape fields') : fields = fields' :=
  members_injective (List.cons.inj h).2

def PlainText (text : Text) : Prop := ∀ point ∈ codePoints text, Plain point

theorem quote_plain {text : Text} (h : PlainText text) :
    quote jsEscape text = quote asciiEscape text := by
  have hescape : (codePoints text).flatMap jsEscape = (codePoints text).flatMap asciiEscape :=
    List.flatMap_congr fun point hpoint => escape_plain (h point hpoint)
  rw [quote, quote, hescape]

theorem members_plain : ∀ {fields : List (Text × Text)},
    (∀ field ∈ fields, PlainText field.1 ∧ PlainText field.2) →
      writeMembers jsEscape fields = writeMembers asciiEscape fields
  | [], _ => rfl
  | [field], h => by
      obtain ⟨hkey, hvalue⟩ := h field (List.mem_singleton_self field)
      rw [writeMembers, writeMembers, writeMember, writeMember, quote_plain hkey,
        quote_plain hvalue]
  | field :: next :: rest, h => by
      obtain ⟨hkey, hvalue⟩ := h field (List.mem_cons_self ..)
      have hrest := members_plain fun f hf => h f (List.mem_cons_of_mem _ hf)
      simp only [writeMembers] at hrest ⊢
      rw [hrest, writeMember, writeMember, quote_plain hkey, quote_plain hvalue]

theorem quote_printable {text : Text} : ∀ ch ∈ quote asciiEscape text, printable ch.toNat := by
  intro ch hch
  simp only [quote, List.mem_cons, List.mem_append, List.mem_flatMap, List.not_mem_nil,
    or_false] at hch
  rcases hch with rfl | ⟨point, -, hpoint⟩ | rfl
  · decide
  · exact asciiEscape_printable ch hpoint
  · decide

theorem members_printable : ∀ {fields : List (Text × Text)},
    ∀ ch ∈ writeMembers asciiEscape fields, printable ch.toNat
  | [], ch, h => by cases h
  | [field], ch, h => by
      simp only [writeMembers, writeMember, List.mem_append, List.mem_cons] at h
      rcases h with h | rfl | h
      · exact quote_printable ch h
      · decide
      · exact quote_printable ch h
  | field :: next :: rest, ch, h => by
      simp only [writeMembers, writeMember, List.mem_append, List.mem_cons] at h
      rcases h with (h | rfl | h) | rfl | h
      · exact quote_printable ch h
      · decide
      · exact quote_printable ch h
      · decide
      · exact members_printable ch h

/-- The characters of a value stand in the text of the record. -/
theorem mem_members {escape : ℕ → List Char} {field : Text × Text} {point : ℕ} {ch : Char}
    (hpoint : point ∈ codePoints field.2) (hch : ch ∈ escape point) :
    ∀ {fields : List (Text × Text)}, field ∈ fields → ch ∈ writeMembers escape fields
  | [first], h => by
      obtain rfl := List.mem_singleton.1 h
      simp only [writeMembers, writeMember, quote, List.mem_append, List.mem_cons,
        List.mem_flatMap]
      exact Or.inr (Or.inr (Or.inr (Or.inl ⟨point, hpoint, hch⟩)))
  | first :: next :: rest, h => by
      simp only [writeMembers]
      rcases List.mem_cons.1 h with rfl | h
      · refine List.mem_append_left _ ?_
        simp only [writeMember, quote, List.mem_append, List.mem_cons, List.mem_flatMap]
        exact Or.inr (Or.inr (Or.inr (Or.inl ⟨point, hpoint, hch⟩)))
      · exact List.mem_append_right _ (List.mem_cons_of_mem _ (mem_members hpoint hch h))

theorem pairPoint_lt {high low : UInt16} (hhigh : isHigh high) (hlow : isLow low) :
    pairPoint high low < 0x110000 := by
  simp only [isHigh, isLow, decide_eq_true_eq] at hhigh hlow
  unfold pairPoint
  omega

theorem codePoints_lt (text : Text) : ∀ point ∈ codePoints text, point < 0x110000 := by
  induction text using codePoints.induct with
  | case1 => simp [codePoints]
  | case2 unit =>
    intro point hpoint
    rw [codePoints, List.mem_singleton] at hpoint
    have := unit.toNat_lt
    omega
  | case3 high low rest hpair ih =>
    intro point hpoint
    rw [codePoints, if_pos hpair, List.mem_cons] at hpoint
    rw [Bool.and_eq_true] at hpair
    rcases hpoint with hpoint | hpoint
    · exact hpoint ▸ pairPoint_lt hpair.1 hpair.2
    · exact ih point hpoint
  | case4 high low rest hpair ih =>
    intro point hpoint
    rw [codePoints, if_neg hpair, List.mem_cons] at hpoint
    rcases hpoint with rfl | hpoint
    · have := high.toNat_lt
      omega
    · exact ih point hpoint

/-- The two writers emit the same text for a record of plainly named fields exactly when every value
    is plain, whatever the order of the fields on the other side. -/
theorem plain_of_records {fields fields' : List (Text × Text)}
    (h : writeRecord jsEscape fields = writeRecord asciiEscape fields') :
    ∀ field ∈ fields, PlainText field.2 := by
  intro field hfield point hpoint
  by_contra hnot
  have hraw := raw_of_not_plain hnot
  have hmem : Char.ofNat point ∈ writeRecord jsEscape fields := by
    refine List.mem_cons_of_mem _ (List.mem_append_left _ ?_)
    exact mem_members hpoint (by rw [hraw]; exact List.mem_singleton_self _) hfield
  rw [h, writeRecord, List.mem_cons, List.mem_append, List.mem_singleton] at hmem
  have hprint : printable (Char.ofNat point).toNat := by
    rcases hmem with hch | hch | hch
    · rw [hch]; decide
    · exact members_printable _ hch
    · rw [hch]; decide
  rw [Plain, not_or] at hnot
  rw [toNat_ofNat hnot.2 (codePoints_lt _ _ hpoint), printable_iff] at hprint
  omega

theorem records_of_plain {fields : List (Text × Text)}
    (h : ∀ field ∈ fields, PlainText field.1 ∧ PlainText field.2) :
    writeRecord jsEscape fields = writeRecord asciiEscape fields := by
  rw [writeRecord, writeRecord, members_plain h]

end HuntWarden.JsonText
