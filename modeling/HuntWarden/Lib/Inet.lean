import Mathlib.Data.List.TakeWhile
import Mathlib.Data.Nat.Notation
import Mathlib.Tactic.IntervalCases
import Mathlib.Tactic.Linarith
import Mathlib.Tactic.Ring

/-! Internet addresses and the texts they are written in: dotted quads, and groups of hexadecimal
    digits between colons with at most one gap, a quad for the last two of them, and a zone. An
    address has many texts; what is said of the address alone is said of all of them. -/

namespace HuntWarden.Inet

/-! ### Addresses -/

/-- An address in `count` parts of `bits` bits, the most significant one first. -/
@[ext]
structure Parts (bits count : ℕ) where
  parts : List ℕ
  length_eq : parts.length = count
  bounded : ∀ part ∈ parts, part < 2 ^ bits
  deriving DecidableEq

abbrev V4 := Parts 8 4
abbrev V6 := Parts 16 8

def Parts.ofList? {bits count : ℕ} (parts : List ℕ) : Option (Parts bits count) :=
  if h : parts.length = count ∧ ∀ part ∈ parts, part < 2 ^ bits then some ⟨parts, h.1, h.2⟩ else none

/-- The first `len` bits are those of the network. -/
def sharesBits (bits : ℕ) : ℕ → List ℕ → List ℕ → Bool
  | len, network :: networks, part :: parts =>
    if len ≤ bits then network / 2 ^ (bits - len) = part / 2 ^ (bits - len)
    else network = part ∧ sharesBits bits (len - bits) networks parts
  | _, _, _ => true

/-- The block of the addresses that share the first `len` bits of a network. -/
structure Block where
  network : List ℕ
  len : ℕ

def Parts.inBlock {bits count : ℕ} (a : Parts bits count) (block : Block) : Bool :=
  sharesBits bits block.len block.network a.parts

inductive Address where
  | v4 (a : V4)
  | v6 (a : V6)
  deriving DecidableEq

/-- The last two groups that a quad stands for. -/
def quadGroups (a : V4) : List ℕ :=
  match a.parts with
  | [b0, b1, b2, b3] => [b0 * 256 + b1, b2 * 256 + b3]
  | _ => []

/-- An IPv4 address mapped to IPv6. -/
def Mapped (a : V6) (quad : V4) : Prop :=
  a.parts = [0, 0, 0, 0, 0, 0xffff] ++ quadGroups quad

/-! ### Numerals -/

def isDigit (c : Char) : Bool := '0' ≤ c ∧ c ≤ '9'

def isHexDigit (c : Char) : Bool := isDigit c ∨ ('a' ≤ c ∧ c ≤ 'f') ∨ ('A' ≤ c ∧ c ≤ 'F')

def digitValue (c : Char) : ℕ :=
  if isDigit c then c.toNat - '0'.toNat
  else if 'a' ≤ c ∧ c ≤ 'f' then c.toNat - 'a'.toNat + 10
  else if 'A' ≤ c ∧ c ≤ 'F' then c.toNat - 'A'.toNat + 10
  else 0

def numeral (base : ℕ) (text : List Char) : ℕ :=
  text.foldl (fun n c => n * base + digitValue c) 0

/-! ### Texts -/

/-- A byte in decimal, without leading zeros. -/
def decimalByte (text : List Char) : Option ℕ :=
  if text ≠ [] ∧ text.all isDigit ∧ (text.length = 1 ∨ text.head? ≠ some '0') ∧
      numeral 10 text < 256 then
    some (numeral 10 text)
  else none

/-- Four bytes between dots. -/
def dotted (text : List Char) : Option V4 :=
  ((text.splitOn '.').mapM decimalByte).bind Parts.ofList?

/-- One to four hexadecimal digits. -/
def hexGroup (text : List Char) : Option ℕ :=
  if text ≠ [] ∧ text.length ≤ 4 ∧ text.all isHexDigit then some (numeral 16 text) else none

/-- The groups of the pieces between colons; the last piece may be a quad. -/
def groups : List (List Char) → Option (List ℕ)
  | [] => some []
  | [last] =>
    match hexGroup last with
    | some group => some [group]
    | none => (dotted last).map quadGroups
  | piece :: pieces => do return (← hexGroup piece) :: (← groups pieces)

/-- What stands before and after the first gap. -/
def splitGap : List Char → Option (List Char × List Char)
  | ':' :: ':' :: rest => some ([], rest)
  | c :: rest => (splitGap rest).map fun sides => (c :: sides.1, sides.2)
  | [] => none

def leftGroups (text : List Char) : Option (List ℕ) :=
  if text = [] then some [] else (text.splitOn ':').mapM hexGroup

def rightGroups (text : List Char) : Option (List ℕ) :=
  if text = [] then some [] else groups (text.splitOn ':')

/-- Eight groups, or at most seven and a gap for those that are zero. -/
def allGroups (text : List Char) : Option (List ℕ) :=
  match splitGap text with
  | none => groups (text.splitOn ':')
  | some (before, after) => do
    let left ← leftGroups before
    let right ← rightGroups after
    if left.length + right.length ≤ 7 then
      some (left ++ List.replicate (8 - left.length - right.length) 0 ++ right)
    else none

def isZoneChar (c : Char) : Bool := isDigit c ∨ ('a' ≤ c ∧ c ≤ 'z') ∨ ('A' ≤ c ∧ c ≤ 'Z') ∨
  c = '-' ∨ c = '.' ∨ c = ':'

/-- Nothing, or a zone after `%`. -/
def isZone : List Char → Bool
  | [] => true
  | _ :: zone => zone ≠ [] ∧ zone.all isZoneChar

/-- The groups of a text, whatever its zone. -/
def coloned (text : List Char) : Option V6 :=
  if isZone (text.dropWhile (· ≠ '%')) then
    (allGroups (text.takeWhile (· ≠ '%'))).bind Parts.ofList?
  else none

/-- The address that a text denotes. -/
def address (text : List Char) : Option Address :=
  match dotted text with
  | some a => some (.v4 a)
  | none => (coloned text).map .v6

/-! ### Letters of either case -/

theorem toLower_cases (c : Char) : c.toLower = c ∨ ∃ n, 65 ≤ n ∧ n ≤ 90 ∧ c = Char.ofNat n := by
  by_cases h : 65 ≤ c.toNat ∧ c.toNat ≤ 90
  · exact Or.inr ⟨c.toNat, h.1, h.2, (Char.ofNat_toNat c).symm⟩
  · refine Or.inl ?_
    refine dif_neg fun hcase => h ?_
    simpa [UInt32.le_iff_toNat_le] using hcase

/-- What holds of a letter in both cases is decided on the capital letters. -/
theorem lower_eq_of {α : Type} (f : Char → α)
    (h : ∀ n, 65 ≤ n → n ≤ 90 → f (Char.ofNat n).toLower = f (Char.ofNat n)) (c : Char) :
    f c.toLower = f c := by
  rcases toLower_cases c with hsame | ⟨n, hlow, hhigh, rfl⟩
  · rw [hsame]
  · exact h n hlow hhigh

theorem isDigit_lower (c : Char) : isDigit c.toLower = isDigit c :=
  lower_eq_of isDigit (fun n hlow hhigh => by interval_cases n <;> decide) c

theorem isHexDigit_lower (c : Char) : isHexDigit c.toLower = isHexDigit c :=
  lower_eq_of isHexDigit (fun n hlow hhigh => by interval_cases n <;> decide) c

theorem digitValue_lower (c : Char) : digitValue c.toLower = digitValue c :=
  lower_eq_of digitValue (fun n hlow hhigh => by interval_cases n <;> decide) c

theorem isZoneChar_lower (c : Char) : isZoneChar c.toLower = isZoneChar c :=
  lower_eq_of isZoneChar (fun n hlow hhigh => by interval_cases n <;> decide) c

theorem colon_lower (c : Char) : decide (c.toLower = ':') = decide (c = ':') :=
  lower_eq_of (fun c => decide (c = ':')) (fun n hlow hhigh => by interval_cases n <;> decide) c

theorem dot_lower (c : Char) : decide (c.toLower = '.') = decide (c = '.') :=
  lower_eq_of (fun c => decide (c = '.')) (fun n hlow hhigh => by interval_cases n <;> decide) c

theorem percent_lower (c : Char) : decide (c.toLower = '%') = decide (c = '%') :=
  lower_eq_of (fun c => decide (c = '%')) (fun n hlow hhigh => by interval_cases n <;> decide) c

/-! ### A text in small letters denotes the same address -/

/-- The text in small letters. -/
def lower (text : List Char) : List Char := text.map Char.toLower

theorem splitOn_lower {sep : Char} (hsep : ∀ c : Char, decide (c.toLower = sep) = decide (c = sep))
    (text : List Char) : (lower text).splitOn sep = (text.splitOn sep).map lower := by
  induction text with
  | nil => rw [lower, List.map_nil, List.splitOn_nil]; rfl
  | cons c rest ih =>
    have hiff : c.toLower = sep ↔ c = sep := decide_eq_decide.1 (hsep c)
    rw [lower, List.map_cons, List.splitOn_cons_eq_if_modifyHead, List.splitOn_cons_eq_if_modifyHead]
    rw [lower] at ih
    rw [ih]
    by_cases hc : c = sep
    · rw [if_pos (beq_iff_eq.2 (hiff.2 hc)), if_pos (beq_iff_eq.2 hc)]
      rfl
    · rw [if_neg (fun h => hc (hiff.1 (beq_iff_eq.1 h))), if_neg (fun h => hc (beq_iff_eq.1 h))]
      cases rest.splitOn sep with
      | nil => rfl
      | cons piece pieces => rfl

theorem all_lower {p : Char → Bool} (hp : ∀ c : Char, p c.toLower = p c) (text : List Char) :
    (lower text).all p = text.all p := by
  rw [lower, List.all_map]
  exact congrArg text.all (funext hp)

theorem numeral_lower (base : ℕ) (text : List Char) : numeral base (lower text) = numeral base text := by
  rw [numeral, numeral, lower, List.foldl_map]
  simp only [digitValue_lower]

theorem lower_eq_nil {text : List Char} : lower text = [] ↔ text = [] := List.map_eq_nil_iff

theorem length_lower (text : List Char) : (lower text).length = text.length := List.length_map _

theorem hexGroup_lower (text : List Char) : hexGroup (lower text) = hexGroup text := by
  simp only [hexGroup, all_lower isHexDigit_lower, numeral_lower, length_lower, ne_eq, lower_eq_nil]

theorem zero_lower (c : Char) : decide (c.toLower = '0') = decide (c = '0') :=
  lower_eq_of (fun c => decide (c = '0')) (fun n hlow hhigh => by interval_cases n <;> decide) c

theorem decimalByte_lower (text : List Char) : decimalByte (lower text) = decimalByte text := by
  have hhead : (lower text).head? ≠ some '0' ↔ text.head? ≠ some '0' := by
    cases text with
    | nil => rfl
    | cons c rest =>
      have hiff : c.toLower = '0' ↔ c = '0' := decide_eq_decide.1 (zero_lower c)
      simp only [lower, List.map_cons, List.head?_cons, ne_eq, Option.some.injEq, hiff]
  simp only [decimalByte, all_lower isDigit_lower, numeral_lower, length_lower, hhead, ne_eq,
    lower_eq_nil]

theorem dotted_lower (text : List Char) : dotted (lower text) = dotted text := by
  rw [dotted, dotted, splitOn_lower dot_lower, List.mapM_map]
  simp only [Function.comp_def, decimalByte_lower]

theorem groups_cons (piece next : List Char) (pieces : List (List Char)) :
    groups (piece :: next :: pieces) =
      (hexGroup piece).bind fun group => (groups (next :: pieces)).map (group :: ·) := by
  rw [groups.eq_def]
  dsimp only
  cases hexGroup piece with
  | none => rfl
  | some group => cases groups (next :: pieces) <;> rfl

theorem groups_lower (pieces : List (List Char)) : groups (pieces.map lower) = groups pieces := by
  induction pieces with
  | nil => rfl
  | cons piece pieces ih =>
    cases pieces with
    | nil =>
      rw [List.map_cons, List.map_nil, groups.eq_def, groups.eq_def]
      dsimp only
      rw [hexGroup_lower, dotted_lower]
    | cons next pieces =>
      rw [List.map_cons] at ih ⊢
      rw [List.map_cons, groups_cons, groups_cons, ih, hexGroup_lower]

theorem splitGap_lower (text : List Char) :
    splitGap (lower text) = (splitGap text).map fun sides => (lower sides.1, lower sides.2) := by
  induction text using splitGap.induct with
  | case1 rest => rfl
  | case2 c rest hgap ih =>
    have hgap' : ∀ rest', c.toLower = ':' → lower rest = ':' :: rest' → False := by
      intro rest' hc hrest
      have hcolon : c = ':' := (decide_eq_decide.1 (colon_lower c)).1 hc
      cases rest with
      | nil => cases hrest
      | cons next rest'' =>
        have hnext : next.toLower = ':' := (List.cons.inj hrest).1
        exact hgap rest'' hcolon (by rw [(decide_eq_decide.1 (colon_lower next)).1 hnext])
    rw [lower, List.map_cons, splitGap, splitGap]
    · rw [lower] at ih
      rw [ih]
      cases splitGap rest with
      | none => rfl
      | some sides => rfl
    · exact hgap
    · exact hgap'
  | case3 => rfl

theorem leftGroups_lower (text : List Char) : leftGroups (lower text) = leftGroups text := by
  simp only [leftGroups, lower_eq_nil, splitOn_lower colon_lower, List.mapM_map, Function.comp_def,
    hexGroup_lower]

theorem rightGroups_lower (text : List Char) : rightGroups (lower text) = rightGroups text := by
  simp only [rightGroups, lower_eq_nil, splitOn_lower colon_lower, groups_lower]

theorem allGroups_lower (text : List Char) : allGroups (lower text) = allGroups text := by
  rw [allGroups, allGroups, splitGap_lower, splitOn_lower colon_lower]
  cases splitGap text with
  | none => exact groups_lower _
  | some sides =>
    dsimp only [Option.map_some]
    rw [leftGroups_lower, rightGroups_lower]

theorem isZone_lower (zone : List Char) : isZone (lower zone) = isZone zone := by
  cases zone with
  | nil => rfl
  | cons c zone =>
    have hall : (zone.map Char.toLower).all isZoneChar = zone.all isZoneChar :=
      all_lower isZoneChar_lower zone
    simp only [isZone, lower, List.map_cons, hall, ne_eq, List.map_eq_nil_iff]

/-- Capital and small letters denote the same address. -/
theorem address_lower (text : List Char) : address (lower text) = address text := by
  have hpercent : ((fun c : Char => decide (c ≠ '%')) ∘ Char.toLower) =
      fun c => decide (c ≠ '%') := by
    funext c
    rw [Function.comp_apply, decide_not, decide_not, percent_lower]
  have hcoloned : coloned (lower text) = coloned text := by
    rw [coloned, coloned, lower, List.dropWhile_map, List.takeWhile_map, hpercent]
    exact congrArg₂ (fun (zone : Bool) groups => if zone then groups.bind Parts.ofList? else none)
      (isZone_lower _) (allGroups_lower _)
  rw [address, address, dotted_lower, hcoloned]

/-! ### The first groups of a text -/

theorem ofList?_eq_some {bits count : ℕ} {parts : List ℕ} {a : Parts bits count} :
    Parts.ofList? parts = some a ↔ a.parts = parts := by
  rw [Parts.ofList?]
  constructor
  · intro h
    split at h
    · rw [← Option.some.inj h]
    · cases h
  · rintro rfl
    rw [dif_pos ⟨a.length_eq, a.bounded⟩]

theorem coloned_eq_some {text : List Char} {a : V6} : coloned text = some a ↔
    isZone (text.dropWhile (· ≠ '%')) = true ∧
      allGroups (text.takeWhile (· ≠ '%')) = some a.parts := by
  rw [coloned]
  by_cases hzone : isZone (text.dropWhile (· ≠ '%')) = true
  · rw [if_pos hzone, Option.bind_eq_some_iff]
    constructor
    · rintro ⟨parts, hparts, ha⟩
      exact ⟨hzone, (ofList?_eq_some.1 ha) ▸ hparts⟩
    · rintro ⟨-, hparts⟩
      exact ⟨a.parts, hparts, ofList?_eq_some.2 rfl⟩
  · rw [if_neg hzone]
    exact ⟨fun h => (nomatch h), fun h => absurd h.1 hzone⟩

theorem address_v6 {text : List Char} {a : V6} (h : address text = some (.v6 a)) :
    dotted text = none ∧ coloned text = some a := by
  rw [address] at h
  cases hdotted : dotted text with
  | some quad =>
    rw [hdotted] at h
    cases h
  | none =>
    rw [hdotted] at h
    obtain ⟨b, hb, hsame⟩ := Option.map_eq_some_iff.1 h
    exact ⟨rfl, by rw [hb, Address.v6.inj hsame]⟩

theorem quadGroups_length (quad : V4) : (quadGroups quad).length = 2 := by
  obtain ⟨parts, hlength, -⟩ := quad
  match parts, hlength with
  | [_, _, _, _], _ => rfl

/-- Up to the last piece, the pieces between colons are the groups. -/
theorem groups_append (left : List (List Char)) {right : List (List Char)} (hright : right ≠ []) {all : List ℕ}
    (h : groups (left ++ right) = some all) :
    ∃ first rest, left.mapM hexGroup = some first ∧ groups right = some rest ∧ all = first ++ rest := by
  induction left generalizing all with
  | nil => exact ⟨[], all, rfl, h, rfl⟩
  | cons piece left ih =>
    obtain ⟨next, pieces, hnext⟩ : ∃ next pieces, left ++ right = next :: pieces :=
      List.exists_cons_of_ne_nil fun hnil => hright (List.append_eq_nil_iff.1 hnil).2
    rw [List.cons_append, hnext, groups_cons, ← hnext, Option.bind_eq_some_iff] at h
    obtain ⟨group, hgroup, h⟩ := h
    obtain ⟨others, hothers, rfl⟩ := Option.map_eq_some_iff.1 h
    obtain ⟨first, rest, hfirst, hrest, rfl⟩ := ih hothers
    exact ⟨group :: first, rest, by rw [List.mapM_cons, hgroup, hfirst]; rfl, hrest, rfl⟩

theorem groups_length_le {pieces : List (List Char)} {all : List ℕ} (h : groups pieces = some all) :
    all.length ≤ pieces.length + 1 := by
  induction pieces generalizing all with
  | nil =>
    cases h
    exact Nat.zero_le _
  | cons piece pieces ih =>
    cases pieces with
    | nil =>
      rw [groups.eq_def] at h
      dsimp only at h
      split at h
      · cases h
        exact Nat.le_succ 1
      · obtain ⟨quad, -, rfl⟩ := Option.map_eq_some_iff.1 h
        rw [quadGroups_length]
        exact le_refl 2
    | cons next pieces =>
      rw [groups_cons, Option.bind_eq_some_iff] at h
      obtain ⟨group, -, h⟩ := h
      obtain ⟨others, hothers, rfl⟩ := Option.map_eq_some_iff.1 h
      exact Nat.succ_le_succ (ih hothers)

theorem splitGap_eq {text before after : List Char} (h : splitGap text = some (before, after)) :
    text = before ++ ':' :: ':' :: after := by
  induction text using splitGap.induct generalizing before with
  | case1 rest =>
    rw [splitGap] at h
    obtain ⟨rfl, rfl⟩ := Prod.mk.inj (Option.some.inj h)
    rfl
  | case2 c rest hgap ih =>
    rw [splitGap] at h
    · obtain ⟨sides, hsides, hsame⟩ := Option.map_eq_some_iff.1 h
      obtain ⟨rfl, rfl⟩ := Prod.mk.inj hsame
      rw [ih hsides, List.cons_append]
    · exact hgap
  | case3 => cases h

theorem hexGroup_eq_some {piece : List Char} {group : ℕ} : hexGroup piece = some group ↔
    (piece ≠ [] ∧ piece.length ≤ 4 ∧ piece.all isHexDigit = true) ∧ numeral 16 piece = group := by
  rw [hexGroup]
  split
  · next h => exact ⟨fun hsame => ⟨h, Option.some.inj hsame⟩, fun hsame => congrArg some hsame.2⟩
  · next h => exact ⟨fun hsame => (nomatch hsame), fun hsame => absurd hsame.1 h⟩

/-- Where all are read, each is. -/
theorem exists_of_mapM {α β : Type} {f : α → Option β} {xs : List α} {ys : List β} (h : xs.mapM f = some ys) :
    ∀ x ∈ xs, ∃ y, f x = some y := by
  induction xs generalizing ys with
  | nil => exact fun _ hmem => absurd hmem List.not_mem_nil
  | cons x xs ih =>
    rw [List.mapM_cons] at h
    obtain ⟨y, hy, h⟩ := Option.bind_eq_some_iff.1 h
    obtain ⟨others, hothers, -⟩ := Option.bind_eq_some_iff.1 h
    exact List.forall_mem_cons.2 ⟨⟨y, hy⟩, ih hothers⟩

/-- What was written item by item is read back. -/
theorem mapM_map {α β : Type} {f : β → Option α} {g : α → β} {xs : List α} (h : ∀ x ∈ xs, f (g x) = some x) :
    (xs.map g).mapM f = some xs := by
  induction xs with
  | nil => rfl
  | cons x xs ih =>
    rw [List.forall_mem_cons] at h
    rw [List.map_cons, List.mapM_cons, h.1, ih h.2]
    rfl

theorem mapM_hexGroup_ne_nil {pieces : List (List Char)} {all : List ℕ}
    (h : pieces.mapM hexGroup = some all) : [] ∉ pieces := by
  intro hmem
  obtain ⟨group, hgroup⟩ := exists_of_mapM h [] hmem
  exact (hexGroup_eq_some.1 hgroup).1.1 rfl

/-- Pieces without an empty one end before the first empty piece. -/
theorem exists_append_of_empty {pieces others lead rest : List (List Char)}
    (h : pieces ++ others = lead ++ [] :: rest) (hne : [] ∉ pieces) : ∃ more, lead = pieces ++ more := by
  rcases List.append_eq_append_iff.1 h with ⟨more, hlead, -⟩ | ⟨more, hpieces, hmore⟩
  · exact ⟨more, hlead⟩
  · cases more with
    | nil => exact ⟨[], by rw [hpieces, List.append_nil, List.append_nil]⟩
    | cons first more =>
      have hfirst : [] = first := (List.cons.inj hmore).1
      exact absurd (by rw [hpieces, hfirst]; simp) hne

theorem mapM_append_eq_some {left right : List (List Char)} {all : List ℕ}
    (h : (left ++ right).mapM hexGroup = some all) :
    ∃ first rest, left.mapM hexGroup = some first ∧ all = first ++ rest := by
  rw [List.mapM_append] at h
  obtain ⟨first, hfirst, h⟩ := Option.bind_eq_some_iff.1 h
  obtain ⟨rest, -, h⟩ := Option.bind_eq_some_iff.1 h
  exact ⟨first, rest, hfirst, (Option.some.inj h).symm⟩

/-- The groups of an address begin with the pieces that its text begins with. -/
theorem allGroups_begins {pieces : List (List Char)} {rest : List Char} {all : List ℕ}
    (hne : pieces ≠ []) (hcolon : ∀ piece ∈ pieces, ':' ∉ piece) (hempty : [] ∉ pieces)
    (h : allGroups ([':'].intercalate pieces ++ ':' :: rest) = some all) :
    ∃ first others, pieces.mapM hexGroup = some first ∧ all = first ++ others := by
  have hsplit : ([':'].intercalate pieces ++ ':' :: rest).splitOn ':' = pieces ++ rest.splitOn ':' := by
    rw [List.splitOn_append_cons_self, List.splitOn_intercalate ':' hcolon hne]
  rw [allGroups] at h
  cases hgap : splitGap ([':'].intercalate pieces ++ ':' :: rest) with
  | none =>
    rw [hgap] at h
    dsimp only at h
    rw [hsplit] at h
    obtain ⟨first, others, hfirst, -, hall⟩ := groups_append pieces (List.splitOn_ne_nil ':' rest) h
    exact ⟨first, others, hfirst, hall⟩
  | some sides =>
    obtain ⟨before, after⟩ := sides
    rw [hgap] at h
    obtain ⟨left, hleft, h⟩ := Option.bind_eq_some_iff.1 h
    obtain ⟨right, hright, h⟩ := Option.bind_eq_some_iff.1 h
    split at h
    · next hlength =>
      have hall := (Option.some.inj h).symm
      rw [splitGap_eq hgap, List.splitOn_append_cons_self, List.splitOn_cons_eq_if_modifyHead,
        if_pos (by rfl)] at hsplit
      obtain ⟨more, hmore⟩ := exists_append_of_empty hsplit.symm hempty
      rw [leftGroups] at hleft
      by_cases hbefore : before = []
      · obtain ⟨piece, others, rfl⟩ := List.exists_cons_of_ne_nil hne
        rw [hbefore, List.splitOn_nil] at hmore
        exact absurd (by rw [(List.cons.inj hmore).1]; exact List.mem_cons_self) hempty
      · rw [if_neg hbefore, hmore] at hleft
        obtain ⟨first, others, hfirst, rfl⟩ := mapM_append_eq_some hleft
        exact ⟨first, _, hfirst, by rw [hall, List.append_assoc, List.append_assoc]⟩
    · cases h

theorem mem_intercalate {c sep : Char} {pieces : List (List Char)}
    (h : c ∈ [sep].intercalate pieces) : c = sep ∨ ∃ piece ∈ pieces, c ∈ piece := by
  induction pieces with
  | nil => cases h
  | cons piece pieces ih =>
    cases pieces with
    | nil =>
      rw [List.intercalate_singleton] at h
      exact Or.inr ⟨piece, List.mem_cons_self, h⟩
    | cons next pieces =>
      rw [List.intercalate_cons_cons, List.mem_append, List.mem_append] at h
      rcases h with (hpiece | hsep) | hrest
      · exact Or.inr ⟨piece, List.mem_cons_self, hpiece⟩
      · exact Or.inl (List.mem_singleton.1 hsep)
      · rcases ih hrest with hsep | ⟨other, hmem, hc⟩
        · exact Or.inl hsep
        · exact Or.inr ⟨other, List.mem_cons_of_mem _ hmem, hc⟩

/-- The address of a text begins with the groups that the text begins with. -/
theorem address_begins {text : List Char} {a : V6} (pieces : List (List Char)) (rest : List Char)
    (h : address text = some (.v6 a)) (hne : pieces ≠ [])
    (hpieces : ∀ piece ∈ pieces, piece ≠ [] ∧ ':' ∉ piece ∧ '%' ∉ piece)
    (htext : text = [':'].intercalate pieces ++ ':' :: rest) :
    ∃ first others, pieces.mapM hexGroup = some first ∧ a.parts = first ++ others := by
  obtain ⟨-, hall⟩ := coloned_eq_some.1 (address_v6 h).2
  have hlead : ∀ c ∈ [':'].intercalate pieces, decide (c ≠ '%') = true := by
    intro c hc
    rcases mem_intercalate hc with rfl | ⟨piece, hmem, hc⟩
    · decide
    · exact decide_eq_true fun heq => (hpieces piece hmem).2.2 (heq ▸ hc)
  rw [htext, List.takeWhile_append_of_pos hlead, List.takeWhile_cons_of_pos (by decide)] at hall
  exact allGroups_begins hne (fun piece hmem => (hpieces piece hmem).2.1)
    (fun hmem => (hpieces [] hmem).1 rfl) hall

/-- Only a gap can begin a text with a colon. -/
theorem allGroups_empty_piece {rest : List Char} {all : List ℕ}
    (h : allGroups (':' :: rest) = some all) : all.head? = some 0 := by
  rw [allGroups] at h
  cases hgap : splitGap (':' :: rest) with
  | none =>
    rw [hgap] at h
    dsimp only at h
    rw [List.splitOn_cons_eq_if_modifyHead, if_pos (by rfl)] at h
    obtain ⟨first, others, hfirst, -⟩ := groups_append [[]] (List.splitOn_ne_nil ':' rest) h
    exact absurd List.mem_cons_self (mapM_hexGroup_ne_nil hfirst)
  | some sides =>
    obtain ⟨before, after⟩ := sides
    rw [hgap] at h
    obtain ⟨left, hleft, h⟩ := Option.bind_eq_some_iff.1 h
    obtain ⟨right, hright, h⟩ := Option.bind_eq_some_iff.1 h
    split at h
    · next hlength =>
      have hparts := (Option.some.inj h).symm
      cases before with
      | nil =>
        rw [leftGroups, if_pos rfl] at hleft
        obtain rfl := Option.some.inj hleft
        obtain ⟨zeros, hzeros⟩ : ∃ zeros, 8 - ([] : List ℕ).length - right.length = zeros + 1 :=
          ⟨7 - right.length, by rw [List.length_nil] at hlength ⊢; omega⟩
        rw [hparts, hzeros]
        rfl
      | cons c before =>
        have hc : ':' = c := (List.cons.inj (splitGap_eq hgap)).1
        rw [leftGroups, if_neg (List.cons_ne_nil _ _), ← hc, List.splitOn_cons_eq_if_modifyHead,
          if_pos (by rfl)] at hleft
        exact absurd List.mem_cons_self (mapM_hexGroup_ne_nil hleft)
    · cases h

/-- The first group stands before the first colon; if nothing stands there, it is zero. -/
theorem exists_first_piece {text : List Char} {a : V6} (h : address text = some (.v6 a)) :
    ∃ piece rest, text = piece ++ ':' :: rest ∧ ':' ∉ piece ∧ '%' ∉ piece ∧
      (piece = [] → a.parts.head? = some 0) := by
  obtain ⟨-, hall⟩ := coloned_eq_some.1 (address_v6 h).2
  obtain ⟨tail, htail⟩ := List.takeWhile_prefix (l := text) (fun c => decide (c ≠ '%'))
  have hpercent : '%' ∉ text.takeWhile (· ≠ '%') := fun hmem =>
    absurd (List.all_eq_true.1 List.all_takeWhile _ hmem) (by decide)
  generalize text.takeWhile (· ≠ '%') = body at hall htail hpercent
  -- the text before the zone has a colon, since one piece is at most two groups
  have hcolon : ':' ∈ body := by
    by_contra hno
    have hgap : splitGap body = none := by
      cases hgap : splitGap body with
      | none => rfl
      | some sides => exact absurd (by rw [splitGap_eq hgap]; simp) hno
    rw [allGroups, hgap] at hall
    dsimp only at hall
    rw [List.splitOn_eq_singleton hno] at hall
    have hle := groups_length_le hall
    rw [a.length_eq, List.length_singleton] at hle
    exact absurd hle (by decide)
  obtain ⟨piece, rest, hbody, hpiece⟩ := List.eq_append_cons_of_mem hcolon
  refine ⟨piece, rest ++ tail, ?_, hpiece, fun hmem => hpercent ?_, ?_⟩
  · rw [← htail, hbody, List.append_assoc, List.cons_append]
  · rw [hbody]
    exact List.mem_append_left _ hmem
  · rintro rfl
    rw [List.nil_append] at hbody
    exact allGroups_empty_piece (hbody ▸ hall)

/-! ### Writing a group -/

theorem digitValue_lt (c : Char) : digitValue c < 16 := by
  simp only [digitValue, isDigit, decide_eq_true_eq, Bool.decide_and, Bool.and_eq_true, Char.le_def,
    UInt32.le_iff_toNat_le]
  simp only [Char.toNat, Char.reduceVal, UInt32.reduceToNat]
  split_ifs <;> omega

theorem numeral_append (base : ℕ) (left right : List Char) :
    numeral base (left ++ right) = numeral base left * base ^ right.length + numeral base right := by
  have hfold : ∀ (n : ℕ) (text : List Char),
      text.foldl (fun n c => n * base + digitValue c) n =
        n * base ^ text.length + numeral base text := by
    intro n text
    induction text generalizing n with
    | nil => simp [numeral]
    | cons c rest ih =>
      rw [numeral, List.foldl_cons, List.foldl_cons, ih, ih (0 * base + digitValue c),
        List.length_cons, pow_succ]
      ring
  rw [numeral, List.foldl_append, hfold]
  rfl

theorem numeral_lt (text : List Char) :
    numeral 16 text < 16 ^ text.length := by
  induction text with
  | nil => exact Nat.one_pos
  | cons c rest ih =>
    have hsplit := numeral_append 16 [c] rest
    have hdigit : numeral 16 [c] = digitValue c := by simp [numeral]
    have hlt := digitValue_lt c
    rw [List.singleton_append, hdigit] at hsplit
    rw [hsplit, List.length_cons, pow_succ]
    nlinarith

/-- What a group begins with is its value up to the last digits. -/
theorem hexGroup_begins {lead : List Char} {piece : List Char} {group : ℕ}
    (h : hexGroup piece = some group) (hlead : lead <+: piece) :
    ∃ more, lead.length + more = piece.length ∧ group / 16 ^ more = numeral 16 lead := by
  obtain ⟨-, rfl⟩ := hexGroup_eq_some.1 h
  obtain ⟨tail, rfl⟩ := hlead
  refine ⟨tail.length, List.length_append.symm, ?_⟩
  rw [numeral_append, Nat.mul_comm, Nat.mul_add_div (Nat.pow_pos (by decide)),
    Nat.div_eq_of_lt (numeral_lt tail), Nat.add_zero]

/-- Four digits. -/
def fourDigits (group : ℕ) : List Char :=
  [group / 4096, group / 256 % 16, group / 16 % 16, group % 16].map Nat.digitChar

theorem digitChar_isHexDigit {n : ℕ} (h : n < 16) :
    isHexDigit n.digitChar = true ∧ digitValue n.digitChar = n := by
  interval_cases n <;> decide

theorem hexGroup_fourDigits {group : ℕ} (h : group < 2 ^ 16) :
    hexGroup (fourDigits group) = some group := by
  have h3 := digitChar_isHexDigit (n := group / 4096) (by omega)
  have h2 := digitChar_isHexDigit (n := group / 256 % 16) (by omega)
  have h1 := digitChar_isHexDigit (n := group / 16 % 16) (by omega)
  have h0 := digitChar_isHexDigit (n := group % 16) (by omega)
  refine hexGroup_eq_some.2 ⟨⟨List.cons_ne_nil _ _, le_refl 4, ?_⟩, ?_⟩
  · simp [fourDigits, h3.1, h2.1, h1.1, h0.1]
  · simp only [fourDigits, numeral, List.map_cons, List.map_nil, List.foldl_cons, List.foldl_nil,
      h3.2, h2.2, h1.2, h0.2]
    omega

/-- A small hexadecimal digit is the one that its value is written with. -/
theorem digitChar_digitValue {c : Char} (h : isHexDigit c = true) (hlower : c.toLower = c) :
    (digitValue c).digitChar = c := by
  have hcase : ∀ n < 103, isHexDigit (Char.ofNat n) = true → (Char.ofNat n).toLower = Char.ofNat n →
      (digitValue (Char.ofNat n)).digitChar = Char.ofNat n := by decide
  have hbound : c.toNat < 103 := by
    simp only [isHexDigit, isDigit, decide_eq_true_eq, Bool.decide_and, Bool.and_eq_true,
      Bool.decide_or, Bool.or_eq_true, Char.le_def, UInt32.le_iff_toNat_le, Char.reduceVal,
      UInt32.reduceToNat] at h
    rw [Char.toNat]
    omega
  have hsame := hcase c.toNat hbound
  rw [Char.ofNat_toNat] at hsame
  exact hsame h hlower

/-- A group from 0x1000 on has one text in small letters. -/
theorem hexGroup_eq_fourDigits {piece : List Char} {group : ℕ} (h : hexGroup piece = some group)
    (hlarge : 0x1000 ≤ group) (hlower : lower piece = piece) : piece = fourDigits group := by
  obtain ⟨⟨-, hlength, hall⟩, rfl⟩ := hexGroup_eq_some.1 h
  have hlt := numeral_lt piece
  have hfour : piece.length = 4 := by
    by_contra hne
    have hle : 16 ^ piece.length ≤ 16 ^ 3 := Nat.pow_le_pow_right (by decide) (by omega)
    omega
  match piece, hfour with
  | [c3, c2, c1, c0], _ =>
    simp only [lower, List.map_cons, List.map_nil, List.cons.injEq, and_true] at hlower
    simp only [List.all_cons, List.all_nil, Bool.and_eq_true, and_true] at hall
    obtain ⟨l3, l2, l1, l0⟩ := hlower
    obtain ⟨d3, d2, d1, d0⟩ := hall
    have b2 := digitValue_lt c2
    have b1 := digitValue_lt c1
    have b0 := digitValue_lt c0
    have hvalue : numeral 16 [c3, c2, c1, c0] =
        ((digitValue c3 * 16 + digitValue c2) * 16 + digitValue c1) * 16 + digitValue c0 := by
      simp [numeral]
    rw [fourDigits, hvalue, List.map_cons, List.map_cons, List.map_cons, List.map_cons, List.map_nil]
    have e3 : (((digitValue c3 * 16 + digitValue c2) * 16 + digitValue c1) * 16 + digitValue c0) / 4096 =
        digitValue c3 := by omega
    have e2 : (((digitValue c3 * 16 + digitValue c2) * 16 + digitValue c1) * 16 + digitValue c0) / 256 %
        16 = digitValue c2 := by omega
    have e1 : (((digitValue c3 * 16 + digitValue c2) * 16 + digitValue c1) * 16 + digitValue c0) / 16 %
        16 = digitValue c1 := by omega
    have e0 : (((digitValue c3 * 16 + digitValue c2) * 16 + digitValue c1) * 16 + digitValue c0) % 16 =
        digitValue c0 := by omega
    rw [e3, e2, e1, e0, digitChar_digitValue d3 l3, digitChar_digitValue d2 l2,
      digitChar_digitValue d1 l1, digitChar_digitValue d0 l0]

/-! ### Writing an address -/

theorem hexGroup_chars {piece : List Char} {group : ℕ} (h : hexGroup piece = some group) :
    ':' ∉ piece ∧ '.' ∉ piece ∧ '%' ∉ piece := by
  have hall := List.all_eq_true.1 (hexGroup_eq_some.1 h).1.2.2
  exact ⟨fun hc => absurd (hall _ hc) (by decide), fun hc => absurd (hall _ hc) (by decide),
    fun hc => absurd (hall _ hc) (by decide)⟩

theorem hexGroup_eq_none {piece : List Char} (hdot : '.' ∈ piece) : hexGroup piece = none := by
  cases hgroup : hexGroup piece with
  | none => rfl
  | some group => exact absurd hdot (hexGroup_chars hgroup).2.1

theorem groups_of_mapM {pieces : List (List Char)} {all : List ℕ}
    (h : pieces.mapM hexGroup = some all) : groups pieces = some all := by
  induction pieces generalizing all with
  | nil => exact h
  | cons piece pieces ih =>
    rw [List.mapM_cons] at h
    obtain ⟨group, hgroup, h⟩ := Option.bind_eq_some_iff.1 h
    obtain ⟨others, hothers, hall⟩ := Option.bind_eq_some_iff.1 h
    obtain rfl := Option.some.inj hall
    cases pieces with
    | nil =>
      obtain rfl := Option.some.inj hothers
      rw [groups.eq_def]
      dsimp only
      rw [hgroup]
      rfl
    | cons next pieces => rw [groups_cons, hgroup, ih hothers, Option.bind_some, Option.map_some]

/-- Eight groups between colons denote the address that has them. -/
theorem address_intercalate {pieces : List (List Char)} {a : V6}
    (h : pieces.mapM hexGroup = some a.parts) :
    address ([':'].intercalate pieces) = some (.v6 a) := by
  have hgroup := exists_of_mapM h
  have hne : pieces ≠ [] := by
    rintro rfl
    have hlength := a.length_eq
    rw [← Option.some.inj h] at hlength
    cases hlength
  have hchar : ∀ c, (c = '.' ∨ c = '%') → c ∉ [':'].intercalate pieces := by
    intro c hc hmem
    rcases mem_intercalate hmem with rfl | ⟨piece, hpiece, hmem⟩
    · rcases hc with hc | hc <;> cases hc
    · obtain ⟨group, hgroup⟩ := hgroup piece hpiece
      rcases hc with rfl | rfl
      · exact (hexGroup_chars hgroup).2.1 hmem
      · exact (hexGroup_chars hgroup).2.2 hmem
  have hdotted : dotted ([':'].intercalate pieces) = none := by
    rw [dotted, List.splitOn_eq_singleton (hchar '.' (Or.inl rfl))]
    cases hbyte : decimalByte ([':'].intercalate pieces) with
    | none => simp [hbyte]
    | some byte =>
      have hone : [[':'].intercalate pieces].mapM decimalByte = some [byte] := by
        rw [List.mapM_cons, hbyte]
        rfl
      rw [hone, Option.bind_some, Parts.ofList?, dif_neg]
      exact fun hlength => (by decide : (1 : ℕ) ≠ 4) hlength.1
  have hpercent : ∀ c ∈ [':'].intercalate pieces, decide (c ≠ '%') = true := fun c hc =>
    decide_eq_true fun heq => hchar c (Or.inr heq) hc
  have hsplit : ([':'].intercalate pieces).splitOn ':' = pieces :=
    List.splitOn_intercalate ':' (fun piece hpiece => by
      obtain ⟨group, hgroup⟩ := hgroup piece hpiece
      exact (hexGroup_chars hgroup).1) hne
  have hgap : splitGap ([':'].intercalate pieces) = none := by
    cases hgap : splitGap ([':'].intercalate pieces) with
    | none => rfl
    | some sides =>
      rw [splitGap_eq hgap, List.splitOn_append_cons_self, List.splitOn_cons_eq_if_modifyHead,
        if_pos (by rfl)] at hsplit
      exact absurd (by rw [← hsplit]; simp) (mapM_hexGroup_ne_nil h)
  have hcoloned : coloned ([':'].intercalate pieces) = some a := by
    refine coloned_eq_some.2 ⟨?_, ?_⟩
    · rw [List.dropWhile_eq_nil_iff.2 hpercent]
      rfl
    · rw [List.takeWhile_eq_self_iff.2 hpercent, allGroups, hgap]
      dsimp only
      rw [hsplit]
      exact groups_of_mapM h
  rw [address, hdotted]
  exact congrArg (Option.map Address.v6) hcoloned

/-! ### Mapped addresses -/

theorem splitOn_mapped {quadText : List Char} (hcolon : ':' ∉ quadText) :
    ("ffff:".toList ++ quadText).splitOn ':' = ["ffff".toList, quadText] := by
  rw [show "ffff:".toList ++ quadText = "ffff".toList ++ ':' :: quadText from rfl,
    List.splitOn_append_cons_self_of_not_mem (by decide), List.splitOn_eq_singleton hcolon]

theorem no_zone_mapped {quadText : List Char} (hpercent : '%' ∉ quadText) :
    ∀ c ∈ "::ffff:".toList ++ quadText, decide (c ≠ '%') = true := by
  intro c hc
  refine decide_eq_true ?_
  rintro rfl
  rcases List.mem_append.1 hc with hlead | hquad
  · exact absurd hlead (by decide)
  · exact hpercent hquad

/-- The text of a mapped address with a quad at its end. -/
theorem address_mapped {quadText : List Char} {a : V6} (hdot : '.' ∈ quadText)
    (hcolon : ':' ∉ quadText) (hpercent : '%' ∉ quadText)
    (h : address ("::ffff:".toList ++ quadText) = some (.v6 a)) :
    ∃ quad, dotted quadText = some quad ∧ Mapped a quad := by
  obtain ⟨-, hall⟩ := coloned_eq_some.1 (address_v6 h).2
  rw [List.takeWhile_eq_self_iff.2 (no_zone_mapped hpercent), allGroups,
    show splitGap ("::ffff:".toList ++ quadText) = some ([], "ffff:".toList ++ quadText) from rfl] at hall
  obtain ⟨left, hleft, hall⟩ := Option.bind_eq_some_iff.1 hall
  obtain rfl : left = [] := (Option.some.inj hleft).symm
  obtain ⟨right, hright, hall⟩ := Option.bind_eq_some_iff.1 hall
  rw [rightGroups, if_neg (by exact List.cons_ne_nil _ _), splitOn_mapped hcolon, groups_cons,
    show hexGroup "ffff".toList = some 0xffff by decide] at hright
  obtain ⟨others, hothers, rfl⟩ := Option.map_eq_some_iff.1 hright
  rw [groups.eq_def] at hothers
  dsimp only at hothers
  rw [hexGroup_eq_none hdot] at hothers
  obtain ⟨quad, hquad, rfl⟩ := Option.map_eq_some_iff.1 hothers
  refine ⟨quad, hquad, ?_⟩
  rw [List.length_cons, quadGroups_length, if_pos (by decide)] at hall
  exact (Option.some.inj hall).symm

theorem decimalByte_chars {piece : List Char} {byte : ℕ} (h : decimalByte piece = some byte) :
    piece ≠ [] ∧ piece.all isDigit = true := by
  rw [decimalByte] at h
  split at h
  · next hdigits => exact ⟨hdigits.1, hdigits.2.1⟩
  · cases h

theorem decimalByte_toDigits : ∀ byte < 256, decimalByte (Nat.toDigits 10 byte) = some byte := by decide +kernel

theorem mapM_decimalByte_mem {pieces : List (List Char)} {bytes : List ℕ}
    (h : pieces.mapM decimalByte = some bytes) :
    ∀ piece ∈ pieces, piece ≠ [] ∧ piece.all isDigit = true := by
  intro piece hmem
  obtain ⟨byte, hbyte⟩ := exists_of_mapM h piece hmem
  exact decimalByte_chars hbyte

/-- A quad has digits and dots. -/
theorem dotted_chars {text : List Char} {quad : V4} (h : dotted text = some quad) :
    '.' ∈ text ∧ ∀ c ∈ text, c = '.' ∨ isDigit c = true := by
  obtain ⟨bytes, hbytes, hquad⟩ := Option.bind_eq_some_iff.1 h
  obtain rfl := ofList?_eq_some.1 hquad
  have hpieces := mapM_decimalByte_mem hbytes
  constructor
  · by_contra hdot
    rw [List.splitOn_eq_singleton hdot, List.mapM_cons] at hbytes
    obtain ⟨byte, -, hbytes⟩ := Option.bind_eq_some_iff.1 hbytes
    have hlength := quad.length_eq
    rw [← Option.some.inj hbytes] at hlength
    exact (by decide : (1 : ℕ) ≠ 4) hlength
  · intro c hc
    have hsplit : ['.'].intercalate (text.splitOn '.') = text := List.intercalate_splitOn '.'
    rw [← hsplit] at hc
    rcases mem_intercalate hc with hdot | ⟨piece, hmem, hc⟩
    · exact Or.inl hdot
    · exact Or.inr (List.all_eq_true.1 (hpieces piece hmem).2 c hc)

/-- Four bytes between dots are the quad that has them. -/
theorem dotted_intercalate {pieces : List (List Char)} {quad : V4}
    (h : pieces.mapM decimalByte = some quad.parts) : dotted (['.'].intercalate pieces) = some quad := by
  have hne : pieces ≠ [] := by
    rintro rfl
    have hlength := quad.length_eq
    rw [← Option.some.inj h] at hlength
    cases hlength
  rw [dotted, List.splitOn_intercalate '.' ?_ hne, h]
  · exact ofList?_eq_some.2 rfl
  · intro piece hmem hdot
    exact absurd (List.all_eq_true.1 (mapM_decimalByte_mem h piece hmem).2 _ hdot) (by decide)

/-- A quad behind six groups, of which the last is 0xffff, denotes the mapped address. -/
theorem mapped_address {quadText : List Char} {quad : V4} {a : V6} (h : dotted quadText = some quad)
    (ha : Mapped a quad) : address ("::ffff:".toList ++ quadText) = some (.v6 a) := by
  obtain ⟨hdot, hchars⟩ := dotted_chars h
  have hnot : ∀ c, isDigit c = false → c ≠ '.' → c ∉ quadText := by
    intro c hdigit hne hc
    rcases hchars c hc with rfl | hdigit'
    · exact hne rfl
    · rw [hdigit] at hdigit'
      cases hdigit'
  have hdotted : dotted ("::ffff:".toList ++ quadText) = none := by
    cases hquad : dotted ("::ffff:".toList ++ quadText) with
    | none => rfl
    | some other =>
      rcases (dotted_chars hquad).2 ':' (by simp) with hc | hc <;> cases hc
  have hlast : groups [quadText] = some (quadGroups quad) := by
    rw [groups.eq_def]
    dsimp only
    rw [hexGroup_eq_none hdot, h]
    rfl
  have hright : rightGroups ("ffff:".toList ++ quadText) = some (0xffff :: quadGroups quad) := by
    rw [rightGroups, if_neg (by exact List.cons_ne_nil _ _), splitOn_mapped (hnot ':' (by decide) (by decide)),
      groups_cons, hlast, show hexGroup "ffff".toList = some 0xffff by decide]
    rfl
  have hcoloned : coloned ("::ffff:".toList ++ quadText) = some a := by
    have hzone := no_zone_mapped (hnot '%' (by decide) (by decide))
    refine coloned_eq_some.2 ⟨by rw [List.dropWhile_eq_nil_iff.2 hzone]; rfl, ?_⟩
    rw [List.takeWhile_eq_self_iff.2 hzone, allGroups,
      show splitGap ("::ffff:".toList ++ quadText) = some ([], "ffff:".toList ++ quadText) from rfl]
    dsimp only
    rw [hright, ha]
    have hlength := quadGroups_length quad
    match quadGroups quad, hlength with
    | [_, _], _ => rfl
  rw [address, hdotted]
  exact congrArg (Option.map Address.v6) hcoloned

end HuntWarden.Inet
