import HuntWarden.Lib.JsonText
import HuntWarden.Lib.Utf8
import Mathlib.Algebra.GroupWithZero.Nat
import Mathlib.Data.List.TakeWhile

/-! Texts of UTF-16 code units and their UTF-8 form. A lone surrogate is written as U+FFFD. Cutting the
    bytes of a text at a budget and reading them back gives the code points that fit as a whole, and one
    U+FFFD where the cut goes through a sequence. -/

namespace HuntWarden.Utf16

open JsonText Utf8

/-- The UTF-8 sequence of a code point. -/
def encodePoint (point : ℕ) : List UInt8 :=
  if surrogate point then [0xEF, 0xBF, 0xBD]
  else if point < 0x80 then [.ofNat point]
  else if point < 0x800 then [.ofNat (0xC0 + point / 0x40), .ofNat (0x80 + point % 0x40)]
  else if point < 0x10000 then
    [.ofNat (0xE0 + point / 0x1000), .ofNat (0x80 + point / 0x40 % 0x40), .ofNat (0x80 + point % 0x40)]
  else
    [.ofNat (0xF0 + point / 0x40000), .ofNat (0x80 + point / 0x1000 % 0x40),
      .ofNat (0x80 + point / 0x40 % 0x40), .ofNat (0x80 + point % 0x40)]

def pointSize (point : ℕ) : ℕ := (encodePoint point).length

def encode (text : Text) : List UInt8 := (codePoints text).flatMap encodePoint

def byteLength (text : Text) : ℕ := (encode text).length

/-- The code units of a code point. -/
def pointUnits (point : ℕ) : Text :=
  if point < 0x10000 then [.ofNat point]
  else [.ofNat (0xD800 + (point - 0x10000) / 0x400), .ofNat (0xDC00 + (point - 0x10000) % 0x400)]

/-- Reads bytes as UTF-8, one U+FFFD for every sequence that is started and not ended. -/
def decode (raw : List UInt8) : Text := (Utf8.decode true raw).flatMap fun read => pointUnits read.1.toNat

def replacementPoint : ℕ := 0xFFFD

/-- The code point that is read back for one that was written. -/
def scalar (point : ℕ) : ℕ := if surrogate point then replacementPoint else point

/-- The code points that are within the budget as a whole. -/
def fitting : ℕ → List ℕ → List ℕ
  | _, [] => []
  | budget, point :: points =>
    if pointSize point ≤ budget then point :: fitting (budget - pointSize point) points else []

def size (points : List ℕ) : ℕ := (points.map pointSize).sum

/-! ### Code points and units -/

theorem pairPoint_units {high low : UInt16} (hhigh : isHigh high = true) (hlow : isLow low = true) :
    pointUnits (pairPoint high low) = [high, low] := by
  simp only [isHigh, isLow, decide_eq_true_eq] at hhigh hlow
  rw [pointUnits, if_neg (by unfold pairPoint; omega)]
  have hfirst : 0xD800 + (pairPoint high low - 0x10000) / 0x400 = high.toNat := by
    unfold pairPoint
    omega
  have hsecond : 0xDC00 + (pairPoint high low - 0x10000) % 0x400 = low.toNat := by
    unfold pairPoint
    omega
  rw [hfirst, hsecond, UInt16.ofNat_toNat, UInt16.ofNat_toNat]

theorem unit_units (unit : UInt16) : pointUnits unit.toNat = [unit] := by
  rw [pointUnits, if_pos unit.toNat_lt, UInt16.ofNat_toNat]

theorem units_codePoints (text : Text) : (codePoints text).flatMap pointUnits = text := by
  induction text using codePoints.induct with
  | case1 => rfl
  | case2 unit => rw [codePoints, List.flatMap_singleton, unit_units]
  | case3 high low rest hpair ih =>
    rw [codePoints, if_pos hpair, List.flatMap_cons, ih]
    rw [Bool.and_eq_true] at hpair
    rw [pairPoint_units hpair.1 hpair.2]
    rfl
  | case4 high low rest hpair ih =>
    rw [codePoints, if_neg hpair, List.flatMap_cons, ih, unit_units]
    rfl

theorem codePoints_apart {high low : UInt16} {rest : Text} (h : ¬ (isHigh high && isLow low) = true) :
    codePoints (high :: low :: rest) = high.toNat :: codePoints (low :: rest) := by
  rw [codePoints, if_neg h]

theorem codePoints_pair {high low : UInt16} {rest : Text} (h : (isHigh high && isLow low) = true) :
    codePoints (high :: low :: rest) = pairPoint high low :: codePoints rest := by
  rw [codePoints, if_pos h]

/-- A text is cut between code points in front of a unit that ends no pair. -/
theorem codePoints_append {unit : UInt16} (hunit : isLow unit = false) (rest text : Text) :
    codePoints (text ++ unit :: rest) = codePoints text ++ codePoints (unit :: rest) := by
  induction text using codePoints.induct with
  | case1 => rfl
  | case2 high => exact codePoints_apart (by rw [hunit, Bool.and_false]; exact Bool.false_ne_true)
  | case3 high low text hpair ih =>
    rw [codePoints_pair hpair, List.cons_append, List.cons_append, codePoints_pair hpair, ih]
    rfl
  | case4 high low text hpair ih =>
    rw [codePoints_apart hpair, List.cons_append, List.cons_append, codePoints_apart hpair]
    exact congrArg (high.toNat :: ·) ih

theorem unit_toNat {n : ℕ} (h : n < 0x10000) : (UInt16.ofNat n).toNat = n := UInt16.toNat_ofNat_of_lt' h

theorem pair_of_point {point : ℕ} (hpoint : 0x10000 ≤ point) (hlt : point < 0x110000) : ∃ high low,
    pointUnits point = [high, low] ∧ (isHigh high && isLow low) = true ∧ pairPoint high low = point := by
  obtain ⟨excess, rfl⟩ := Nat.exists_eq_add_of_le hpoint
  have hhigh := unit_toNat (n := 0xD800 + excess / 0x400) (by omega)
  have hlow := unit_toNat (n := 0xDC00 + excess % 0x400) (by omega)
  refine ⟨.ofNat (0xD800 + excess / 0x400), .ofNat (0xDC00 + excess % 0x400), ?_, ?_, ?_⟩
  · rw [pointUnits, if_neg (not_lt.2 hpoint), Nat.add_sub_cancel_left]
  · rw [isHigh, isLow, hhigh, hlow, Bool.and_eq_true, decide_eq_true_eq, decide_eq_true_eq]
    omega
  · have hpair : ∀ high low : ℕ, high = 0xD800 + excess / 0x400 → low = 0xDC00 + excess % 0x400 →
        0x10000 + (high - 0xD800) * 0x400 + (low - 0xDC00) = 0x10000 + excess := by omega
    exact hpair _ _ hhigh hlow

theorem codePoints_cons {unit : UInt16} (hunit : isHigh unit = false) (rest : Text) :
    codePoints (unit :: rest) = unit.toNat :: codePoints rest := by
  cases rest with
  | nil => rfl
  | cons low rest => exact codePoints_apart (by rw [hunit]; exact Bool.false_ne_true)

/-- The code points of written code points are these, when none of them is a surrogate. -/
theorem codePoints_units_append (rest : Text) : ∀ {points : List ℕ},
    (∀ point ∈ points, ¬ surrogate point = true ∧ point < 0x110000) →
      codePoints (points.flatMap pointUnits ++ rest) = points ++ codePoints rest
  | [], _ => rfl
  | point :: points, hpoints => by
    obtain ⟨hnot, hlt⟩ := hpoints point List.mem_cons_self
    have hrest := codePoints_units_append rest fun other hother => hpoints other (List.mem_cons_of_mem point hother)
    rw [surrogate_iff] at hnot
    rw [List.flatMap_cons, List.append_assoc]
    by_cases hone : point < 0x10000
    · have hunit : (UInt16.ofNat point).toNat = point := unit_toNat hone
      have hhigh : isHigh (UInt16.ofNat point) = false := by
        rw [isHigh, hunit, decide_eq_false_iff_not]
        omega
      rw [pointUnits, if_pos hone, List.singleton_append, codePoints_cons hhigh, hunit, hrest]
      rfl
    · obtain ⟨high, low, hunits, hpair, hpoint⟩ := pair_of_point (not_lt.1 hone) hlt
      rw [hunits, List.cons_append, List.singleton_append, codePoints_pair hpair, hrest, hpoint]
      rfl

theorem codePoints_units {points : List ℕ}
    (hpoints : ∀ point ∈ points, ¬ surrogate point = true ∧ point < 0x110000) :
    codePoints (points.flatMap pointUnits) = points := by
  have happend := codePoints_units_append [] hpoints
  rwa [List.append_nil, codePoints, List.append_nil] at happend

/-! ### Sequences -/

/-- The bytes of a well-formed sequence, apart from what they stand for. -/
structure Sequence (first : UInt8) (tail : List UInt8) : Prop where
  width : width first = tail.length + 1
  ascii : tail = [] → first < 0x80
  second : ∀ b more, tail = b :: more → isSecond first b = true
  tails : ∀ b ∈ tail, isTail b = true

theorem Sequence.left {first b : UInt8} {more : List UInt8} (h : Sequence first (b :: more)) :
    Utf8.width first - 2 = more.length := by
  rw [h.width, List.length_cons]
  omega

theorem following_append {first : UInt8} {tail : List UInt8} (h : Sequence first tail) (rest : List UInt8) :
    following first (tail ++ rest) = tail.length := by
  cases tail with
  | nil =>
    cases rest with
    | nil => rfl
    | cons b rest => rw [List.nil_append, following, if_neg (by rw [h.width]; simp)]; rfl
  | cons b more =>
    rw [List.cons_append, following, if_pos ⟨by rw [h.width]; simp, h.second b more rfl⟩, h.left]
    have htake : (more ++ rest).take more.length = more := List.take_left' rfl
    rw [htake, List.takeWhile_eq_self_iff.2 fun x hx => h.tails x (List.mem_cons_of_mem _ hx), List.length_cons,
      Nat.add_comm]

/-- A sequence that is cut off is one replacement. -/
theorem following_take {first : UInt8} {tail : List UInt8} (h : Sequence first tail) {n : ℕ}
    (hn : n ≤ tail.length) : following first (tail.take n) = n := by
  cases tail with
  | nil => rw [List.take_nil, Nat.le_zero.1 hn]; rfl
  | cons b more =>
    cases n with
    | zero => rfl
    | succ n =>
      rw [List.take_succ_cons, following, if_pos ⟨by rw [h.width]; simp, h.second b more rfl⟩, h.left, List.take_take]
      rw [List.takeWhile_eq_self_iff.2 fun x hx =>
        h.tails x (List.mem_cons_of_mem _ (List.mem_of_mem_take hx)), List.length_take]
      rw [List.length_cons] at hn
      omega

theorem width_eq (first : UInt8) : Utf8.width first =
    if 0xC2 ≤ first.toNat ∧ first.toNat ≤ 0xDF then 2
    else if 0xE0 ≤ first.toNat ∧ first.toNat ≤ 0xEF then 3
    else if 0xF0 ≤ first.toNat ∧ first.toNat ≤ 0xF4 then 4
    else 1 := by
  simp [Utf8.width, UInt8.le_iff_toNat_le]

theorem isTail_iff {b : UInt8} : isTail b = true ↔ 0x80 ≤ b.toNat ∧ b.toNat ≤ 0xBF := by
  simp [isTail, UInt8.le_iff_toNat_le]

theorem isSecond_iff {first second : UInt8} : isSecond first second = true ↔ isTail second = true ∧
    (first.toNat = 0xE0 → 0xA0 ≤ second.toNat) ∧ (first.toNat = 0xED → second.toNat ≤ 0x9F) ∧
    (first.toNat = 0xF0 → 0x90 ≤ second.toNat) ∧ (first.toNat = 0xF4 → second.toNat ≤ 0x8F) := by
  rw [isSecond, Bool.and_eq_true]
  refine and_congr_right fun _ => ?_
  simp only [← UInt8.toNat_inj, UInt8.le_iff_toNat_le, UInt8.reduceToNat]
  split_ifs <;> simp only [decide_eq_true_eq, eq_self, true_iff] <;> omega

theorem byte_toNat {n : ℕ} (h : n < 256) : (UInt8.ofNat n).toNat = n := UInt8.toNat_ofNat_of_lt' h

theorem tail_toNat (n : ℕ) : (UInt8.ofNat (0x80 + n % 0x40)).toNat = 0x80 + n % 0x40 := byte_toNat (by omega)

theorem isTail_byte (n : ℕ) : isTail (.ofNat (0x80 + n % 0x40)) = true := by
  rw [isTail_iff, tail_toNat]
  omega

theorem character_two {first b : UInt8} (h : Utf8.width first = 2) :
    character first [b] = Char.ofNat ((first.toNat - 0xC0) * 64 + (b.toNat - 0x80)) := by
  rw [character, h]
  rfl

theorem character_three {first b c : UInt8} (h : Utf8.width first = 3) : character first [b, c] =
    Char.ofNat (((first.toNat - 0xE0) * 64 + (b.toNat - 0x80)) * 64 + (c.toNat - 0x80)) := by
  rw [character, h]
  rfl

theorem character_four {first b c d : UInt8} (h : Utf8.width first = 4) : character first [b, c, d] =
    Char.ofNat ((((first.toNat - 0xF0) * 64 + (b.toNat - 0x80)) * 64 + (c.toNat - 0x80)) * 64 +
      (d.toNat - 0x80)) := by
  rw [character, h]
  rfl

/-- What is written for a code point is one sequence, and it is read back as that code point. -/
theorem encodePoint_sequence {point : ℕ} (hpoint : point < 0x110000) : ∃ first tail,
    encodePoint point = first :: tail ∧ Sequence first tail ∧ character first tail = Char.ofNat (scalar point) := by
  by_cases hsurrogate : surrogate point = true
  · rw [encodePoint, if_pos hsurrogate, scalar, if_pos hsurrogate]
    refine ⟨0xEF, [0xBF, 0xBD], rfl, ⟨rfl, nofun, by rintro _ _ ⟨⟩; rfl, ?_⟩, rfl⟩
    rw [List.forall_mem_cons, List.forall_mem_singleton]
    exact ⟨rfl, rfl⟩
  rw [encodePoint, if_neg hsurrogate, scalar, if_neg hsurrogate]
  rw [surrogate_iff] at hsurrogate
  by_cases hone : point < 0x80
  · rw [if_pos hone]
    have hfirst := byte_toNat (n := point) (by omega)
    refine ⟨_, [], rfl, ⟨?_, fun _ => ?_, nofun, nofun⟩, ?_⟩
    · rw [width_eq, hfirst, if_neg (by omega), if_neg (by omega), if_neg (by omega)]
      rfl
    · rw [UInt8.lt_iff_toNat_lt, hfirst]
      exact hone
    · rw [character, width_eq, hfirst, if_neg (by omega), if_neg (by omega), if_neg (by omega)]
      rfl
  rw [if_neg hone]
  by_cases htwo : point < 0x800
  · rw [if_pos htwo]
    have hfirst := byte_toNat (n := 0xC0 + point / 0x40) (by omega)
    have hwidth : Utf8.width (.ofNat (0xC0 + point / 0x40)) = 2 := by
      rw [width_eq, hfirst, if_pos (by omega)]
    refine ⟨_, [_], rfl, ⟨hwidth, nofun, ?_, ?_⟩, ?_⟩
    · rintro b _ ⟨⟩
      rw [isSecond_iff, hfirst]
      exact ⟨isTail_byte _, by omega⟩
    · rintro b hb
      rw [List.mem_singleton.1 hb]
      exact isTail_byte _
    · rw [character_two hwidth, hfirst, tail_toNat]
      exact congrArg Char.ofNat (by omega)
  rw [if_neg htwo]
  by_cases hthree : point < 0x10000
  · rw [if_pos hthree]
    have hfirst := byte_toNat (n := 0xE0 + point / 0x1000) (by omega)
    have hwidth : Utf8.width (.ofNat (0xE0 + point / 0x1000)) = 3 := by
      rw [width_eq, hfirst, if_neg (by omega), if_pos (by omega)]
    refine ⟨_, [_, _], rfl, ⟨hwidth, nofun, ?_, ?_⟩, ?_⟩
    · rintro b _ ⟨⟩
      rw [isSecond_iff, hfirst, tail_toNat]
      exact ⟨isTail_byte _, by omega⟩
    · rintro b hb
      rcases List.mem_cons.1 hb with rfl | hb
      · exact isTail_byte _
      · rw [List.mem_singleton.1 hb]
        exact isTail_byte _
    · rw [character_three hwidth, hfirst, tail_toNat, tail_toNat]
      exact congrArg Char.ofNat (by omega)
  · rw [if_neg hthree]
    have hfirst := byte_toNat (n := 0xF0 + point / 0x40000) (by omega)
    have hwidth : Utf8.width (.ofNat (0xF0 + point / 0x40000)) = 4 := by
      rw [width_eq, hfirst, if_neg (by omega), if_neg (by omega), if_pos (by omega)]
    refine ⟨_, [_, _, _], rfl, ⟨hwidth, nofun, ?_, ?_⟩, ?_⟩
    · rintro b _ ⟨⟩
      rw [isSecond_iff, hfirst, tail_toNat]
      exact ⟨isTail_byte _, by omega⟩
    · rintro b hb
      rcases List.mem_cons.1 hb with rfl | hb
      · exact isTail_byte _
      · rcases List.mem_cons.1 hb with rfl | hb
        · exact isTail_byte _
        · rw [List.mem_singleton.1 hb]
          exact isTail_byte _
    · rw [character_four hwidth, hfirst, tail_toNat, tail_toNat, tail_toNat]
      exact congrArg Char.ofNat (by omega)

/-! ### Reading back -/

theorem chars_decodeFrom (whole : Bool) : ∀ (raw : List UInt8) (index index' skip : ℕ),
    (decodeFrom whole index skip raw).map Prod.fst = (decodeFrom whole index' skip raw).map Prod.fst
  | [], _, _, skip => by cases skip <;> rfl
  | first :: rest, index, index', 0 => by
    rw [decodeFrom, decodeFrom, List.map_cons, List.map_cons, chars_decodeFrom whole rest _ (index' + 1)]
  | _ :: rest, index, index', skip + 1 => by
    rw [decodeFrom, decodeFrom, chars_decodeFrom whole rest _ (index' + 1)]

theorem chars_skip (whole : Bool) : ∀ (taken rest : List UInt8) (index : ℕ),
    (decodeFrom whole index taken.length (taken ++ rest)).map Prod.fst =
      (decodeFrom whole 0 0 rest).map Prod.fst
  | [], rest, index => chars_decodeFrom whole rest index 0 0
  | _ :: taken, rest, index => by
    rw [List.length_cons, List.cons_append, decodeFrom, chars_skip whole taken rest]

theorem decode_eq (raw : List UInt8) :
    decode raw = ((decodeFrom true 0 0 raw).map Prod.fst).flatMap fun ch => pointUnits ch.toNat := by
  rw [decode, Utf8.decode, List.flatMap_map]

theorem decode_sequence {first : UInt8} {tail : List UInt8} (h : Sequence first tail) (rest : List UInt8) :
    decode (first :: (tail ++ rest)) = pointUnits (character first tail).toNat ++ decode rest := by
  have hstep : Utf8.step true first (tail ++ rest) = (character first tail, tail.length) := by
    have hends : Utf8.width first ≠ 1 ∨ first < 0x80 := by
      rw [h.width]
      cases tail with
      | nil => exact Or.inr (h.ascii rfl)
      | cons b more => exact Or.inl (by simp)
    rw [Utf8.step, following_append h, if_pos ⟨h.width.symm, hends⟩, List.take_left' rfl]
  rw [decode_eq, decode_eq, decodeFrom, hstep, List.map_cons, List.flatMap_cons, chars_skip]

/-- A sequence that is cut off is read as one replacement. -/
theorem decode_cut {first : UInt8} {tail : List UInt8} (h : Sequence first tail) {n : ℕ}
    (hn : n < tail.length) : decode (first :: tail.take n) = pointUnits replacementPoint := by
  have hstep : Utf8.step true first (tail.take n) = (replacement, n) := by
    rw [Utf8.step, following_take h hn.le,
      if_neg (fun hcomplete => absurd hcomplete.1 (by rw [h.width]; omega)), if_pos rfl]
  have hlength : (tail.take n).length = n := by
    rw [List.length_take]
    exact min_eq_left hn.le
  have hrest : (decodeFrom true 1 n (tail.take n)).map Prod.fst = [] := by
    have hskip := chars_skip true (tail.take n) [] 1
    rwa [hlength, List.append_nil] at hskip
  rw [decode_eq, decodeFrom, hstep, List.map_cons, hrest]
  rfl

theorem scalar_lt {point : ℕ} (h : point < 0x110000) : scalar point < 0x110000 := by
  rw [scalar]
  split
  · decide
  · exact h

theorem scalar_not_surrogate (point : ℕ) : ¬ surrogate (scalar point) = true := by
  rw [scalar]
  split
  · decide
  · assumption

theorem decode_point {point : ℕ} (h : point < 0x110000) (rest : List UInt8) :
    decode (encodePoint point ++ rest) = pointUnits (scalar point) ++ decode rest := by
  obtain ⟨first, tail, hencode, hsequence, hcharacter⟩ := encodePoint_sequence h
  rw [hencode, List.cons_append, decode_sequence hsequence, hcharacter,
    toNat_ofNat (scalar_not_surrogate point) (scalar_lt h)]

theorem decode_point_cut {point n : ℕ} (h : point < 0x110000) (hpos : 0 < n) (hn : n < pointSize point) :
    decode ((encodePoint point).take n) = pointUnits replacementPoint := by
  obtain ⟨first, tail, hencode, hsequence, -⟩ := encodePoint_sequence h
  rw [pointSize, hencode, List.length_cons] at hn
  obtain ⟨n, rfl⟩ := Nat.exists_eq_add_of_le' hpos
  rw [hencode, List.take_succ_cons]
  exact decode_cut hsequence (by omega)

/-! ### Cutting at a budget -/

theorem size_fitting_le : ∀ (points : List ℕ) (budget : ℕ), size (fitting budget points) ≤ budget
  | [], _ => Nat.zero_le _
  | point :: points, budget => by
    rw [fitting]
    split
    · rename_i hfits
      have hrest := size_fitting_le points (budget - pointSize point)
      rw [size, List.map_cons, List.sum_cons, ← size]
      omega
    · exact Nat.zero_le _

theorem prefix_of_fitting : ∀ (points : List ℕ) (budget : ℕ), fitting budget points <+: points
  | [], _ => List.nil_prefix
  | point :: points, budget => by
    rw [fitting]
    split
    · exact (List.cons_prefix_cons).2 ⟨rfl, prefix_of_fitting points _⟩
    · exact List.nil_prefix

/-- The cut goes through a sequence. -/
def Split (budget : ℕ) (points : List ℕ) : Prop :=
  size (fitting budget points) < budget ∧ fitting budget points ≠ points

instance (budget : ℕ) (points : List ℕ) : Decidable (Split budget points) :=
  inferInstanceAs (Decidable (size (fitting budget points) < budget ∧ fitting budget points ≠ points))

def replacementIf (condition : Prop) [Decidable condition] : Text :=
  if condition then pointUnits replacementPoint else []

theorem decode_take : ∀ (points : List ℕ) (budget : ℕ), (∀ point ∈ points, point < 0x110000) →
    decode ((points.flatMap encodePoint).take budget) =
      (fitting budget points).flatMap (fun point => pointUnits (scalar point)) ++
        replacementIf (Split budget points)
  | [], budget, _ => by
    rw [List.flatMap_nil, List.take_nil, replacementIf, if_neg (fun h => h.2 rfl)]
    rfl
  | point :: points, budget, hpoints => by
    have hpoint := hpoints point List.mem_cons_self
    rw [List.flatMap_cons]
    by_cases hfits : pointSize point ≤ budget
    · have hfit : fitting budget (point :: points) = point :: fitting (budget - pointSize point) points := by
        rw [fitting, if_pos hfits]
      have hsplit : Split budget (point :: points) ↔ Split (budget - pointSize point) points := by
        rw [Split, Split, hfit, size, List.map_cons, List.sum_cons, ← size]
        refine and_congr ?_ (not_congr (List.cons_inj_right point))
        omega
      have hreplacement : replacementIf (Split budget (point :: points)) =
          replacementIf (Split (budget - pointSize point) points) := by
        rw [replacementIf, replacementIf]
        exact if_congr hsplit rfl rfl
      rw [List.take_append, List.take_of_length_le hfits, decode_point hpoint, hreplacement, hfit,
        List.flatMap_cons, List.append_assoc]
      exact congrArg (pointUnits (scalar point) ++ ·)
        (decode_take points _ fun other hother => hpoints other (List.mem_cons_of_mem _ hother))
    · have hfit : fitting budget (point :: points) = [] := by rw [fitting, if_neg hfits]
      have htake : (encodePoint point ++ points.flatMap encodePoint).take budget =
          (encodePoint point).take budget := List.take_append_of_le_length (not_le.1 hfits).le
      rw [htake, hfit, List.flatMap_nil, List.nil_append, replacementIf]
      cases budget with
      | zero =>
        rw [if_neg (fun h => absurd h.1 (Nat.not_lt_zero _)), List.take_zero]
        rfl
      | succ budget =>
        rw [if_pos ⟨by rw [hfit]; exact Nat.succ_pos _, by rw [hfit]; exact (List.cons_ne_nil _ _).symm⟩]
        exact decode_point_cut hpoint (Nat.succ_pos _) (not_le.1 hfits)

/-! ### Lengths -/

theorem byteLength_eq (text : Text) : byteLength text = size (codePoints text) := by
  rw [byteLength, encode, List.length_flatMap]
  rfl

theorem byteLength_append {unit : UInt16} (hunit : isLow unit = false) (text rest : Text) :
    byteLength (text ++ unit :: rest) = byteLength text + byteLength (unit :: rest) := by
  rw [byteLength_eq, codePoints_append hunit, size, List.map_append, List.sum_append, byteLength_eq, byteLength_eq]
  rfl

theorem pointSize_scalar (point : ℕ) : pointSize (scalar point) = pointSize point := by
  rw [scalar]
  split
  · rename_i hsurrogate
    rw [pointSize, pointSize, encodePoint, encodePoint, if_pos hsurrogate]
    rfl
  · rfl

/-- Reading a text back does not change its length. -/
theorem byteLength_scalars {points : List ℕ} (hpoints : ∀ point ∈ points, point < 0x110000) :
    byteLength (points.flatMap fun point => pointUnits (scalar point)) = size points := by
  have hunits : (points.flatMap fun point => pointUnits (scalar point)) = (points.map scalar).flatMap pointUnits :=
    (List.flatMap_map ..).symm
  rw [hunits, byteLength_eq, codePoints_units, size, size, List.map_map]
  · exact congrArg List.sum (List.map_congr_left fun point _ => pointSize_scalar point)
  · intro point hpoint
    obtain ⟨written, hwritten, rfl⟩ := List.mem_map.1 hpoint
    exact ⟨scalar_not_surrogate written, scalar_lt (hpoints written hwritten)⟩

theorem byteLength_replacement (text : Text) :
    byteLength (text ++ pointUnits replacementPoint) = byteLength text + 3 :=
  @byteLength_append 0xFFFD rfl text []

end HuntWarden.Utf16
