import HuntWarden.Lib.InetText
import HuntWarden.Lib.Py
import Mathlib.Data.List.DropRight

/-! Texts as Python takes them apart: the fields between blanks, what stands around the last separator, integers in
    decimal and hexadecimal, bytes in hexadecimal; and the numerals that such texts are written with. -/

namespace HuntWarden.Py

open Inet

/-! ### Taking texts apart -/

/-- `text.strip()` -/
def strip (text : List Char) : List Char := (text.dropWhile isSpace).rdropWhile isSpace

/-- `text.split()` -/
def split (text : List Char) : List (List Char) :=
  (text.splitOnP isSpace).filter fun field => !field.isEmpty

/-- `text.rsplit(sep, 1)`, for a text with a separator in it. -/
def rsplit (sep : Char) (text : List Char) : Option (List Char × List Char) :=
  match text.reverse.dropWhile (· ≠ sep) with
  | [] => none
  | _ :: before => some (before.reverse, (text.reverse.takeWhile (· ≠ sep)).reverse)

def isDigitOf (base : ℕ) (c : Char) : Bool := if base = 16 then isHexDigit c else isDigit c

/-- Digits, with at most one underscore between two of them. -/
def digits? (base : ℕ) (text : List Char) : Option ℕ :=
  if (text.splitOn '_').all fun piece => !piece.isEmpty && piece.all (isDigitOf base) then
    some (numeral base (text.filter (· ≠ '_')))
  else none

def withoutPrefix (base : ℕ) : List Char → List Char
  | '0' :: x :: '_' :: rest =>
    if base = 16 ∧ (x = 'x' ∨ x = 'X') then rest else '0' :: x :: '_' :: rest
  | '0' :: x :: rest => if base = 16 ∧ (x = 'x' ∨ x = 'X') then rest else '0' :: x :: rest
  | text => text

/-- `int(text, base)` in base 10 or 16; `none` is its `ValueError`. -/
def int? (base : ℕ) (text : List Char) : Option ℤ :=
  match strip text with
  | '-' :: digits => (digits? base (withoutPrefix base digits)).map fun n => -n
  | '+' :: digits => (digits? base (withoutPrefix base digits)).map fun n => n
  | digits => (digits? base (withoutPrefix base digits)).map fun n => n

/-- `bytes.fromhex(text)` of a text without blanks; `none` is its `ValueError`. -/
def fromHex? : List Char → Option (List ℕ)
  | [] => some []
  | [_] => none
  | high :: low :: rest =>
    if isHexDigit high && isHexDigit low then
      (fromHex? rest).map fun bytes => numeral 16 [high, low] :: bytes
    else none

/-! ### Writing -/

/-- `str(value)` of an integer. -/
def intText : ℤ → List Char
  | .ofNat n => Nat.toDigits 10 n
  | .negSucc n => '-' :: Nat.toDigits 10 (n + 1)

def upperDigit (n : ℕ) : Char := (Nat.digitChar n).toUpper

/-- Bytes with two capital digits each. -/
def hexBytes (bytes : List ℕ) : List Char :=
  bytes.flatMap fun byte => [upperDigit (byte / 16), upperDigit (byte % 16)]

/-! ### Reading what was written -/

theorem upperDigit_spec {n : ℕ} (h : n < 16) :
    isHexDigit (upperDigit n) = true ∧ digitValue (upperDigit n) = n := by
  interval_cases n <;> decide

theorem fromHex?_hexBytes {bytes : List ℕ} (h : ∀ byte ∈ bytes, byte < 256) :
    fromHex? (hexBytes bytes) = some bytes := by
  induction bytes with
  | nil => rfl
  | cons byte bytes ih =>
    have hbyte := h byte List.mem_cons_self
    obtain ⟨hhigh, hhighValue⟩ := upperDigit_spec (n := byte / 16) (by omega)
    obtain ⟨hlow, hlowValue⟩ := upperDigit_spec (n := byte % 16) (by omega)
    have hrest := ih fun other hmem => h other (List.mem_cons_of_mem _ hmem)
    have hvalue : numeral 16 [upperDigit (byte / 16), upperDigit (byte % 16)] = byte := by
      simp only [numeral, List.foldl_cons, List.foldl_nil, hhighValue, hlowValue]
      omega
    change fromHex? (upperDigit (byte / 16) :: upperDigit (byte % 16) :: hexBytes bytes) = _
    rw [fromHex?, hhigh, hlow, Bool.and_self, if_pos rfl, hrest, hvalue]
    rfl

theorem isDigitOf_range {base : ℕ} {c : Char} (h : isDigitOf base c = true) :
    48 ≤ c.toNat ∧ c.toNat ≤ 57 ∨ 65 ≤ c.toNat ∧ c.toNat ≤ 70 ∨ 97 ≤ c.toNat ∧ c.toNat ≤ 102 := by
  have hhex : isHexDigit c = true := by
    rw [isDigitOf] at h
    split at h
    · exact h
    · simp [isHexDigit, h]
  simp only [isHexDigit, isDigit, Char.le_def, UInt32.le_iff_toNat_le, decide_eq_true_eq] at hhex
  simp only [Char.reduceVal, UInt32.reduceToNat] at hhex
  simp only [Char.toNat]
  omega

theorem isSpace_of_digit {base : ℕ} {c : Char} (h : isDigitOf base c = true) : isSpace c = false := by
  have hrange := isDigitOf_range h
  rw [isSpace]
  simp only [List.mem_cons, List.not_mem_nil, or_false, Bool.or_eq_false_iff, decide_eq_false_iff_not]
  omega

/-- A character that is no digit of any base. -/
theorem ne_of_digit {base : ℕ} {c : Char} (other : Char) (h : isDigitOf base c = true)
    (hother : other.toNat < 48 ∨ 57 < other.toNat ∧ other.toNat < 65 ∨ 70 < other.toNat ∧ other.toNat < 97 ∨
      102 < other.toNat) : c ≠ other := by
  rintro rfl
  have hrange := isDigitOf_range h
  omega

theorem strip_of_digits {base : ℕ} {text : List Char} (h : ∀ c ∈ text, isDigitOf base c = true) :
    strip text = text := by
  have hhead : text.dropWhile isSpace = text := by
    cases text with
    | nil => rfl
    | cons c rest => rw [List.dropWhile_cons_of_neg (by simp [isSpace_of_digit (h c List.mem_cons_self)])]
  rw [strip, hhead, List.rdropWhile_eq_self_iff]
  intro hne
  simp [isSpace_of_digit (h _ (List.getLast_mem hne))]

theorem withoutPrefix_of_digits {base : ℕ} {text : List Char} (h : ∀ c ∈ text, isDigitOf base c = true) :
    withoutPrefix base text = text := by
  have hx : ∀ x ∈ text, ¬(base = 16 ∧ (x = 'x' ∨ x = 'X')) := by
    rintro x hmem ⟨-, hcase⟩
    rcases hcase with rfl | rfl
    · exact ne_of_digit 'x' (h _ hmem) (by decide) rfl
    · exact ne_of_digit 'X' (h _ hmem) (by decide) rfl
  unfold withoutPrefix
  split
  · exact if_neg (hx _ (by simp))
  · exact if_neg (hx _ (by simp))
  · rfl

theorem digits?_of_digits {base : ℕ} {text : List Char} (hne : text ≠ []) (h : ∀ c ∈ text, isDigitOf base c = true) :
    digits? base text = some (numeral base text) := by
  have hbar : ∀ c ∈ text, c ≠ '_' := fun c hc => ne_of_digit '_' (h c hc) (by decide)
  have hsplit : text.splitOn '_' = [text] := List.splitOnP_eq_singleton fun c hc => by simpa using hbar c hc
  have hfilter : text.filter (· ≠ '_') = text := List.filter_eq_self.2 fun c hc => by simpa using hbar c hc
  rw [digits?, hsplit, hfilter, if_pos]
  simpa [hne] using h

/-- Digits are read as the number that they spell. -/
theorem int?_of_digits {base : ℕ} {text : List Char} (hne : text ≠ []) (h : ∀ c ∈ text, isDigitOf base c = true) :
    int? base text = some (numeral base text : ℤ) := by
  have hminus : ∀ rest, text ≠ '-' :: rest := by
    rintro rest rfl
    exact ne_of_digit '-' (h _ List.mem_cons_self) (by decide) rfl
  have hplus : ∀ rest, text ≠ '+' :: rest := by
    rintro rest rfl
    exact ne_of_digit '+' (h _ List.mem_cons_self) (by decide) rfl
  rw [int?, strip_of_digits h]
  split
  · exact absurd rfl (hminus _)
  · exact absurd rfl (hplus _)
  · rw [withoutPrefix_of_digits h, digits?_of_digits hne h]
    rfl

theorem toDigits_digits (n : ℕ) : ∀ c ∈ Nat.toDigits 10 n, isDigitOf 10 c = true := by
  intro c hc
  have hdigit := Nat.isDigit_of_mem_toDigits (by decide) (by decide) hc
  rw [isDigitOf, if_neg (by decide), isDigit]
  simpa [Char.isDigit, Char.le_def] using hdigit

theorem numeral_decimal (n : ℕ) : numeral 10 (Nat.toDigits 10 n) = n := by
  induction n using Nat.strongRecOn with
  | _ n ih =>
    by_cases hn : n < 10
    · rw [Nat.toDigits_of_lt_base hn]
      simp [numeral, (digitChar_isHexDigit (n := n) (by omega)).2]
    · have hvalue := ih (n / 10) (Nat.div_lt_self (by omega) (by decide))
      have hlast := (digitChar_isHexDigit (n := n % 10) (by omega)).2
      rw [Nat.toDigits_of_base_le (by decide) (by omega), numeral_append, hvalue]
      simp only [numeral, List.foldl_cons, List.foldl_nil, hlast, List.length_singleton]
      omega

theorem int?_decimal (n : ℕ) : int? 10 (Nat.toDigits 10 n) = some (n : ℤ) := by
  rw [int?_of_digits (List.ne_nil_of_length_pos Nat.length_toDigits_pos) (toDigits_digits n), numeral_decimal]

theorem hexBytes_digits {bytes : List ℕ} (h : ∀ byte ∈ bytes, byte < 256) :
    ∀ c ∈ hexBytes bytes, isDigitOf 16 c = true := by
  intro c hc
  obtain ⟨byte, hmem, hc⟩ := List.mem_flatMap.1 hc
  have hbyte := h byte hmem
  rw [isDigitOf, if_pos rfl]
  rcases List.mem_pair.1 hc with rfl | rfl
  · exact (upperDigit_spec (by omega)).1
  · exact (upperDigit_spec (by omega)).1

/-- Two bytes, as the number that they make. -/
theorem int?_hexPair {n : ℕ} (h : n < 65536) : int? 16 (hexBytes [n / 256, n % 256]) = some (n : ℤ) := by
  have hbytes : ∀ byte ∈ [n / 256, n % 256], byte < 256 := by
    intro byte hmem
    rcases List.mem_pair.1 hmem with rfl | rfl <;> omega
  have hvalue : numeral 16 (hexBytes [n / 256, n % 256]) = n := by
    have h3 := (upperDigit_spec (n := n / 256 / 16) (by omega)).2
    have h2 := (upperDigit_spec (n := n / 256 % 16) (by omega)).2
    have h1 := (upperDigit_spec (n := n % 256 / 16) (by omega)).2
    have h0 := (upperDigit_spec (n := n % 256 % 16) (by omega)).2
    simp only [hexBytes, List.flatMap_cons, List.flatMap_nil, List.append_nil, List.cons_append, List.nil_append,
      numeral, List.foldl_cons, List.foldl_nil, h3, h2, h1, h0]
    omega
  rw [int?_of_digits (by simp [hexBytes]) (hexBytes_digits hbytes), hvalue]

theorem notMem_hexBytes {bytes : List ℕ} (h : ∀ byte ∈ bytes, byte < 256) : ':' ∉ hexBytes bytes :=
  fun hmem => ne_of_digit ':' (hexBytes_digits h _ hmem) (by decide) rfl

theorem notMem_toDigits (n : ℕ) : ':' ∉ Nat.toDigits 10 n :=
  fun hmem => ne_of_digit ':' (toDigits_digits n _ hmem) (by decide) rfl

theorem rsplit_append {sep : Char} (before : List Char) {after : List Char} (h : sep ∉ after) :
    rsplit sep (before ++ sep :: after) = some (before, after) := by
  have hafter : ∀ c ∈ after.reverse, decide (c ≠ sep) = true := by
    intro c hc
    simp only [List.mem_reverse] at hc
    have hne : c ≠ sep := fun heq => h (heq ▸ hc)
    simpa using hne
  have htext : (before ++ sep :: after).reverse = after.reverse ++ sep :: before.reverse := by simp
  rw [rsplit, htext, List.dropWhile_append_of_pos hafter, List.takeWhile_append_of_pos hafter,
    List.dropWhile_cons_of_neg (by simp), List.takeWhile_cons_of_neg (by simp)]
  simp

end HuntWarden.Py
