import Mathlib.Data.List.Basic
import Mathlib.Data.Nat.Notation

/-! Base64 as Node writes and reads it: the reader takes both alphabets, passes over what is no digit, and stops at the
    padding. -/

namespace HuntWarden.Base64

/-- The character of six bits. -/
def digit (value : ℕ) : Char :=
  if value < 26 then Char.ofNat (65 + value)
  else if value < 52 then Char.ofNat (97 + (value - 26))
  else if value < 62 then Char.ofNat (48 + (value - 52))
  else if value = 62 then '+' else '/'

def value? (ch : Char) : Option ℕ :=
  if 65 ≤ ch.toNat ∧ ch.toNat ≤ 90 then some (ch.toNat - 65)
  else if 97 ≤ ch.toNat ∧ ch.toNat ≤ 122 then some (ch.toNat - 97 + 26)
  else if 48 ≤ ch.toNat ∧ ch.toNat ≤ 57 then some (ch.toNat - 48 + 52)
  else if ch = '+' ∨ ch = '-' then some 62
  else if ch = '/' ∨ ch = '_' then some 63
  else none

/-- `buffer.toString("base64")` -/
def encode : List ℕ → List Char
  | [] => []
  | [a] => [digit (a / 4), digit (a % 4 * 16), '=', '=']
  | [a, b] => [digit (a / 4), digit (a % 4 * 16 + b / 16), digit (b % 16 * 4), '=']
  | a :: b :: c :: rest =>
    digit (a / 4) :: digit (a % 4 * 16 + b / 16) :: digit (b % 16 * 4 + c / 64) :: digit (c % 64) :: encode rest

/-- The bytes of the sextets; what is left of the last group is dropped. -/
def bytes : List ℕ → List ℕ
  | a :: b :: c :: d :: rest =>
    (a * 4 + b / 16) :: (b % 16 * 16 + c / 4) :: (c % 4 * 64 + d) :: bytes rest
  | [a, b, c] => [a * 4 + b / 16, b % 16 * 16 + c / 4]
  | [a, b] => [a * 4 + b / 16]
  | _ => []

/-- `Buffer.from(text, "base64")` -/
def decode (text : List Char) : List ℕ := bytes ((text.takeWhile (· ≠ '=')).filterMap value?)

def IsBytes (data : List ℕ) : Prop := ∀ byte ∈ data, byte < 256

instance (data : List ℕ) : Decidable (IsBytes data) := inferInstanceAs (Decidable (∀ byte ∈ data, byte < 256))

/-- What `encode` writes with. -/
def isDigit (ch : Char) : Bool := (value? ch).isSome || ch = '='

theorem value_digit : ∀ value < 64, value? (digit value) = some value ∧ digit value ≠ '=' := by decide

theorem sextets_cons {value : ℕ} (h : value < 64) (text : List Char) :
    ((digit value :: text).takeWhile (· ≠ '=')).filterMap value? =
      value :: (text.takeWhile (· ≠ '=')).filterMap value? := by
  obtain ⟨hvalue, hne⟩ := value_digit value h
  rw [List.takeWhile_cons, if_pos (by simpa using hne), List.filterMap_cons, hvalue]

theorem sextets_pad (text : List Char) : (('=' :: text).takeWhile (· ≠ '=')).filterMap value? = [] := by
  rw [List.takeWhile_cons, if_neg (by simp), List.filterMap_nil]

/-- What is written is read back. -/
theorem decode_encode : ∀ {data : List ℕ}, IsBytes data → decode (encode data) = data
  | [], _ => rfl
  | [a], h => by
    have ha : a < 256 := h a (by simp)
    rw [decode, encode, sextets_cons (by omega), sextets_cons (by omega), sextets_pad, bytes]
    congr 1
    omega
  | [a, b], h => by
    have ha : a < 256 := h a (by simp)
    have hb : b < 256 := h b (by simp)
    rw [decode, encode, sextets_cons (by omega), sextets_cons (by omega), sextets_cons (by omega), sextets_pad, bytes]
    congr 1
    · omega
    · congr 1
      omega
  | a :: b :: c :: rest, h => by
    have ha : a < 256 := h a (by simp)
    have hb : b < 256 := h b (by simp)
    have hc : c < 256 := h c (by simp)
    have hrest : decode (encode rest) = rest := decode_encode fun byte hbyte => h byte (by simp [hbyte])
    rw [decode] at hrest
    rw [decode, encode, sextets_cons (by omega), sextets_cons (by omega), sextets_cons (by omega),
      sextets_cons (by omega), bytes, hrest]
    congr 1
    · omega
    · congr 1
      · omega
      · congr 1
        omega

theorem isDigit_digit : ∀ value < 64, isDigit (digit value) = true := by decide

theorem isDigit_pad : isDigit '=' = true := by decide

theorem encode_digits : ∀ {data : List ℕ}, IsBytes data → ∀ ch ∈ encode data, isDigit ch = true
  | [], _ => by simp [encode]
  | [a], h => by
    have ha : a < 256 := h a (by simp)
    have hfirst := isDigit_digit (a / 4) (by omega)
    have hsecond := isDigit_digit (a % 4 * 16) (by omega)
    simp [encode, hfirst, hsecond, isDigit_pad]
  | [a, b], h => by
    have ha : a < 256 := h a (by simp)
    have hb : b < 256 := h b (by simp)
    have hfirst := isDigit_digit (a / 4) (by omega)
    have hsecond := isDigit_digit (a % 4 * 16 + b / 16) (by omega)
    have hthird := isDigit_digit (b % 16 * 4) (by omega)
    simp [encode, hfirst, hsecond, hthird, isDigit_pad]
  | a :: b :: c :: rest, h => by
    have ha : a < 256 := h a (by simp)
    have hb : b < 256 := h b (by simp)
    have hc : c < 256 := h c (by simp)
    have hfirst := isDigit_digit (a / 4) (by omega)
    have hsecond := isDigit_digit (a % 4 * 16 + b / 16) (by omega)
    have hthird := isDigit_digit (b % 16 * 4 + c / 64) (by omega)
    have hfourth := isDigit_digit (c % 64) (by omega)
    have hbytes : IsBytes rest := fun byte hbyte => h byte (by simp [hbyte])
    have hrest := encode_digits hbytes
    intro ch hch
    simp only [encode, List.mem_cons] at hch
    rcases hch with rfl | rfl | rfl | rfl | hch
    · exact hfirst
    · exact hsecond
    · exact hthird
    · exact hfourth
    · exact hrest ch hch

theorem range_of_isDigit {ch : Char} (h : isDigit ch = true) : 43 ≤ ch.toNat ∧ ch.toNat ≤ 122 := by
  have hdigit : (value? ch).isSome = true ∨ ch = '=' := by simpa [isDigit] using h
  rcases hdigit with hvalue | rfl
  · unfold value? at hvalue
    split at hvalue
    · omega
    split at hvalue
    · omega
    split at hvalue
    · omega
    split at hvalue
    · rename_i hplus
      rcases hplus with rfl | rfl <;> decide
    split at hvalue
    · rename_i hslash
      rcases hslash with rfl | rfl <;> decide
    · cases hvalue
  · decide

theorem encode_ne_nil : ∀ {data : List ℕ}, data ≠ [] → encode data ≠ []
  | [], h => absurd rfl h
  | [_], _ => by simp [encode]
  | [_, _], _ => by simp [encode]
  | _ :: _ :: _ :: _, _ => by simp [encode]

end HuntWarden.Base64
