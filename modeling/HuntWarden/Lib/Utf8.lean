import Mathlib.Data.List.Basic

/-! Reading UTF-8 with replacement: a character for each well-formed sequence, and U+FFFD for what is
    none. What one replacement stands for differs: for a single byte, or for as many bytes as a
    sequence could still have started with. -/

namespace HuntWarden.Utf8

/-- The length that the first byte of a sequence announces. -/
def width (first : UInt8) : ℕ :=
  if 0xC2 ≤ first ∧ first ≤ 0xDF then 2
  else if 0xE0 ≤ first ∧ first ≤ 0xEF then 3
  else if 0xF0 ≤ first ∧ first ≤ 0xF4 then 4
  else 1

def isTail (byte : UInt8) : Bool := 0x80 ≤ byte ∧ byte ≤ 0xBF

/-- The second byte rules out long forms, surrogates and what is past U+10FFFF. -/
def isSecond (first second : UInt8) : Bool :=
  isTail second &&
    (if first = 0xE0 then 0xA0 ≤ second
    else if first = 0xED then second ≤ 0x9F
    else if first = 0xF0 then 0x90 ≤ second
    else if first = 0xF4 then second ≤ 0x8F
    else true)

/-- How many of the bytes after the first one belong to a sequence of its announced length. -/
def following (first : UInt8) : List UInt8 → ℕ
  | [] => 0
  | second :: rest =>
    if 2 ≤ width first ∧ isSecond first second then
      1 + ((rest.take (width first - 2)).takeWhile isTail).length
    else 0

/-- The character of a well-formed sequence. -/
def character (first : UInt8) (tail : List UInt8) : Char :=
  let lead := match width first with
    | 2 => first.toNat - 0xC0
    | 3 => first.toNat - 0xE0
    | 4 => first.toNat - 0xF0
    | _ => first.toNat
  Char.ofNat (tail.foldl (fun value byte => value * 64 + (byte.toNat - 0x80)) lead)

def replacement : Char := '\uFFFD'

/-- The next character, and how many bytes after the first one it takes. A replacement takes the
    started sequence with it when `whole` is set. -/
def step (whole : Bool) (first : UInt8) (rest : List UInt8) : Char × ℕ :=
  let taken := following first rest
  if taken + 1 = width first ∧ (width first ≠ 1 ∨ first < 0x80) then
    (character first (rest.take taken), taken)
  else (replacement, if whole then taken else 0)

/-- The characters with the index of their first byte; `skip` bytes belong to the character before. -/
def decodeFrom (whole : Bool) (index : ℕ) : ℕ → List UInt8 → List (Char × ℕ)
  | _, [] => []
  | 0, first :: rest =>
    ((step whole first rest).1, index) :: decodeFrom whole (index + 1) (step whole first rest).2 rest
  | skip + 1, _ :: rest => decodeFrom whole (index + 1) skip rest

def decode (whole : Bool) (raw : List UInt8) : List (Char × ℕ) := decodeFrom whole 0 0 raw

/-- `E2 82` starts a sequence that does not end: one replacement for both bytes, or one for each. -/
example : (decode true [0x41, 0xE2, 0x82, 0x41]).map (·.2) = [0, 1, 3] ∧
    (decode false [0x41, 0xE2, 0x82, 0x41]).map (·.2) = [0, 1, 2, 3] := by decide

example : (decode true [0xE2, 0x82, 0xAC, 0xED, 0xA0, 0x80]).map (·.1) =
    ['€', replacement, replacement, replacement] := by decide

end HuntWarden.Utf8
