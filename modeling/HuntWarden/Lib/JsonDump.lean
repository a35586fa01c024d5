import HuntWarden.Lib.JsonText
import Mathlib.Algebra.BigOperators.Group.List.Basic
import Mathlib.Algebra.GroupWithZero.Nat

/-! The text of a JSON value in a style of its own (which characters are escaped, what stands between
    the parts), and how many bytes it takes: that of a record or a list is the sum over its parts. -/

namespace HuntWarden.JsonDump

/-- How a writer writes. `fraction` writes a number that is no integer. -/
structure Style where
  escape : ℕ → List Char
  comma : List Char
  colon : List Char
  fraction : ℚ → List Char

/-- `ensure_ascii=False, separators=(",", ":")` -/
def compact (fraction : ℚ → List Char) : Style := ⟨JsonText.jsEscape, [','], [':'], fraction⟩

/-- `json.dumps` without options. -/
def ascii (fraction : ℚ → List Char) : Style :=
  ⟨JsonText.asciiEscape, [',', ' '], [':', ' '], fraction⟩

def joined (comma : List Char) : List (List Char) → List Char
  | [] => []
  | part :: parts => part ++ parts.flatMap fun part => comma ++ part

variable (style : Style)

def quote (text : String) : List Char :=
  '"' :: (text.toList.flatMap (fun ch => style.escape ch.toNat) ++ ['"'])

def number (q : ℚ) : List Char := if q.den = 1 then (toString q.num).toList else style.fraction q

mutual
def dump : Json → List Char
  | .null => "null".toList
  | .bool true => "true".toList
  | .bool false => "false".toList
  | .num q => number style q
  | .str s => quote style s
  | .arr items => '[' :: (joined style.comma (dumpItems items) ++ [']'])
  | .obj fields => '{' :: (joined style.comma (dumpFields fields) ++ ['}'])

def dumpItems : List Json → List (List Char)
  | [] => []
  | item :: items => dump item :: dumpItems items

def dumpFields : List (String × Json) → List (List Char)
  | [] => []
  | (name, value) :: fields =>
    (quote style name ++ style.colon ++ dump value) :: dumpFields fields
end

/-! ### Bytes -/

/-- The length of a text in UTF-8. -/
def bytes (text : List Char) : ℕ := (text.map Char.utf8Size).sum

@[simp] theorem bytes_nil : bytes [] = 0 := rfl

@[simp] theorem bytes_cons (ch : Char) (text : List Char) :
    bytes (ch :: text) = ch.utf8Size + bytes text := by
  rw [bytes, List.map_cons, List.sum_cons, bytes]

@[simp] theorem bytes_append (a b : List Char) : bytes (a ++ b) = bytes a + bytes b := by
  rw [bytes, List.map_append, List.sum_append, bytes, bytes]

/-- Characters of one byte. -/
theorem bytes_replicate (n : ℕ) {ch : Char} (h : ch.utf8Size = 1) : bytes (List.replicate n ch) = n := by
  rw [bytes, List.map_replicate, List.sum_replicate_nat, h, Nat.mul_one]

theorem bytes_joined (comma : List Char) (parts : List (List Char)) :
    bytes (joined comma parts) = (parts.map bytes).sum + (parts.length - 1) * bytes comma := by
  cases parts with
  | nil => simp [joined]
  | cons part parts =>
    have hrest : bytes (parts.flatMap fun part => comma ++ part) =
        (parts.map bytes).sum + parts.length * bytes comma := by
      induction parts with
      | nil => simp
      | cons part parts ih =>
        rw [List.flatMap_cons, bytes_append, bytes_append, ih, List.map_cons, List.sum_cons,
          List.length_cons, Nat.succ_mul]
        omega
    rw [joined, bytes_append, hrest, List.map_cons, List.sum_cons, List.length_cons,
      Nat.add_sub_cancel, Nat.add_assoc]

def size (value : Json) : ℕ := bytes (dump style value)

def fieldSize (field : String × Json) : ℕ :=
  bytes (quote style field.1) + bytes style.colon + size style field.2

theorem dumpItems_eq_map (items : List Json) : dumpItems style items = items.map (dump style) := by
  induction items with
  | nil => rfl
  | cons item items ih => rw [dumpItems, ih, List.map_cons]

theorem map_bytes_dumpFields (fields : List (String × Json)) :
    (dumpFields style fields).map bytes = fields.map (fieldSize style) := by
  induction fields with
  | nil => rfl
  | cons field fields ih =>
    obtain ⟨name, value⟩ := field
    rw [dumpFields, List.map_cons, ih, List.map_cons, bytes_append, bytes_append]
    rfl

theorem length_dumpFields (fields : List (String × Json)) :
    (dumpFields style fields).length = fields.length := by
  simpa using congrArg List.length (map_bytes_dumpFields style fields)

theorem size_arr (items : List Json) :
    size style (.arr items) =
      2 + (items.map (size style)).sum + (items.length - 1) * bytes style.comma := by
  have hbrackets : Char.utf8Size '[' = 1 ∧ Char.utf8Size ']' = 1 := by decide
  rw [size, dump, bytes_cons, bytes_append, bytes_cons, bytes_nil, bytes_joined,
    dumpItems_eq_map, List.map_map, List.length_map, hbrackets.1, hbrackets.2]
  change 1 + (((items.map (size style)).sum + _) + (1 + 0)) = _
  omega

theorem size_obj (fields : List (String × Json)) :
    size style (.obj fields) =
      2 + (fields.map (fieldSize style)).sum + (fields.length - 1) * bytes style.comma := by
  have hbrackets : Char.utf8Size '\x7b' = 1 ∧ Char.utf8Size '\x7d' = 1 := by decide
  rw [size, dump, bytes_cons, bytes_append, bytes_cons, bytes_nil, bytes_joined,
    map_bytes_dumpFields, length_dumpFields, hbrackets.1, hbrackets.2]
  omega

end HuntWarden.JsonDump
