import HuntWarden.Lib.Json
import Mathlib.Order.Compare
import Mathlib.Data.String.Basic

/-! The operators of Python on parsed JSON: `None` is `null`, `True` and `False` are numbers, equality
    goes into lists and dictionaries, and only numbers with numbers and texts with texts are in
    order. -/

namespace HuntWarden.Py

def ofBool (b : Bool) : ℚ := if b then 1 else 0

/-- The value as a number, for a number and for a boolean. -/
def number? : Json → Option ℚ
  | .bool b => some (ofBool b)
  | .num q => some q
  | _ => none

mutual
/-- `left == right` -/
def eq : Json → Json → Bool
  | .null, .null => true
  | .bool a, .bool b => a = b
  | .bool a, .num q => ofBool a = q
  | .num q, .bool a => q = ofBool a
  | .num p, .num q => p = q
  | .str a, .str b => a = b
  | .arr xs, .arr ys => eqItems xs ys
  | .obj xs, .obj ys => xs.length = ys.length && eqFields xs ys
  | _, _ => false

def eqItems : List Json → List Json → Bool
  | [], [] => true
  | x :: xs, y :: ys => eq x y && eqItems xs ys
  | _, _ => false

/-- Each of the first fields is found among the second ones. -/
def eqFields : List (String × Json) → List (String × Json) → Bool
  | [], _ => true
  | (k, x) :: xs, ys =>
    (match ys.lookup k with
      | some y => eq x y
      | none => false) && eqFields xs ys
end

/-- How two scalars compare; `none` is the `TypeError` of a pair without an order. -/
def compare? (left right : Json) : Option Ordering :=
  match number? left, number? right with
  | some p, some q => some (cmp p q)
  | _, _ =>
    match left, right with
    | .str a, .str b => some (cmp a b)
    | _, _ => none

/-- `str.isspace` of one character. -/
def isSpace (ch : Char) : Bool :=
  (9 ≤ ch.toNat ∧ ch.toNat ≤ 13) || (28 ≤ ch.toNat ∧ ch.toNat ≤ 32) ||
    ch.toNat ∈ [0x85, 0xA0, 0x1680, 0x2028, 0x2029, 0x202F, 0x205F, 0x3000] ||
    (0x2000 ≤ ch.toNat ∧ ch.toNat ≤ 0x200A)

/-- `text.find(part, position)` -/
def find (text part : List Char) (position : ℕ) : Option ℕ :=
  (List.range (text.length + 1)).find? fun i => position ≤ i && part.isPrefixOf (text.drop i)

end HuntWarden.Py
