import HuntWarden.Lib.Json
import Mathlib.Data.List.DropRight
import Mathlib.Data.List.Lex
import Mathlib.Data.List.Nodup
import Mathlib.Order.Compare

/-! The JavaScript operators a program applies to parsed JSON without checking its type first:
    `+`, `-`, `>` and the conversions they begin with. The conversions between strings and numbers
    belong to the language runtime and are a parameter (`Coercions`); on numbers, booleans and `null`
    no operator below consults them. -/

namespace HuntWarden

/-- The runtime's own conversions. `none` is `NaN`. -/
structure Coercions where
  stringToNumber : String → Option ℚ
  numberToString : ℚ → String
  objectToString : Json → String

/-- `localeCompare`, which the language requires to be a consistent comparison of texts. -/
structure Collation where
  localeCompare : String → String → Ordering
  swap : ∀ a b, (localeCompare a b).swap = localeCompare b a
  trans : ∀ {a b c}, localeCompare a b ≠ .gt → localeCompare b c ≠ .gt → localeCompare a c ≠ .gt

namespace Js

variable (c : Coercions)

/-- `ToPrimitive`: arrays and records become strings. -/
def toPrimitive : Json → Json
  | .arr items => .str (c.objectToString (.arr items))
  | .obj fields => .str (c.objectToString (.obj fields))
  | v => v

/-- `ToNumber`. -/
def toNumber (v : Json) : Option ℚ :=
  match toPrimitive c v with
  | .null => some 0
  | .bool b => some (if b then 1 else 0)
  | .num q => some q
  | .str s => c.stringToNumber s
  | _ => none

/-- `ToString` of a primitive. -/
def toText (v : Json) : String :=
  match toPrimitive c v with
  | .null => "null"
  | .bool b => if b then "true" else "false"
  | .num q => c.numberToString q
  | .str s => s
  | _ => ""

def isText (v : Json) : Bool :=
  match toPrimitive c v with
  | .str _ => true
  | _ => false

/-- A number result; `NaN` is stored as `null`, as `JSON.stringify` does. -/
def ofNumber : Option ℚ → Json
  | some q => .num q
  | none => .null

/-- `left + right`: concatenation as soon as one side is a string. -/
def add (left right : Json) : Json :=
  if isText c left || isText c right then .str (toText c left ++ toText c right)
  else ofNumber (do return (← toNumber c left) + (← toNumber c right))

/-- `Math.max(0, left - right)`. -/
def subClamped (left right : Json) : Json :=
  ofNumber (do return max 0 ((← toNumber c left) - (← toNumber c right)))

/-- `===`: two records or arrays that were read apart are never the same one. -/
def strictEqual : Json → Json → Bool
  | .obj _, _ | .arr _, _ => false
  | a, b => a = b

/-- `===` where the values may be undefined. -/
def identical : Option Json → Option Json → Bool
  | none, none => true
  | some a, some b => strictEqual a b
  | _, _ => false

/-- `Math.max(first, ...values)` is no less than any of them. -/
theorem le_foldl_max {values : List ℕ} {first : ℕ} :
    first ≤ values.foldl max first ∧ ∀ value ∈ values, value ≤ values.foldl max first := by
  induction values generalizing first with
  | nil => simp
  | cons next values ih =>
    obtain ⟨hfirst, hall⟩ := @ih (max first next)
    rw [List.foldl_cons, List.forall_mem_cons]
    exact ⟨(le_max_left first next).trans hfirst, (le_max_right first next).trans hfirst, hall⟩

/-- The code units of one character. -/
def charUnits (ch : Char) : List ℕ :=
  if ch.toNat < 0x10000 then [ch.toNat]
  else [0xD800 + (ch.toNat - 0x10000) / 0x400, 0xDC00 + (ch.toNat - 0x10000) % 0x400]

/-- The UTF-16 code units, in which JavaScript compares strings. -/
def codeUnits (s : String) : List ℕ := s.toList.flatMap charUnits

/-- White space and line ends. -/
def isSpace (ch : Char) : Bool :=
  ch.toNat ∈ [0x09, 0x0A, 0x0B, 0x0C, 0x0D, 0x20, 0xA0, 0x1680, 0x2028, 0x2029, 0x202F, 0x205F,
    0x3000, 0xFEFF] || (0x2000 ≤ ch.toNat && ch.toNat ≤ 0x200A)

/-- `text.trim()` -/
def trim (text : String) : String :=
  String.ofList ((text.toList.dropWhile isSpace).reverse.dropWhile isSpace).reverse

theorem trim_trim (text : String) : trim (trim text) = trim text := by
  have hstart : ∀ chars : List Char, chars.dropWhile isSpace = chars →
      (chars.rdropWhile isSpace).dropWhile isSpace = chars.rdropWhile isSpace := by
    intro chars h
    rw [List.dropWhile_eq_self_iff] at h ⊢
    intro hlength
    have hprefix := List.rdropWhile_prefix isSpace (l := chars)
    have hhead := h (hlength.trans_le hprefix.length_le)
    rwa [← hprefix.getElem hlength] at hhead
  rw [trim, trim, String.toList_ofList]
  change String.ofList (List.rdropWhile isSpace ((List.rdropWhile isSpace _).dropWhile isSpace)) =
    String.ofList (List.rdropWhile isSpace _)
  rw [hstart _ (List.dropWhile_idempotent _ _), List.rdropWhile_idempotent]

theorem charUnits_append_inj {ch ch' : Char} {xs ys : List ℕ}
    (h : charUnits ch ++ xs = charUnits ch' ++ ys) : ch = ch' ∧ xs = ys := by
  have hvalid : ch.toNat < 0xD800 ∨ 0xDFFF < ch.toNat ∧ ch.toNat < 0x110000 := ch.valid
  have hvalid' : ch'.toNat < 0xD800 ∨ 0xDFFF < ch'.toNat ∧ ch'.toNat < 0x110000 := ch'.valid
  have hch : ∀ {n m : ℕ}, ch.toNat = n → ch'.toNat = m → n = m → ch = ch' := by
    rintro n m rfl rfl heq
    exact Char.toNat_inj.1 heq
  rw [charUnits, charUnits] at h
  split at h <;> split at h <;>
    simp only [List.cons_append, List.nil_append, List.cons.injEq] at h
  · exact ⟨hch rfl rfl h.1, h.2⟩
  · omega
  · omega
  · exact ⟨hch rfl rfl (by omega), h.2.2⟩

/-- A text is determined by its code units. -/
theorem codeUnits_injective : Function.Injective codeUnits := by
  have hlist : ∀ xs ys : List Char, xs.flatMap charUnits = ys.flatMap charUnits → xs = ys := by
    have hne : ∀ (ch : Char) (rest : List ℕ), charUnits ch ++ rest ≠ [] := by
      intro ch rest
      rw [charUnits]
      split <;> simp
    intro xs
    induction xs with
    | nil =>
      rintro (_ | ⟨ch, ys⟩) h
      · rfl
      · exact absurd h.symm (hne ch _)
    | cons ch xs ih =>
      rintro (_ | ⟨ch', ys⟩) h
      · exact absurd h (hne ch _)
      · rw [List.flatMap_cons, List.flatMap_cons] at h
        obtain ⟨rfl, hrest⟩ := charUnits_append_inj h
        rw [ih ys hrest]
  intro a b h
  exact String.toList_injective (hlist _ _ h)

theorem cmp_eq_eq {α : Type} [LinearOrder α] [DecidableLT α] {a b : α} : cmp a b = .eq ↔ a = b := by
  unfold cmp cmpUsing
  by_cases h : a < b
  · simp [h, h.ne]
  · by_cases h' : b < a
    · simp [h, h', h'.ne']
    · simp [le_antisymm (not_lt.1 h') (not_lt.1 h)]

theorem cmp_eq_lt {α : Type} [LinearOrder α] [DecidableLT α] {a b : α} : cmp a b = .lt ↔ a < b := by
  unfold cmp cmpUsing
  by_cases h : a < b
  · simp [h]
  · by_cases h' : b < a <;> simp [h, h']

theorem cmp_ne_gt {α : Type} [LinearOrder α] [DecidableLT α] {a b : α} : cmp a b ≠ .gt ↔ a ≤ b := by
  rw [← not_lt]
  unfold cmp cmpUsing
  by_cases h : a < b
  · simp [h, h.le]
  · by_cases h' : b < a <;> simp [h, h']

theorem isLE_iff_ne_gt {o : Ordering} : o.isLE ↔ o ≠ .gt := by cases o <;> simp [Ordering.isLE]

instance transCmp_cmp {α : Type} [LinearOrder α] : Std.TransCmp (cmp : α → α → Ordering) where
  eq_swap {a b} := (cmp_swap b a).symm
  isLE_trans {a b c} h h' := by
    rw [isLE_iff_ne_gt, cmp_ne_gt] at *
    exact h.trans h'

instance transCmp_localeCompare (c : Collation) : Std.TransCmp c.localeCompare where
  eq_swap {a b} := (c.swap b a).symm
  isLE_trans h h' := isLE_iff_ne_gt.2 (c.trans (isLE_iff_ne_gt.1 h) (isLE_iff_ne_gt.1 h'))

/-- Comparing what the facts are mapped to. -/
theorem transCmp_on {α β : Type} {order : α → α → Ordering} (h : Std.TransCmp order) (f : β → α) :
    Std.TransCmp fun a b => order (f a) (f b) where
  eq_swap := h.eq_swap
  isLE_trans := h.isLE_trans

/-- The plainest collation: by code units. -/
def codeUnitCollation : Collation where
  localeCompare a b := cmp (codeUnits a) (codeUnits b)
  swap _ _ := cmp_swap _ _
  trans h h' := cmp_ne_gt.2 ((cmp_ne_gt.1 h).trans (cmp_ne_gt.1 h'))

/-- A runtime whose conversions play no part. -/
def plainCoercions : Coercions := ⟨fun _ => none, fun _ => "", fun _ => ""⟩

/-- `left < right`; a comparison with `NaN` is false. -/
def lt (left right : Json) : Bool :=
  match toPrimitive c left, toPrimitive c right with
  | .str a, .str b => decide (codeUnits a < codeUnits b)
  | a, b =>
    match toNumber c a, toNumber c b with
    | some x, some y => decide (x < y)
    | _, _ => false

/-- `left > right`. -/
def gt (left right : Json) : Bool := lt c right left

/-- `left <= right`; a comparison with `NaN` is false. -/
def le (left right : Json) : Bool :=
  match toPrimitive c left, toPrimitive c right with
  | .str a, .str b => decide (codeUnits a ≤ codeUnits b)
  | a, b =>
    match toNumber c a, toNumber c b with
    | some x, some y => decide (x ≤ y)
    | _, _ => false

/-- `left === right`, `none` being `undefined`; two parsed arrays or records are never identical. -/
def strictEq : Option Json → Option Json → Bool
  | none, none => true
  | some .null, some .null => true
  | some (.bool a), some (.bool b) => a = b
  | some (.num a), some (.num b) => a = b
  | some (.str a), some (.str b) => a = b
  | _, _ => false

/-- The value as a condition. -/
def truthy : Json → Bool
  | .null => false
  | .bool b => b
  | .num q => q ≠ 0
  | .str s => s ≠ ""
  | _ => true

/-- A text that counts as true. -/
def truthyText (text : Option String) : Option String := text.filter (· ≠ "")

/-- What every record inherits from `Object.prototype`. -/
def prototypeNames : List String :=
  ["constructor", "__defineGetter__", "__defineSetter__", "hasOwnProperty", "__lookupGetter__",
    "__lookupSetter__", "isPrototypeOf", "propertyIsEnumerable", "toString", "valueOf", "__proto__",
    "toLocaleString"]

/-- `value ?? 0`. -/
def orZero : Option Json → Json
  | none => .num 0
  | some .null => .num 0
  | some v => v

/-- What a value weighs in arithmetic that has not left the numbers. -/
def numeric? : Json → Option ℚ
  | .null => some 0
  | .bool b => some (if b then 1 else 0)
  | .num q => some q
  | _ => none

variable {c}

theorem toNumber_of_numeric {v : Json} {q : ℚ} (h : numeric? v = some q) :
    toNumber c v = some q := by
  cases v <;> simp_all [numeric?, toNumber, toPrimitive]

theorem isText_of_numeric {v : Json} {q : ℚ} (h : numeric? v = some q) :
    isText c v = false := by
  cases v <;> simp_all [numeric?, isText, toPrimitive]

theorem add_numeric {a b : Json} {x y : ℚ} (ha : numeric? a = some x) (hb : numeric? b = some y) :
    add c a b = .num (x + y) := by
  simp [add, isText_of_numeric ha, isText_of_numeric hb, toNumber_of_numeric ha,
    toNumber_of_numeric hb, ofNumber]

theorem subClamped_numeric {a b : Json} {x y : ℚ} (ha : numeric? a = some x)
    (hb : numeric? b = some y) : subClamped c a b = .num (max 0 (x - y)) := by
  simp [subClamped, toNumber_of_numeric ha, toNumber_of_numeric hb, ofNumber]

theorem gt_numeric {a b : Json} {x y : ℚ} (ha : numeric? a = some x) (hb : numeric? b = some y) :
    gt c a b = decide (y < x) := by
  have hta := toNumber_of_numeric (c := c) ha
  have htb := toNumber_of_numeric (c := c) hb
  cases a <;> cases b <;> simp_all [gt, lt, toPrimitive, numeric?]

end Js

/-! ### `new Set` -/

namespace Js

variable {α : Type} [DecidableEq α]

/-- The values added to a set in order, after those it already holds. -/
def addAll : List α → List α → List α
  | seen, [] => seen
  | seen, x :: xs => if x ∈ seen then addAll seen xs else addAll (seen ++ [x]) xs

/-- `[...new Set(values)]`. -/
def distinct (values : List α) : List α := addAll [] values

theorem addAll_append : ∀ (seen xs ys : List α), addAll seen (xs ++ ys) = addAll (addAll seen xs) ys
  | _, [], _ => rfl
  | seen, x :: xs, ys => by
      simp only [List.cons_append, addAll]
      split
      · exact addAll_append seen xs ys
      · exact addAll_append (seen ++ [x]) xs ys

theorem mem_addAll {a : α} : ∀ {seen xs : List α}, a ∈ addAll seen xs ↔ a ∈ seen ∨ a ∈ xs
  | _, [] => by simp [addAll]
  | seen, x :: xs => by
      simp only [addAll]
      split
      · rename_i hx
        rw [mem_addAll, List.mem_cons]
        refine ⟨Or.imp_right Or.inr, ?_⟩
        rintro (h | rfl | h)
        · exact Or.inl h
        · exact Or.inl hx
        · exact Or.inr h
      · rw [mem_addAll, List.mem_append, List.mem_singleton, List.mem_cons, or_assoc]

theorem nodup_addAll : ∀ {seen xs : List α}, seen.Nodup → (addAll seen xs).Nodup
  | _, [], h => h
  | seen, x :: xs, h => by
      simp only [addAll]
      split
      · exact nodup_addAll h
      · rename_i hx
        refine nodup_addAll ?_
        rw [List.nodup_append_comm, List.singleton_append, List.nodup_cons]
        exact ⟨hx, h⟩

theorem addAll_eq_self : ∀ {seen xs : List α}, (∀ x ∈ xs, x ∈ seen) → addAll seen xs = seen
  | _, [], _ => rfl
  | seen, x :: xs, h => by
      rw [addAll, if_pos (h x List.mem_cons_self)]
      exact addAll_eq_self fun y hy => h y (List.mem_cons_of_mem _ hy)

theorem length_le_addAll : ∀ {seen xs : List α}, seen.length ≤ (addAll seen xs).length
  | _, [] => Nat.le_refl _
  | seen, x :: xs => by
      simp only [addAll]
      split
      · exact length_le_addAll
      · exact Nat.le_trans (by simp) length_le_addAll

/-- Nothing was added exactly when everything was there. -/
theorem length_addAll_eq : ∀ {seen xs : List α},
    (addAll seen xs).length = seen.length → ∀ x ∈ xs, x ∈ seen
  | _, [], _ => by simp
  | seen, x :: xs, h => by
      simp only [addAll] at h
      split at h
      · rename_i hx
        simp only [List.mem_cons]
        rintro y (rfl | hy)
        · exact hx
        · exact length_addAll_eq h y hy
      · have hle : (seen ++ [x]).length ≤ (addAll (seen ++ [x]) xs).length := length_le_addAll
        rw [h, List.length_append, List.length_singleton] at hle
        omega

theorem addAll_of_nodup : ∀ {seen xs : List α}, (seen ++ xs).Nodup → addAll seen xs = seen ++ xs
  | _, [], _ => by simp [addAll]
  | seen, x :: xs, h => by
      have hx : x ∉ seen := fun hmem =>
        (List.nodup_append.1 h).2.2 x hmem x List.mem_cons_self rfl
      rw [addAll, if_neg hx, addAll_of_nodup (by simpa using h)]
      simp

theorem mem_distinct {a : α} {xs : List α} : a ∈ distinct xs ↔ a ∈ xs := by
  simp [distinct, mem_addAll]

theorem nodup_distinct (xs : List α) : (distinct xs).Nodup := nodup_addAll List.nodup_nil

theorem distinct_of_nodup {xs : List α} (h : xs.Nodup) : distinct xs = xs :=
  addAll_of_nodup (show ([] ++ xs).Nodup from h)

/-- A set that starts from distinct values just takes in the rest. -/
theorem distinct_append {xs ys : List α} (h : xs.Nodup) : distinct (xs ++ ys) = addAll xs ys := by
  rw [distinct, addAll_append]
  exact congrArg (addAll · ys) (distinct_of_nodup h)

end Js

end HuntWarden
