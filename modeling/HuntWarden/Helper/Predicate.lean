import HuntWarden.Facts.Normalizer
import HuntWarden.Helper.Fields
import HuntWarden.Lib.Py
import HuntWarden.Protocol.Predicate

/-! The predicates as the helper validates and evaluates them, and where its answers are those of the
    controller. -/

namespace HuntWarden.Helper

open Outcome Predicate

def invalidArgument (message : String) : HelperError := { code := .invalidArgument, message }

def checkValue (op : PredicateOperator) (value : Option Json) : Except HelperError Unit :=
  match op with
  | .exists_ =>
    require (value.getD (.bool true)).asBool?.isSome
      (invalidArgument "exists predicate requires a boolean value")
  | .eq | .neq => .ok ()
  | .in_ =>
    require ((value.bind Json.asArray?).any fun items => 1 ≤ items.length ∧ items.length ≤ 64)
      (invalidArgument "in predicate requires 1..64 values")
  | .contains | .startsWith =>
    require ((value.bind Json.asString?).any fun text => text.utf8ByteSize ≤ 256)
      (invalidArgument "string predicate value is invalid")
  | .lt | .lte | .gt | .gte =>
    require (value.any fun v => v.asNumber?.isSome || v.asString?.isSome)
      (invalidArgument "ordered predicate value is invalid")

/-- The checks of a leaf. -/
def checkLeaf (namespace_ : NamespaceName) (op : PredicateOperator) (field : String)
    (value : Option Json) : Except HelperError Unit := do
  require (field ∈ v2NamespaceFields namespace_ ∧ field ∉ ["passwordHash", "content"])
    (invalidArgument "predicate field is not allowed by the v2 manifest")
  checkValue op value

def enterNode (depth count : ℕ) : Except HelperError Unit :=
  require (depth ≤ 4 ∧ count ≤ 32) (invalidArgument "invalid predicate AST")

mutual
/-- `v2_validate_predicate`; `count` is the number of nodes seen before this one. -/
def v2_validate_predicate (namespace_ : NamespaceName) (depth count : ℕ) :
    Predicate → Except HelperError ℕ
  | .and args | .or args => do
    enterNode depth (count + 1)
    require (!args.isEmpty) (invalidArgument "invalid predicate group")
    v2_validate_children namespace_ (depth + 1) (count + 1) args
  | .not arg => do
    enterNode depth (count + 1)
    v2_validate_predicate namespace_ (depth + 1) (count + 1) arg
  | .leaf op field value => do
    enterNode depth (count + 1)
    checkLeaf namespace_ op field value
    return count + 1

def v2_validate_children (namespace_ : NamespaceName) (depth count : ℕ) :
    List Predicate → Except HelperError ℕ
  | [] => .ok count
  | child :: children => do
    let count ← v2_validate_predicate namespace_ depth count child
    v2_validate_children namespace_ depth count children
end

/-- Whether the outcome of a comparison is one the operator asks for. -/
def ordered (op : PredicateOperator) (outcome : Ordering) : Bool :=
  match op with
  | .lt => outcome = .lt
  | .lte => outcome ≠ .gt
  | .gt => outcome = .gt
  | .gte => outcome ≠ .lt
  | _ => false

/-- A leaf whose field holds `actual`; a missing field and a missing value are `None`. -/
def testLeaf (op : PredicateOperator) (actual : Json) (value : Option Json) :
    Except HelperError Bool :=
  let expected := value.getD .null
  match op with
  | .exists_ => .ok (Py.eq (.bool (actual ≠ .null)) (value.getD (.bool true)))
  | .eq => .ok (Py.eq actual expected)
  | .neq => .ok (!Py.eq actual expected)
  | .in_ => .ok ((expected.asArray?.getD []).any fun item => Py.eq actual item)
  | .contains | .startsWith => do
    require (actual = .null ∨ actual.asString?.isSome)
      (invalidArgument "string predicate used with a non-string field")
    match actual.asString?, expected.asString? with
    | some text, some part =>
      return if op = .contains then decide (part.toList <:+: text.toList)
        else part.toList.isPrefixOf text.toList
    | _, _ => return false
  | .lt | .lte | .gt | .gte => .ok ((Py.compare? actual expected).any (ordered op))

mutual
/-- `v2_predicate` validates every node before it looks at it, and evaluates all of a group. -/
def v2_predicate (namespace_ : NamespaceName) (fields : List (String × Json)) :
    Predicate → Except HelperError Bool
  | .and args => do
    let _ ← v2_validate_predicate namespace_ 1 0 (.and args)
    let values ← v2_predicates namespace_ fields args
    return values.all id
  | .or args => do
    let _ ← v2_validate_predicate namespace_ 1 0 (.or args)
    let values ← v2_predicates namespace_ fields args
    return values.any id
  | .not arg => do
    let _ ← v2_validate_predicate namespace_ 1 0 (.not arg)
    let value ← v2_predicate namespace_ fields arg
    return !value
  | .leaf op field value => do
    let _ ← v2_validate_predicate namespace_ 1 0 (.leaf op field value)
    testLeaf op ((fields.lookup field).getD .null) value

def v2_predicates (namespace_ : NamespaceName) (fields : List (String × Json)) :
    List Predicate → Except HelperError (List Bool)
  | [] => .ok []
  | child :: children => do
    let value ← v2_predicate namespace_ fields child
    let values ← v2_predicates namespace_ fields children
    return value :: values
end

/-! ### The leaves on which both sides agree -/

/-- A truth value and the number that Python takes it for. -/
def boolNumber : Json → Json → Bool
  | .bool b, .num q | .num q, .bool b => q = Py.ofBool b
  | _, _ => false

section

variable (c : Coercions)

/-- An ordered comparison comes out alike: of two numbers always, of two texts when the order of their
    code units is that of their code points, of anything else when it is false to the controller,
    which turns a missing field into the empty text and a text into a number. -/
def OrderedAlike (op : PredicateOperator) (actual : Option Json) (expected : Json) : Prop :=
  match actual, expected with
  | some (.num _), .num _ => True
  | some (.str a), .str b => cmp (Js.codeUnits a) (Js.codeUnits b) = cmp a b
  | none, .str b => ordered op (cmp "" b) = false
  | actual, expected =>
    ∀ x ∈ Js.toNumber c (comparable actual), ∀ y ∈ Js.toNumber c expected,
      ordered op (cmp x y) = false

/-- What the value of a leaf and of its field have to be. -/
def ValueAlike (op : PredicateOperator) (actual value : Option Json) : Prop :=
  match op with
  | .exists_ => True
  | .eq | .neq =>
    ¬ (actual = none ∧ value = some .null) ∧
      ∀ a ∈ actual, ∀ expected ∈ value, boolNumber a expected = false
  | .in_ =>
    ∀ items ∈ value.bind Json.asArray?, ∀ a ∈ actual, ∀ item ∈ items,
      boolNumber a item → a ∈ items
  | .contains | .startsWith => ∃ text, value = some (.str text)
  | .lt | .lte | .gt | .gte =>
    ∃ expected ∈ value, (expected.asNumber?.isSome || expected.asString?.isSome) ∧
      OrderedAlike c op actual expected

/-- The helper collects the field and admits the value, and both sides compare alike. -/
def LeafAlike (namespace_ : NamespaceName) (payload : List (String × Json))
    (op : PredicateOperator) (field : String) (value : Option Json) : Prop :=
  field ∈ v2NamespaceFields namespace_ ∧ ValueAlike c op (payload.lookup field) value

mutual
/-- Every leaf of the predicate is one on which both sides agree. -/
def Alike (namespace_ : NamespaceName) (payload : List (String × Json)) : Predicate → Prop
  | .and args | .or args => AllAlike namespace_ payload args
  | .not arg => Alike namespace_ payload arg
  | .leaf op field value => LeafAlike c namespace_ payload op field value

def AllAlike (namespace_ : NamespaceName) (payload : List (String × Json)) :
    List Predicate → Prop
  | [] => True
  | arg :: args => Alike namespace_ payload arg ∧ AllAlike namespace_ payload args
end

end

/-- Every field of the row is one of the namespace and holds a value of its type. -/
def Typed (r : Normalizer.Runtime) (namespace_ : NamespaceName) (payload : List (String × Json)) :
    Prop :=
  ∀ field value, payload.lookup field = some value →
    ∀ definition, Manifest.field? namespace_ field = some definition →
      Normalizer.wellTyped r definition.type value

/-! ### What the controller has checked -/

/-- A value that passes `validateValue`. -/
structure Admitted (op : PredicateOperator) (type : Manifest.FieldType) (value : Json) : Prop where
  short : ∀ text, value = .str text → text.utf8ByteSize ≤ 256
  items : op = .in_ → ∃ items, value = .arr items ∧ 1 ≤ items.length ∧ items.length ≤ 64 ∧
    ∀ item ∈ items, isScalar item
  scalar : op ≠ .in_ → isScalar value ∨ value = .null
  text : isStringOnly op → type = .string
  comparable : isComparison op → type ∈ [.integer, .number, .timestamp, .string]

theorem validateValue_ok {op : PredicateOperator} {type : Manifest.FieldType} {value : Option Json}
    {u : Unit} (h : validateValue op type value = .ok u) :
    (op = .exists_ ∧ value.all fun v => v.asBool?.isSome) ∨
      (op ≠ .exists_ ∧ ∃ v, value = some v ∧ Admitted op type v) := by
  by_cases hop : op = .exists_
  · subst hop
    rw [validateValue, require_ok] at h
    exact Or.inl ⟨rfl, h⟩
  · refine Or.inr ⟨hop, ?_⟩
    cases value with
    | none => cases op <;> first | exact absurd rfl hop | cases h
    | some v =>
      have hbody : (do
          require (v.asString?.all fun s => s.utf8ByteSize ≤ Manifest.predicateStringBytes)
            (HuntWarden.invalidArgument "Predicate 字符串超过上限")
          if op = .in_ then
            let items ← orThrow (v.asArray?.filter fun items =>
                1 ≤ items.length ∧ items.length ≤ Manifest.predicateInItems)
              (HuntWarden.invalidArgument "in.value 必须是有界数组")
            require (items.all isScalar) (HuntWarden.invalidArgument "in.value 含非法类型")
          else
            require (isScalar v || v = .null)
              (HuntWarden.invalidArgument s!"{op.name}.value 必须是标量")
            require (!isStringOnly op || type = .string)
              (HuntWarden.invalidArgument s!"{op.name} 仅支持字符串字段")
            require (!isComparison op || type ∈ [.integer, .number, .timestamp, .string])
              (HuntWarden.invalidArgument s!"{op.name} 与字段类型不兼容") : Except Thrown Unit) =
          .ok u := by
        cases op <;> first | exact absurd rfl hop | exact h
      obtain ⟨_, hshort, hrest⟩ := bind_ok.1 hbody
      clear hbody h
      rw [require_ok] at hshort
      refine ⟨v, rfl, ?_⟩
      have hlen : ∀ text, v = .str text → text.utf8ByteSize ≤ 256 := by
        rintro text rfl
        exact of_decide_eq_true hshort
      by_cases hin : op = .in_
      · rw [if_pos hin] at hrest
        obtain ⟨items, hitems, hall⟩ := bind_ok.1 hrest
        rw [orThrow_ok, Option.filter_eq_some_iff] at hitems
        rw [require_ok, List.all_eq_true] at hall
        obtain ⟨harr, hbounds⟩ := hitems
        have hv : v = .arr items := by
          cases v <;> simp_all [Json.asArray?]
        have hsize := of_decide_eq_true hbounds
        exact ⟨hlen, fun _ => ⟨items, hv, hsize.1, hsize.2, hall⟩, fun hne => absurd hin hne,
          fun h => absurd h (by simp [hin, isStringOnly]),
          fun h => absurd h (by simp [hin, isComparison])⟩
      · rw [if_neg hin] at hrest
        obtain ⟨_, hscalar, hrest⟩ := bind_ok.1 hrest
        obtain ⟨_, htext, hcomp⟩ := bind_ok.1 hrest
        rw [require_ok] at hscalar htext hcomp
        refine ⟨hlen, fun h => absurd h hin, fun _ => by simpa using hscalar, ?_, ?_⟩
        · intro hop
          simpa [hop] using htext
        · intro hop
          simpa [hop] using hcomp

/-- No field that may be filtered is one the helper keeps out of predicates. -/
theorem filterable_open (namespace_ : NamespaceName) :
    ∀ entry ∈ (Manifest.definitions namespace_).fields, entry.2.filterable →
      entry.1 ∉ ["passwordHash", "content"] := by
  cases namespace_ <;> decide

theorem assertFilterable_ok {namespace_ : NamespaceName} {field : String}
    {definition : Manifest.ManifestField}
    (h : Manifest.assertFilterable namespace_ field = .ok definition) :
    Manifest.field? namespace_ field = some definition ∧ field ∉ ["passwordHash", "content"] := by
  rw [Manifest.assertFilterable, orThrow_ok, Option.filter_eq_some_iff] at h
  refine ⟨h.1, filterable_open namespace_ (field, definition) ?_ h.2⟩
  obtain ⟨before, after, hfields, -⟩ := List.lookup_eq_some_iff.1 h.1
  rw [hfields]
  exact List.mem_append_right _ (List.mem_cons_self ..)

/-! ### A leaf accepted by the helper -/

/-- Of the values the controller admits, the helper refuses a substring test for anything but a text
    and an order test for anything but a number or a text. -/
theorem checkValue_iff {op : PredicateOperator} {type : Manifest.FieldType} {value : Option Json}
    {u u' : Unit} (hvalue : validateValue op type value = .ok u) :
    checkValue op value = .ok u' ↔
      (isStringOnly op → ∃ text, value = some (.str text)) ∧
        (isComparison op → ∃ v ∈ value, v.asNumber?.isSome || v.asString?.isSome) := by
  rcases validateValue_ok hvalue with ⟨rfl, hbool⟩ | ⟨hop, v, rfl, hv⟩
  · have hgot : (value.getD (.bool true)).asBool?.isSome := by
      cases value with
      | none => rfl
      | some v => simpa using hbool
    simp [checkValue, hgot, isStringOnly, isComparison, require]
  · have htext : (((some v).bind Json.asString?).any fun text => text.utf8ByteSize ≤ 256) = true ↔
        ∃ text, some v = some (.str text) := by
      constructor
      · intro h
        cases v <;> simp_all [Json.asString?]
      · rintro ⟨text, h⟩
        cases h
        simpa [Json.asString?] using hv.short text rfl
    cases op with
    | exists_ => exact absurd rfl hop
    | eq => simp [checkValue, isStringOnly, isComparison]
    | neq => simp [checkValue, isStringOnly, isComparison]
    | in_ =>
      obtain ⟨items, rfl, hpos, hle, -⟩ := hv.items rfl
      simp [checkValue, isStringOnly, isComparison, require, Json.asArray?, hle, hpos]
    | contains =>
      rw [checkValue, require_ok, htext]
      simp [isStringOnly, isComparison]
    | startsWith =>
      rw [checkValue, require_ok, htext]
      simp [isStringOnly, isComparison]
    | lt => simp [checkValue, isStringOnly, isComparison, require_ok]
    | lte => simp [checkValue, isStringOnly, isComparison, require_ok]
    | gt => simp [checkValue, isStringOnly, isComparison, require_ok]
    | gte => simp [checkValue, isStringOnly, isComparison, require_ok]

/-! ### The values compared -/

theorem scalar_eq {a item : Json} (hitem : isScalar item) :
    Py.eq a item = (Js.strictEq (some a) (some item) || boolNumber a item) := by
  cases item <;> cases a <;>
    simp_all [isScalar, Py.eq, Js.strictEq, boolNumber, eq_comm]

theorem strictEq_scalar {a item : Json} (hitem : isScalar item) :
    Js.strictEq (some a) (some item) = true ↔ a = item := by
  cases item <;> cases a <;> simp_all [isScalar, Js.strictEq]

/-- A boolean never is the number it counts as. -/
theorem not_strictEq_of_boolNumber {a item : Json} (h : boolNumber a item) :
    Js.strictEq (some a) (some item) = false := by
  cases item <;> cases a <;> simp_all [boolNumber, Js.strictEq]

theorem eq_null {a : Json} (ha : a ≠ .null) : Py.eq a .null = false := by
  cases a <;> simp_all [Py.eq]

theorem null_eq_scalar {item : Json} (hitem : isScalar item) : Py.eq .null item = false := by
  cases item <;> simp_all [Py.eq, isScalar]

/-- No value of the manifest's types is `null`. -/
theorem ne_null_of_wellTyped {r : Normalizer.Runtime} {type : Manifest.FieldType} {a : Json}
    (h : Normalizer.wellTyped r type a) : a ≠ .null := by
  rintro rfl
  cases type <;> simp [Normalizer.wellTyped, Json.isSafeInteger] at h

theorem equality_alike {actual : Option Json} {v : Json} (hactual : ∀ a ∈ actual, a ≠ .null)
    (hv : isScalar v ∨ v = .null) :
    Py.eq (actual.getD .null) v = Js.strictEq actual (some v) ↔
      ¬ (actual = none ∧ some v = some .null) ∧ ∀ a ∈ actual, boolNumber a v = false := by
  cases actual with
  | none =>
    rcases hv with hv | rfl
    · have hne : v ≠ .null := by
        rintro rfl
        cases hv
      simp [null_eq_scalar hv, Js.strictEq, hne]
    · simp [Py.eq, Js.strictEq]
  | some a =>
    have ha := hactual a rfl
    rcases hv with hv | rfl
    · rw [Option.getD_some, scalar_eq hv]
      cases hb : boolNumber a v with
      | false => simp [hb]
      | true => simp [not_strictEq_of_boolNumber hb, hb]
    · rw [Option.getD_some, eq_null ha]
      cases a <;> simp_all [Js.strictEq, boolNumber]

theorem membership_alike {actual : Option Json} {items : List Json}
    (hitems : ∀ item ∈ items, isScalar item) :
    (items.any fun item => Py.eq (actual.getD .null) item) =
        items.any (fun item => Js.strictEq actual (some item)) ↔
      ∀ a ∈ actual, ∀ item ∈ items, boolNumber a item → a ∈ items := by
  cases actual with
  | none =>
    have hpy : (items.any fun item => Py.eq .null item) = false := by
      simpa using fun item hitem => null_eq_scalar (hitems item hitem)
    simp [hpy, Js.strictEq]
  | some a =>
    have hjs : (items.any fun item => Js.strictEq (some a) (some item)) = true ↔ a ∈ items := by
      rw [List.any_eq_true]
      constructor
      · rintro ⟨item, hitem, heq⟩
        rw [(strictEq_scalar (hitems item hitem)).1 heq]
        exact hitem
      · intro hmem
        exact ⟨a, hmem, (strictEq_scalar (hitems a hmem)).2 rfl⟩
    have hpy : (items.any fun item => Py.eq a item) = true ↔
        a ∈ items ∨ ∃ item ∈ items, boolNumber a item := by
      rw [List.any_eq_true]
      constructor
      · rintro ⟨item, hitem, heq⟩
        rw [scalar_eq (hitems item hitem), Bool.or_eq_true] at heq
        rcases heq with heq | heq
        · rw [(strictEq_scalar (hitems item hitem)).1 heq]
          exact Or.inl hitem
        · exact Or.inr ⟨item, hitem, heq⟩
      · rintro (hmem | ⟨item, hitem, hb⟩)
        · refine ⟨a, hmem, ?_⟩
          rw [scalar_eq (hitems a hmem), (strictEq_scalar (hitems a hmem)).2 rfl]
          rfl
        · exact ⟨item, hitem, by rw [scalar_eq (hitems item hitem), hb, Bool.or_true]⟩
    rw [Option.getD_some, Bool.eq_iff_iff, hpy, hjs]
    constructor
    · rintro h _ ⟨⟩ item hitem hb
      exact h.1 (Or.inr ⟨item, hitem, hb⟩)
    · intro h
      refine ⟨?_, Or.inl⟩
      rintro (hmem | ⟨item, hitem, hb⟩)
      · exact hmem
      · exact h a rfl item hitem hb

/-! ### The order of values -/

section

variable {c : Coercions}

/-- How two numbers compare, either of which may be `NaN`. -/
def numbers? (x y : Option ℚ) : Option Ordering :=
  match x, y with
  | some x, some y => some (cmp x y)
  | _, _ => none

/-- How the controller compares a field with a text or a number. -/
def jsCompare? (c : Coercions) (left right : Json) : Option Ordering :=
  match left, right with
  | .str a, .str b => some (cmp (Js.codeUnits a) (Js.codeUnits b))
  | a, b => numbers? (Js.toNumber c a) (Js.toNumber c b)

/-- A value that `comparable` leaves as it is. -/
def isComparable : Json → Bool
  | .num _ | .str _ => true
  | _ => false

theorem isComparable_comparable (value : Option Json) : isComparable (comparable value) := by
  rcases value with _ | v
  · rfl
  · cases v <;> rfl

theorem numbers_lt (x y : Option ℚ) :
    (match x, y with
      | some x, some y => decide (x < y)
      | _, _ => false) = (numbers? x y).any (ordered .lt) := by
  cases x <;> cases y <;> first | rfl | exact decide_eq_decide.2 Js.cmp_eq_lt.symm

theorem numbers_le (x y : Option ℚ) :
    (match x, y with
      | some x, some y => decide (x ≤ y)
      | _, _ => false) = (numbers? x y).any (ordered .lte) := by
  cases x <;> cases y <;> first | rfl | exact decide_eq_decide.2 Js.cmp_ne_gt.symm

theorem lt_eq {a b : Json} (ha : isComparable a) (hb : isComparable b) :
    Js.lt c a b = (jsCompare? c a b).any (ordered .lt) := by
  cases a <;> cases ha <;> cases b <;> cases hb
  · exact numbers_lt (Js.toNumber c (.num _)) (Js.toNumber c (.num _))
  · exact numbers_lt (Js.toNumber c (.num _)) (Js.toNumber c (.str _))
  · exact numbers_lt (Js.toNumber c (.str _)) (Js.toNumber c (.num _))
  · exact decide_eq_decide.2 Js.cmp_eq_lt.symm

theorem le_eq {a b : Json} (ha : isComparable a) (hb : isComparable b) :
    Js.le c a b = (jsCompare? c a b).any (ordered .lte) := by
  cases a <;> cases ha <;> cases b <;> cases hb
  · exact numbers_le (Js.toNumber c (.num _)) (Js.toNumber c (.num _))
  · exact numbers_le (Js.toNumber c (.num _)) (Js.toNumber c (.str _))
  · exact numbers_le (Js.toNumber c (.str _)) (Js.toNumber c (.num _))
  · exact decide_eq_decide.2 Js.cmp_ne_gt.symm

theorem cmp_swap_units (a b : String) :
    cmp (Js.codeUnits b) (Js.codeUnits a) = (cmp (Js.codeUnits a) (Js.codeUnits b)).swap :=
  (Js.codeUnitCollation.swap a b).symm

theorem jsCompare_swap {a b : Json} (ha : isComparable a) (hb : isComparable b) :
    jsCompare? c b a = (jsCompare? c a b).map Ordering.swap := by
  have hnumbers : ∀ x y : Option ℚ, numbers? y x = (numbers? x y).map Ordering.swap := by
    intro x y
    cases x <;> cases y <;> first | rfl | exact congrArg some (cmp_swap _ _).symm
  cases a <;> cases ha <;> cases b <;> cases hb
  · exact hnumbers (Js.toNumber c (.num _)) (Js.toNumber c (.num _))
  · exact hnumbers (Js.toNumber c (.num _)) (Js.toNumber c (.str _))
  · exact hnumbers (Js.toNumber c (.str _)) (Js.toNumber c (.num _))
  · exact congrArg some (cmp_swap_units _ _)

/-- The four operators of the controller read one comparison. -/
theorem evaluateLeaf_ordered {op : PredicateOperator} (hop : isComparison op)
    (actual : Option Json) (v : Json) (hv : isComparable v) :
    evaluateLeaf c op actual (some v) = (jsCompare? c (comparable actual) v).any (ordered op) := by
  have hactual := isComparable_comparable actual
  have hcomp : comparable (some v) = v := by
    cases v <;> first | rfl | cases hv
  have hswap : ∀ (o : Option Ordering) (op op' : PredicateOperator),
      (∀ o, ordered op o.swap = ordered op' o) →
        (o.map Ordering.swap).any (ordered op) = o.any (ordered op') := by
    intro o op op' h
    cases o <;> simp [h]
  cases op with
  | lt => exact (congrArg _ hcomp).trans (lt_eq hactual hv)
  | lte => exact (congrArg _ hcomp).trans (le_eq hactual hv)
  | gt =>
    rw [evaluateLeaf, hcomp, Js.gt, lt_eq hv hactual, jsCompare_swap hactual hv]
    exact hswap _ .lt .gt (by decide)
  | gte =>
    rw [evaluateLeaf, hcomp, le_eq hv hactual, jsCompare_swap hactual hv]
    exact hswap _ .lte .gte (by decide)
  | _ => cases hop

/-- The empty text comes first in both orders. -/
theorem cmp_empty (b : String) : cmp (Js.codeUnits "") (Js.codeUnits b) = cmp "" b := by
  by_cases hb : b = ""
  · rw [hb, Js.cmp_eq_eq.2 rfl, Js.cmp_eq_eq.2 rfl]
  · have hunits : Js.codeUnits b ≠ [] := fun h => hb (Js.codeUnits_injective h)
    have hlist : b.toList ≠ [] := fun h => hb (String.toList_eq_nil_iff.1 h)
    rw [Js.cmp_eq_lt.2, Js.cmp_eq_lt.2]
    · rw [String.lt_iff_toList_lt]
      cases hl : b.toList with
      | nil => exact absurd hl hlist
      | cons ch chs => exact List.nil_lt_cons _ _
    · cases hl : Js.codeUnits b with
      | nil => exact absurd hl hunits
      | cons unit units => exact List.nil_lt_cons _ _

/-- Two orders of texts that answer one operator alike agree. -/
theorem texts_alike {op : PredicateOperator} (hop : isComparison op) (a b : String) :
    ordered op (cmp a b) = ordered op (cmp (Js.codeUnits a) (Js.codeUnits b)) ↔
      cmp (Js.codeUnits a) (Js.codeUnits b) = cmp a b := by
  have heq : cmp (Js.codeUnits a) (Js.codeUnits b) = .eq ↔ cmp a b = .eq := by
    rw [Js.cmp_eq_eq, Js.cmp_eq_eq, Js.codeUnits_injective.eq_iff]
  generalize cmp (Js.codeUnits a) (Js.codeUnits b) = units at heq ⊢
  generalize cmp a b = points at heq ⊢
  cases op <;> cases hop <;> cases units <;> cases points <;> simp_all [ordered]

/-- Python orders what the controller orders, and only numbers among themselves and texts among
    themselves. -/
theorem order_alike {op : PredicateOperator} (hop : isComparison op) {actual : Option Json}
    {v : Json} (hactual : ∀ a ∈ actual, isComparable a) (hv : isComparable v) :
    (Py.compare? (actual.getD .null) v).any (ordered op) =
        evaluateLeaf c op actual (some v) ↔ OrderedAlike c op actual v := by
  rw [evaluateLeaf_ordered hop actual v hv]
  have hmixed : ∀ x y : Option ℚ, (none : Option Ordering).any (ordered op) =
      (numbers? x y).any (ordered op) ↔ ∀ p ∈ x, ∀ q ∈ y, ordered op (cmp p q) = false := by
    intro x y
    rcases x with _ | p
    · exact iff_of_true rfl fun _ h => nomatch h
    rcases y with _ | q
    · exact iff_of_true rfl fun _ _ _ h => nomatch h
    constructor
    · rintro h _ ⟨⟩ _ ⟨⟩
      exact h.symm
    · intro h
      exact (h p rfl q rfl).symm
  cases hact : actual with
  | none =>
    cases v with
    | num q => exact hmixed (Js.toNumber c (.str "")) (Js.toNumber c (.num q))
    | str b =>
      change false = ordered op (cmp (Js.codeUnits "") (Js.codeUnits b)) ↔
        ordered op (cmp "" b) = false
      rw [cmp_empty b]
      exact eq_comm
    | _ => cases hv
  | some a =>
    have ha := hactual a hact
    cases a with
    | num p =>
      cases v with
      | num q => exact iff_of_true rfl trivial
      | str b => exact hmixed (Js.toNumber c (.num p)) (Js.toNumber c (.str b))
      | _ => cases hv
    | str a =>
      cases v with
      | num q => exact hmixed (Js.toNumber c (.str a)) (Js.toNumber c (.num q))
      | str b => exact texts_alike hop a b
      | _ => cases hv
    | _ => cases ha

theorem comparable_of_wellTyped {r : Normalizer.Runtime} {type : Manifest.FieldType} {a : Json}
    (htype : type ∈ [.integer, .number, .timestamp, .string])
    (h : Normalizer.wellTyped r type a) : isComparable a := by
  simp only [List.mem_cons, List.not_mem_nil, or_false] at htype
  rcases htype with rfl | rfl | rfl | rfl <;> cases a <;>
    simp_all [Normalizer.wellTyped, Json.isSafeInteger, isComparable]

theorem isComparable_iff {v : Json} :
    isComparable v = true ↔ (v.asNumber?.isSome || v.asString?.isSome) = true := by
  cases v <;> simp [isComparable, Json.asNumber?, Json.asString?]

theorem ordered_leaf {op : PredicateOperator} (hop : isComparison op) {actual : Option Json}
    {v : Json} (hactual : ∀ a ∈ actual, isComparable a)
    (hv : v.asNumber?.isSome || v.asString?.isSome) :
    testLeaf op (actual.getD .null) (some v) = .ok (evaluateLeaf c op actual (some v)) ↔
      ValueAlike c op actual (some v) := by
  have htest : testLeaf op (actual.getD .null) (some v) =
      .ok ((Py.compare? (actual.getD .null) v).any (ordered op)) := by
    cases op <;> first | rfl | cases hop
  have hvalue : ValueAlike c op actual (some v) ↔ OrderedAlike c op actual v := by
    have hunfold : ValueAlike c op actual (some v) ↔
        ∃ expected ∈ some v, (expected.asNumber?.isSome || expected.asString?.isSome) ∧
          OrderedAlike c op actual expected := by
      cases op <;> first | exact Iff.rfl | cases hop
    rw [hunfold]
    constructor
    · rintro ⟨_, ⟨⟩, -, h⟩
      exact h
    · intro h
      exact ⟨v, rfl, hv, h⟩
  rw [htest, Except.ok.injEq, hvalue]
  exact order_alike hop hactual (isComparable_iff.2 hv)

/-- The substring tests are the same function of two texts. -/
theorem text_leaf {op : PredicateOperator} (hop : isStringOnly op) {actual : Option Json}
    {text : String} (hactual : ∀ a ∈ actual, a.asString?.isSome) :
    testLeaf op (actual.getD .null) (some (.str text)) =
      .ok (evaluateLeaf c op actual (some (.str text))) := by
  cases actual with
  | none => cases op <;> first | rfl | cases hop
  | some a =>
    have ha := hactual a rfl
    cases a with
    | str a => cases op <;> first | rfl | cases hop
    | _ => cases ha

theorem exists_leaf {actual value : Option Json} (hactual : ∀ a ∈ actual, a ≠ .null)
    (hvalue : value.all fun v => v.asBool?.isSome) :
    testLeaf .exists_ (actual.getD .null) value = .ok (evaluateLeaf c .exists_ actual value) := by
  have hpresent : decide (actual.getD .null ≠ .null) = isPresent actual := by
    cases actual with
    | none => rfl
    | some a =>
      have ha := hactual a rfl
      simp [isPresent, ha]
  rw [testLeaf, evaluateLeaf, hpresent]
  cases value with
  | none => cases isPresent actual <;> rfl
  | some v =>
    cases v with
    | bool b => cases b <;> cases isPresent actual <;> rfl
    | _ => cases hvalue

/-- A leaf that both sides accept evaluates alike exactly under the condition on its value. -/
theorem testLeaf_iff {r : Normalizer.Runtime} {op : PredicateOperator} {type : Manifest.FieldType}
    {actual value : Option Json} {u : Unit} (hvalue : validateValue op type value = .ok u)
    (htyped : ∀ a ∈ actual, Normalizer.wellTyped r type a)
    (htext : isStringOnly op → ∃ text, value = some (.str text))
    (hcomp : isComparison op → ∃ v ∈ value, v.asNumber?.isSome || v.asString?.isSome) :
    testLeaf op (actual.getD .null) value = .ok (evaluateLeaf c op actual value) ↔
      ValueAlike c op actual value := by
  have hnull : ∀ a ∈ actual, a ≠ .null := fun a ha => ne_null_of_wellTyped (htyped a ha)
  rcases validateValue_ok hvalue with ⟨rfl, hbool⟩ | ⟨hop, v, rfl, hv⟩
  · exact iff_of_true (exists_leaf hnull hbool) trivial
  have hstring : isStringOnly op →
      (testLeaf op (actual.getD .null) (some v) = .ok (evaluateLeaf c op actual (some v)) ↔
        ∃ text, some v = some (.str text)) := by
    intro hs
    obtain ⟨text, htext⟩ := htext hs
    cases htext
    refine iff_of_true (text_leaf hs ?_) ⟨text, rfl⟩
    intro a ha
    have hty := htyped a ha
    rw [hv.text hs] at hty
    cases a <;> simp_all [Normalizer.wellTyped, Json.asString?]
  have horder : isComparison op →
      (testLeaf op (actual.getD .null) (some v) = .ok (evaluateLeaf c op actual (some v)) ↔
        ValueAlike c op actual (some v)) := by
    intro hc
    obtain ⟨_, ⟨⟩, hnumeric⟩ := hcomp hc
    exact ordered_leaf hc (fun a ha => comparable_of_wellTyped (hv.comparable hc) (htyped a ha))
      hnumeric
  cases op with
  | exists_ => exact absurd rfl hop
  | eq =>
    simp only [testLeaf, Option.getD_some, Except.ok.injEq, evaluateLeaf, ValueAlike]
    rw [equality_alike hnull (hv.scalar (by decide))]
    simp
  | neq =>
    simp only [testLeaf, Option.getD_some, Except.ok.injEq, evaluateLeaf, ValueAlike,
      Bool.not_inj_iff]
    rw [equality_alike hnull (hv.scalar (by decide))]
    simp
  | in_ =>
    obtain ⟨items, rfl, -, -, hitems⟩ := hv.items rfl
    simp only [testLeaf, Option.getD_some, Except.ok.injEq, evaluateLeaf, ValueAlike,
      Json.asArray?, Option.bind_some]
    rw [membership_alike hitems]
    simp
  | contains => exact hstring rfl
  | startsWith => exact hstring rfl
  | lt => exact horder rfl
  | lte => exact horder rfl
  | gt => exact horder rfl
  | gte => exact horder rfl

end

/-! ### Whole predicates -/

theorem enterNode_ok {depth count : ℕ} {u : Unit} :
    enterNode depth count = .ok u ↔ depth ≤ 4 ∧ count ≤ 32 := by
  rw [enterNode, require_ok, decide_eq_true_eq]

/-- The limits of `enumerate`. -/
def enumerateLimits : Limits := ⟨Manifest.predicateDepth, Manifest.predicateNodes⟩

theorem enter_ok {depth nodes : ℕ} {u : Unit} (h : enter enumerateLimits depth nodes = .ok u) :
    depth ≤ 4 ∧ nodes + 1 ≤ 32 := by
  obtain ⟨_, hnodes, hdepth⟩ := bind_ok.1 h
  rw [require_ok, decide_eq_true_eq] at hnodes hdepth
  exact ⟨hdepth, hnodes⟩

mutual
/-- A predicate accepted in place is accepted closer to the root and with fewer nodes before it. -/
theorem validate_mono {namespace_ : NamespaceName} {depth count depth' count' n : ℕ}
    (hdepth : depth' ≤ depth) (hcount : count' ≤ count) : ∀ {p : Predicate},
    v2_validate_predicate namespace_ depth count p = .ok n →
      ∃ n' ≤ n, v2_validate_predicate namespace_ depth' count' p = .ok n'
  | .and args, h | .or args, h => by
      simp only [v2_validate_predicate, bind_ok, enterNode_ok, require_ok] at h ⊢
      obtain ⟨-, hentered, -, hargs, h⟩ := h
      obtain ⟨n', hle, h'⟩ := validate_children_mono (Nat.succ_le_succ hdepth)
        (Nat.succ_le_succ hcount) h
      exact ⟨n', hle, (), by omega, (), hargs, h'⟩
  | .not arg, h => by
      simp only [v2_validate_predicate, bind_ok, enterNode_ok] at h ⊢
      obtain ⟨-, hentered, h⟩ := h
      obtain ⟨n', hle, h'⟩ := validate_mono (Nat.succ_le_succ hdepth)
        (Nat.succ_le_succ hcount) h
      exact ⟨n', hle, (), by omega, h'⟩
  | .leaf op field value, h => by
      simp only [v2_validate_predicate, bind_ok, enterNode_ok, pure_ok] at h ⊢
      obtain ⟨_, hentered, _, hleaf, rfl⟩ := h
      exact ⟨count' + 1, Nat.succ_le_succ hcount, (), by omega, (), hleaf, rfl⟩

theorem validate_children_mono {namespace_ : NamespaceName} {depth count depth' count' n : ℕ}
    (hdepth : depth' ≤ depth) (hcount : count' ≤ count) : ∀ {args : List Predicate},
    v2_validate_children namespace_ depth count args = .ok n →
      ∃ n' ≤ n, v2_validate_children namespace_ depth' count' args = .ok n'
  | [], h => by
      cases h
      exact ⟨count', hcount, rfl⟩
  | arg :: args, h => by
      simp only [v2_validate_children, bind_ok] at h ⊢
      obtain ⟨k, harg, hargs⟩ := h
      obtain ⟨k', hk, harg'⟩ := validate_mono hdepth hcount harg
      obtain ⟨n', hle, hargs'⟩ := validate_children_mono hdepth hk hargs
      exact ⟨n', hle, k', harg', hargs'⟩
end

section

variable {c : Coercions} {r : Normalizer.Runtime} {namespace_ : NamespaceName}
  {payload : List (String × Json)}

/-- What the controller has checked of a leaf. -/
theorem visit_leaf {depth nodes n : ℕ} {op : PredicateOperator} {field : String}
    {value : Option Json}
    (h : visit enumerateLimits namespace_ depth nodes (.leaf op field value) = .ok n) :
    (depth ≤ 4 ∧ nodes + 1 ≤ 32) ∧ n = nodes + 1 ∧ field ∉ ["passwordHash", "content"] ∧
      ∃ definition, Manifest.field? namespace_ field = some definition ∧
        validateValue op definition.type value = .ok () := by
  simp only [visit, bind_ok, pure_ok] at h
  obtain ⟨_, henter, _, -, definition, hdefinition, _, hvalue, rfl⟩ := h
  obtain ⟨hfield, hopen⟩ := assertFilterable_ok hdefinition
  exact ⟨enter_ok henter, rfl, hopen, definition, hfield, hvalue⟩

/-- The helper accepts a leaf when it knows the field and admits the value. -/
theorem checkLeaf_iff {op : PredicateOperator} {field : String} {type : Manifest.FieldType}
    {value : Option Json} {u : Unit} (hopen : field ∉ ["passwordHash", "content"])
    (hvalue : validateValue op type value = .ok u) :
    checkLeaf namespace_ op field value = .ok () ↔
      field ∈ v2NamespaceFields namespace_ ∧
        (isStringOnly op → ∃ text, value = some (.str text)) ∧
        (isComparison op → ∃ v ∈ value, v.asNumber?.isSome || v.asString?.isSome) := by
  rw [checkLeaf, bind_ok, ← checkValue_iff hvalue]
  constructor
  · rintro ⟨_, hfield, hcheck⟩
    rw [require_ok, decide_eq_true_eq] at hfield
    exact ⟨hfield.1, hcheck⟩
  · rintro ⟨hfield, hcheck⟩
    exact ⟨(), by rw [require_ok, decide_eq_true_eq]; exact ⟨hfield, hopen⟩, hcheck⟩

/-- The condition on the value of a leaf contains what the helper asks of it. -/
theorem admits_of_valueAlike {op : PredicateOperator} {actual value : Option Json}
    (h : ValueAlike c op actual value) :
    (isStringOnly op → ∃ text, value = some (.str text)) ∧
      (isComparison op → ∃ v ∈ value, v.asNumber?.isSome || v.asString?.isSome) := by
  cases op with
  | contains => exact ⟨fun _ => h, fun hc => by cases hc⟩
  | startsWith => exact ⟨fun _ => h, fun hc => by cases hc⟩
  | lt | lte | gt | gte =>
    obtain ⟨v, hv, hnumeric, -⟩ := h
    exact ⟨fun hs => (by cases hs), fun _ => ⟨v, hv, hnumeric⟩⟩
  | _ => exact ⟨fun hs => (by cases hs), fun hc => (by cases hc)⟩

mutual
theorem validate_of_visit {depth nodes n : ℕ} : ∀ {p : Predicate},
    visit enumerateLimits namespace_ depth nodes p = .ok n → Alike c namespace_ payload p →
      v2_validate_predicate namespace_ depth nodes p = .ok n
  | .and args, h, halike | .or args, h, halike => by
      simp only [visit, bind_ok, require_ok, decide_eq_true_eq] at h
      obtain ⟨_, henter, _, hlength, hargs⟩ := h
      have hsome : (!args.isEmpty) = true := by
        cases args with
        | nil => exact absurd hlength.1 (by decide)
        | cons => rfl
      simp only [v2_validate_predicate, bind_ok, enterNode_ok, require_ok]
      exact ⟨(), enter_ok henter, (), hsome, validate_children_of_visit hargs halike⟩
  | .not arg, h, halike => by
      simp only [visit, bind_ok] at h
      obtain ⟨_, henter, harg⟩ := h
      simp only [v2_validate_predicate, bind_ok, enterNode_ok]
      exact ⟨(), enter_ok henter, validate_of_visit harg halike⟩
  | .leaf op field value, h, halike => by
      obtain ⟨henter, rfl, hopen, definition, -, hvalue⟩ := visit_leaf h
      simp only [v2_validate_predicate, bind_ok, enterNode_ok, pure_ok]
      exact ⟨(), henter, (), (checkLeaf_iff hopen hvalue).2
        ⟨halike.1, admits_of_valueAlike halike.2⟩, trivial⟩

theorem validate_children_of_visit {depth nodes n : ℕ} : ∀ {args : List Predicate},
    visitAll enumerateLimits namespace_ depth nodes args = .ok n →
      AllAlike c namespace_ payload args →
      v2_validate_children namespace_ depth nodes args = .ok n
  | [], h, _ => by
      cases h
      rfl
  | arg :: args, h, halike => by
      simp only [visitAll, bind_ok] at h
      obtain ⟨k, harg, hargs⟩ := h
      simp only [v2_validate_children, bind_ok]
      exact ⟨k, validate_of_visit harg halike.1, validate_children_of_visit hargs halike.2⟩
end

theorem evaluateAll_eq (args : List Predicate) :
    Predicate.evaluateAll c payload args = (args.map (Predicate.evaluate c payload)).all id := by
  induction args with
  | nil => rfl
  | cons arg args ih => rw [Predicate.evaluateAll, ih, List.map_cons, List.all_cons, id_eq]

theorem evaluateAny_eq (args : List Predicate) :
    Predicate.evaluateAny c payload args = (args.map (Predicate.evaluate c payload)).any id := by
  induction args with
  | nil => rfl
  | cons arg args ih => rw [Predicate.evaluateAny, ih, List.map_cons, List.any_cons, id_eq]

theorem accepted_of_visit {depth nodes n : ℕ} {p : Predicate}
    (h : visit enumerateLimits namespace_ depth nodes p = .ok n) (hdepth : 1 ≤ depth)
    (halike : Alike c namespace_ payload p) :
    ∃ count, v2_validate_predicate namespace_ 1 0 p = .ok count := by
  obtain ⟨count, -, hcount⟩ := validate_mono hdepth (Nat.zero_le nodes) (validate_of_visit h halike)
  exact ⟨count, hcount⟩

mutual
theorem predicate_of_visit (htyped : Typed r namespace_ payload) {depth nodes n : ℕ}
    (hdepth : 1 ≤ depth) : ∀ {p : Predicate},
    visit enumerateLimits namespace_ depth nodes p = .ok n → Alike c namespace_ payload p →
      v2_predicate namespace_ payload p = .ok (p.evaluate c payload)
  | .and args, h, halike => by
      obtain ⟨count, hcount⟩ := accepted_of_visit h hdepth halike
      simp only [visit, bind_ok] at h
      obtain ⟨_, -, _, -, hargs⟩ := h
      have hvalues := predicates_of_visit htyped (Nat.succ_pos _) hargs halike
      simp only [v2_predicate, bind_ok, pure_ok]
      refine ⟨count, hcount, _, hvalues, ?_⟩
      rw [Predicate.evaluate, evaluateAll_eq]
  | .or args, h, halike => by
      obtain ⟨count, hcount⟩ := accepted_of_visit h hdepth halike
      simp only [visit, bind_ok] at h
      obtain ⟨_, -, _, -, hargs⟩ := h
      have hvalues := predicates_of_visit htyped (Nat.succ_pos _) hargs halike
      simp only [v2_predicate, bind_ok, pure_ok]
      refine ⟨count, hcount, _, hvalues, ?_⟩
      rw [Predicate.evaluate, evaluateAny_eq]
  | .not arg, h, halike => by
      obtain ⟨count, hcount⟩ := accepted_of_visit h hdepth halike
      simp only [visit, bind_ok] at h
      obtain ⟨_, -, harg⟩ := h
      have hvalue := predicate_of_visit htyped (Nat.succ_pos _) harg halike
      simp only [v2_predicate, bind_ok, pure_ok]
      refine ⟨count, hcount, _, hvalue, ?_⟩
      rw [Predicate.evaluate]
  | .leaf op field value, h, halike => by
      obtain ⟨count, hcount⟩ := accepted_of_visit h hdepth halike
      obtain ⟨-, rfl, -, definition, hfield, hvalue⟩ := visit_leaf h
      obtain ⟨htext, hcomp⟩ := admits_of_valueAlike halike.2
      have hleaf := (testLeaf_iff (c := c) hvalue
        (fun a ha => htyped field a ha definition hfield) htext hcomp).2 halike.2
      simp only [v2_predicate, bind_ok]
      exact ⟨count, hcount, hleaf⟩

theorem predicates_of_visit (htyped : Typed r namespace_ payload) {depth nodes n : ℕ}
    (hdepth : 1 ≤ depth) : ∀ {args : List Predicate},
    visitAll enumerateLimits namespace_ depth nodes args = .ok n →
      AllAlike c namespace_ payload args →
      v2_predicates namespace_ payload args = .ok (args.map (Predicate.evaluate c payload))
  | [], _, _ => rfl
  | arg :: args, h, halike => by
      simp only [visitAll, bind_ok] at h
      obtain ⟨k, harg, hargs⟩ := h
      simp only [v2_predicates, bind_ok, pure_ok]
      exact ⟨_, predicate_of_visit htyped hdepth harg halike.1, _,
        predicates_of_visit htyped hdepth hargs halike.2, rfl⟩
end

/-- Where the helper accepts a leaf and answers it as the controller does, the condition on the leaf holds. -/
theorem leafAlike_of_sameAnswer (htyped : Typed r namespace_ payload) {depth nodes n count : ℕ}
    {op : PredicateOperator} {field : String} {value : Option Json}
    (h : visit enumerateLimits namespace_ depth nodes (.leaf op field value) = .ok n)
    (hcount : v2_validate_predicate namespace_ 1 0 (.leaf op field value) = .ok count)
    (hanswer : v2_predicate namespace_ payload (.leaf op field value) =
      .ok (evaluateLeaf c op (payload.lookup field) value)) : LeafAlike c namespace_ payload op field value := by
  obtain ⟨-, -, hopen, definition, hfield, hvalue⟩ := visit_leaf h
  simp only [v2_validate_predicate, bind_ok] at hcount
  obtain ⟨_, -, _, hcheck, -⟩ := hcount
  obtain ⟨hknown, htext, hcomp⟩ := (checkLeaf_iff hopen hvalue).1 hcheck
  simp only [v2_predicate, bind_ok] at hanswer
  obtain ⟨_, -, hleaf⟩ := hanswer
  have hfieldTyped : ∀ a ∈ payload.lookup field, Normalizer.wellTyped r definition.type a :=
    fun a ha => htyped field a ha definition hfield
  exact ⟨hknown, (testLeaf_iff hvalue hfieldTyped htext hcomp).1 hleaf⟩

end

theorem typed_of_all {r : Normalizer.Runtime} {namespace_ : NamespaceName}
    {payload : List (String × Json)}
    (h : payload.all fun e => (Manifest.field? namespace_ e.1).all fun definition =>
      Normalizer.wellTyped r definition.type e.2) : Typed r namespace_ payload := by
  intro field value hvalue definition hdefinition
  obtain ⟨before, after, hpayload, -⟩ := List.lookup_eq_some_iff.1 hvalue
  have hmem : (field, value) ∈ payload := by
    rw [hpayload]
    exact List.mem_append_right _ (List.mem_cons_self ..)
  have hfield := List.all_eq_true.1 h (field, value) hmem
  rw [hdefinition] at hfield
  exact hfield

end HuntWarden.Helper
