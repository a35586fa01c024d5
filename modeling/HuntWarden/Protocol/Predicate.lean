import HuntWarden.Lib.Js
import HuntWarden.Protocol.Manifest
import Mathlib.Data.List.Infix

/-! Predicates over the payload of an observation: their validation against the manifest, and their
    evaluation, which follows the comparison operators of the language. -/

namespace HuntWarden

open Outcome

inductive PredicateOperator where
  | eq | neq | lt | lte | gt | gte | in_ | contains | startsWith | exists_
  deriving DecidableEq, Repr

def PredicateOperator.name : PredicateOperator → String
  | .eq => "eq"
  | .neq => "neq"
  | .lt => "lt"
  | .lte => "lte"
  | .gt => "gt"
  | .gte => "gte"
  | .in_ => "in"
  | .contains => "contains"
  | .startsWith => "starts_with"
  | .exists_ => "exists"

inductive Predicate where
  | and (args : List Predicate)
  | or (args : List Predicate)
  | not (arg : Predicate)
  | leaf (op : PredicateOperator) (field : String) (value : Option Json)
  deriving Repr

namespace Predicate

/-- `comparison`. -/
def isComparison : PredicateOperator → Bool
  | .lt | .lte | .gt | .gte => true
  | _ => false

/-- `stringOnly`. -/
def isStringOnly : PredicateOperator → Bool
  | .contains | .startsWith => true
  | _ => false

def isScalar : Json → Bool
  | .str _ | .num _ | .bool _ => true
  | _ => false

/-- The texts and arrays a leaf may not exceed, and the operators its field admits. -/
def validateValue (op : PredicateOperator) (type : Manifest.FieldType) (value : Option Json) :
    Except Thrown Unit :=
  match op, value with
  | .exists_, value =>
    require (value.all fun v => v.asBool?.isSome)
      (invalidArgument "exists.value 必须省略或为 boolean")
  | op, none => .error (invalidArgument s!"{op.name} 缺少 value")
  | op, some value => do
    require (value.asString?.all fun s => s.utf8ByteSize ≤ Manifest.predicateStringBytes)
      (invalidArgument "Predicate 字符串超过上限")
    if op = .in_ then
      let items ← orThrow (value.asArray?.filter fun items =>
          1 ≤ items.length ∧ items.length ≤ Manifest.predicateInItems)
        (invalidArgument "in.value 必须是有界数组")
      require (items.all isScalar) (invalidArgument "in.value 含非法类型")
    else
      require (isScalar value || value = .null) (invalidArgument s!"{op.name}.value 必须是标量")
      require (!isStringOnly op || type = .string) (invalidArgument s!"{op.name} 仅支持字符串字段")
      require (!isComparison op || type ∈ [.integer, .number, .timestamp, .string])
        (invalidArgument s!"{op.name} 与字段类型不兼容")

structure Limits where
  depth : ℕ
  nodes : ℕ

def enter (limits : Limits) (depth nodes : ℕ) : Except Thrown Unit := do
  require (nodes + 1 ≤ limits.nodes) (invalidArgument "Predicate 节点超过上限")
  require (depth ≤ limits.depth) (invalidArgument "Predicate 深度超过上限")

mutual
/-- One node; `nodes` counts the nodes visited so far. -/
def visit (limits : Limits) (namespace_ : NamespaceName) (depth nodes : ℕ) :
    Predicate → Except Thrown ℕ
  | .and args => do
    enter limits depth nodes
    require (1 ≤ args.length ∧ args.length ≤ 32) (invalidArgument "and 参数数量无效")
    visitAll limits namespace_ (depth + 1) (nodes + 1) args
  | .or args => do
    enter limits depth nodes
    require (1 ≤ args.length ∧ args.length ≤ 32) (invalidArgument "or 参数数量无效")
    visitAll limits namespace_ (depth + 1) (nodes + 1) args
  | .not arg => do
    enter limits depth nodes
    visit limits namespace_ (depth + 1) (nodes + 1) arg
  | .leaf op field value => do
    enter limits depth nodes
    require (field ≠ "") (invalidArgument s!"{op.name} 缺少 field")
    let definition ← Manifest.assertFilterable namespace_ field
    validateValue op definition.type value
    return nodes + 1

def visitAll (limits : Limits) (namespace_ : NamespaceName) (depth nodes : ℕ) :
    List Predicate → Except Thrown ℕ
  | [] => .ok nodes
  | arg :: args => do
    let nodes ← visit limits namespace_ depth nodes arg
    visitAll limits namespace_ depth nodes args
end

def validatePredicate (namespace_ : NamespaceName) (predicate : Option Predicate)
    (limits : Limits) : Except Thrown Unit :=
  match predicate with
  | none => .ok ()
  | some predicate => do
    let _ ← visit limits namespace_ 1 0 predicate
    return ()

/-- `comparable`: anything but a number or a text compares as the empty text. -/
def comparable : Option Json → Json
  | some (.num q) => .num q
  | some (.str s) => .str s
  | _ => .str ""

/-- `expected ?? true`, as a condition. -/
def wantsPresence (expected : Option Json) : Bool :=
  match expected with
  | none | some .null => true
  | some value => Js.truthy value

def isPresent (actual : Option Json) : Bool := actual ≠ none && actual ≠ some .null

variable (c : Coercions)

def evaluateLeaf (op : PredicateOperator) (actual expected : Option Json) : Bool :=
  match op with
  | .exists_ => wantsPresence expected == isPresent actual
  | .eq => Js.strictEq actual expected
  | .neq => !Js.strictEq actual expected
  | .lt => Js.lt c (comparable actual) (comparable expected)
  | .lte => Js.le c (comparable actual) (comparable expected)
  | .gt => Js.gt c (comparable actual) (comparable expected)
  | .gte => Js.le c (comparable expected) (comparable actual)
  | .in_ => ((expected.bind Json.asArray?).getD []).any fun item => Js.strictEq actual (some item)
  | .contains =>
    match actual.bind Json.asString?, expected.bind Json.asString? with
    | some text, some part => decide (part.toList <:+: text.toList)
    | _, _ => false
  | .startsWith =>
    match actual.bind Json.asString?, expected.bind Json.asString? with
    | some text, some part => part.toList.isPrefixOf text.toList
    | _, _ => false

mutual
def evaluate (payload : List (String × Json)) : Predicate → Bool
  | .and args => evaluateAll payload args
  | .or args => evaluateAny payload args
  | .not arg => !evaluate payload arg
  | .leaf op field value => evaluateLeaf c op (payload.lookup field) value

def evaluateAll (payload : List (String × Json)) : List Predicate → Bool
  | [] => true
  | arg :: args => evaluate payload arg && evaluateAll payload args

def evaluateAny (payload : List (String × Json)) : List Predicate → Bool
  | [] => false
  | arg :: args => evaluate payload arg || evaluateAny payload args
end

/-- `evaluatePredicate`; an absent predicate holds of everything. -/
def evaluatePredicate (predicate : Option Predicate) (payload : List (String × Json)) : Bool :=
  predicate.all (evaluate c payload)

end Predicate

end HuntWarden
