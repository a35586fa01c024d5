import HuntWarden.Helper.Predicate
import HuntWarden.Lib.Record
import HuntWarden.Protocol.PredicateWalk

/-! The predicate as the helper receives it: any JSON value, of which the helper too goes by `op`. A node that the
    controller has accepted reads as one predicate. Both sides take the node for it, the controller only as long as no
    node carries a property by which it takes the node for another. -/

namespace HuntWarden.Helper.Node

open Outcome Predicate PredicateWalk

/-! ### The helper -/

/-- What the helper raises: an error of its own, or one of the language. -/
inductive Raised where
  | helper (error : HelperError)
  | native (name : String)
  deriving DecidableEq, Repr

def invalid (message : String) : Raised := .helper (Helper.invalidArgument message)

/-- `node.get("op")` where a set is asked for it: lists and records have no hash. -/
def operatorOf (node : Json) : Except Raised (Option String) :=
  match node.get? "op" with
  | some (.arr _) | some (.obj _) => .error (.native "TypeError")
  | op => .ok (op.bind Json.asString?)

/-- The checks of a node that is no group and no negation. -/
def checkField (namespace_ : NamespaceName) (op : Option String) (node : Json) : Except HelperError Unit := do
  let field ← orThrow ((node.get? "field").bind Json.asString?)
    (Helper.invalidArgument "predicate field is not allowed by the v2 manifest")
  require (field ∈ v2NamespaceFields namespace_ ∧ field ∉ ["passwordHash", "content"])
    (Helper.invalidArgument "predicate field is not allowed by the v2 manifest")
  let operator ← orThrow (op.bind operator?) (Helper.invalidArgument "unsupported predicate operator")
  checkValue operator (node.get? "value")

mutual
/-- `v2_validate_predicate`; `count` is the number of nodes seen before this one. -/
def v2_validate_predicate (namespace_ : NamespaceName) (depth count : ℕ) (node : Json) : Except Raised ℕ := do
  require (depth ≤ 4 ∧ count + 1 ≤ 32 ∧ node.isRecord) (invalid "invalid predicate AST")
  let op ← operatorOf node
  if op = some "and" ∨ op = some "or" then
    match _h : node.get? "args" with
    | some (.arr args) => do
      require (!args.isEmpty) (invalid "invalid predicate group")
      v2_validate_children namespace_ (depth + 1) (count + 1) args
    | _ => .error (invalid "invalid predicate group")
  else if op = some "not" then
    match _h : node.get? "arg" with
    | some arg => v2_validate_predicate namespace_ (depth + 1) (count + 1) arg
    -- `None` is no record
    | none => .error (invalid "invalid predicate AST")
  else do
    (checkField namespace_ op node).mapError .helper
    return count + 1
termination_by sizeOf node
decreasing_by
  · exact sizeOf_args _h
  · exact sizeOf_get? _h

def v2_validate_children (namespace_ : NamespaceName) (depth count : ℕ) : List Json → Except Raised ℕ
  | [] => .ok count
  | child :: children => do
    let count ← v2_validate_predicate namespace_ depth count child
    v2_validate_children namespace_ depth count children
termination_by children => sizeOf children
end

mutual
/-- `v2_predicate` validates every node before it looks at it, so that no key is missing then and no operator
    unknown. -/
def v2_predicate (namespace_ : NamespaceName) (fields : List (String × Json)) (node : Json) : Except Raised Bool := do
  let _ ← v2_validate_predicate namespace_ 1 0 node
  let op ← operatorOf node
  if op = some "and" ∨ op = some "or" then
    match _h : node.get? "args" with
    | some (.arr args) => do
      let values ← v2_predicates namespace_ fields args
      return if op = some "and" then values.all id else values.any id
    | _ => .error (.native "KeyError")
  else if op = some "not" then
    match _h : node.get? "arg" with
    | some arg => do
      let value ← v2_predicate namespace_ fields arg
      return !value
    | none => .error (.native "KeyError")
  else
    match (node.get? "field").bind Json.asString?, op.bind operator? with
    | some field, some operator =>
      (testLeaf operator ((fields.lookup field).getD .null) (node.get? "value")).mapError .helper
    | _, _ => .error (.native "AssertionError")
termination_by sizeOf node
decreasing_by
  · exact sizeOf_args _h
  · exact sizeOf_get? _h

def v2_predicates (namespace_ : NamespaceName) (fields : List (String × Json)) :
    List Json → Except Raised (List Bool)
  | [] => .ok []
  | child :: children => do
    let value ← v2_predicate namespace_ fields child
    let values ← v2_predicates namespace_ fields children
    return value :: values
termination_by children => sizeOf children
end

/-! ### The predicate of a node -/

/-- The predicate that a node states by its operators; of what is none, one that no side accepts. -/
def predicateOf (node : Json) : Predicate :=
  match _h : shape node with
  | .ok (.group true args) => .and (args.attach.map fun arg => predicateOf arg.1)
  | .ok (.group false args) => .or (args.attach.map fun arg => predicateOf arg.1)
  | .ok (.negation arg) => .not (predicateOf arg)
  | .ok (.leaf op field value) => .leaf op field value
  | .error _ => .or []
termination_by sizeOf node
decreasing_by
  · exact Nat.lt_trans (List.sizeOf_lt_of_mem arg.2) (sizeOf_args (shape_group _h).1)
  · exact Nat.lt_trans (List.sizeOf_lt_of_mem arg.2) (sizeOf_args (shape_group _h).1)
  · exact sizeOf_get? (shape_negation _h)

/-- `and` or `or`. -/
def groupOf (conjunctive : Bool) (args : List Predicate) : Predicate := if conjunctive then .and args else .or args

section

variable {c : Coercions} {objectKey : Json → Except Thrown String} {namespace_ : NamespaceName}
  {payload : List (String × Json)} {limits : Limits} {node arg : Json} {args : List Json} {conjunctive : Bool}
  {op : PredicateOperator} {field : String} {value : Option Json}

theorem predicateOf_group (h : shape node = .ok (.group conjunctive args)) :
    predicateOf node = groupOf conjunctive (args.map predicateOf) := by
  rw [predicateOf]
  split
  all_goals
    rename_i h'
    cases h.symm.trans h'
  · rw [List.attach_map_val]
    rfl
  · rw [List.attach_map_val]
    rfl

theorem predicateOf_negation (h : shape node = .ok (.negation arg)) : predicateOf node = .not (predicateOf arg) := by
  rw [predicateOf]
  split
  all_goals
    rename_i h'
    cases h.symm.trans h'
  rfl

theorem predicateOf_leaf (h : shape node = .ok (.leaf op field value)) : predicateOf node = .leaf op field value := by
  rw [predicateOf]
  split
  all_goals
    rename_i h'
    cases h.symm.trans h'
  rfl

/-! ### What the operator of a node is -/

theorem operator_of_group (h : shape node = .ok (.group conjunctive args)) :
    ∃ name, node.get? "op" = some (.str name) ∧ (name = "and" ∨ name = "or") ∧ decide (name = "and") = conjunctive ∧
      1 ≤ args.length ∧ args.length ≤ 32 := by
  obtain ⟨name, hname, ⟨args', hgroup, -, hlength, heq⟩ | ⟨_, -, -, ⟨⟩⟩ | ⟨_, _, -, -, -, -, -, ⟨⟩⟩⟩ := shape_cases h
  cases heq
  exact ⟨name, hname, hgroup, rfl, hlength⟩

theorem operator_of_negation (h : shape node = .ok (.negation arg)) : node.get? "op" = some (.str "not") := by
  obtain ⟨name, hname, ⟨_, -, -, -, ⟨⟩⟩ | ⟨arg', rfl, -, -⟩ | ⟨_, _, -, -, -, -, -, ⟨⟩⟩⟩ := shape_cases h
  exact hname

theorem operator_of_leaf (h : shape node = .ok (.leaf op field value)) :
    ∃ name, node.get? "op" = some (.str name) ∧ ¬ (name = "and" ∨ name = "or") ∧ name ≠ "not" ∧
      operator? name = some op ∧ field ≠ "" := by
  obtain ⟨name, hname, ⟨_, -, -, -, ⟨⟩⟩ | ⟨_, -, -, ⟨⟩⟩ | ⟨op', field', hgroup, hnot, hop, -, hne, heq⟩⟩ :=
    shape_cases h
  cases heq
  exact ⟨name, hname, hgroup, hnot, hop, hne⟩

/-! ### The controller's validation -/

mutual
/-- A node is accepted as the predicate it states. -/
theorem visit_predicateOf {depth nodes n : ℕ} {node : Json}
    (h : PredicateWalk.visit limits namespace_ depth nodes node = .ok n) :
    Predicate.visit limits namespace_ depth nodes (predicateOf node) = .ok n := by
  rw [PredicateWalk.visit] at h
  obtain ⟨_, henter, h⟩ := bind_ok.1 h
  split at h
  · cases h
  · rename_i conjunctive args hshape
    have := sizeOf_args (shape_group hshape).1
    obtain ⟨-, -, -, -, hlength⟩ := operator_of_group hshape
    have hargs := visitAll_predicateOf h
    have hsize : decide (1 ≤ (args.map predicateOf).length ∧ (args.map predicateOf).length ≤ 32) = true := by
      rw [List.length_map]
      exact decide_eq_true hlength
    rw [predicateOf_group hshape, groupOf]
    split
    all_goals
      simp only [Predicate.visit, bind_ok]
      exact ⟨(), henter, (), require_ok.2 hsize, hargs⟩
  · rename_i arg hshape
    have := sizeOf_get? (shape_negation hshape)
    rw [predicateOf_negation hshape]
    simp only [Predicate.visit, bind_ok]
    exact ⟨(), henter, visit_predicateOf h⟩
  · rename_i op field value hshape
    obtain ⟨-, -, -, -, -, hne⟩ := operator_of_leaf hshape
    rw [predicateOf_leaf hshape, Predicate.visit, bind_ok]
    exact ⟨(), henter, bind_ok.2 ⟨(), require_ok.2 (decide_eq_true hne), h⟩⟩
termination_by sizeOf node

theorem visitAll_predicateOf {depth nodes n : ℕ} {args : List Json}
    (h : PredicateWalk.visitAll limits namespace_ depth nodes args = .ok n) :
    Predicate.visitAll limits namespace_ depth nodes (args.map predicateOf) = .ok n := by
  cases args with
  | nil =>
    rw [PredicateWalk.visitAll] at h
    cases h
    rfl
  | cons arg args =>
    rw [PredicateWalk.visitAll] at h
    obtain ⟨m, harg, hargs⟩ := bind_ok.1 h
    rw [List.map_cons, Predicate.visitAll, bind_ok]
    exact ⟨m, visit_predicateOf harg, visitAll_predicateOf hargs⟩
termination_by sizeOf args
end

/-! ### The helper's validation -/

theorem operatorOf_text {name : String} (h : node.get? "op" = some (.str name)) :
    operatorOf node = .ok (some name) := by
  rw [operatorOf, h]
  rfl

theorem isRecord_of_shape {s : Shape} (h : shape node = .ok s) : node.isRecord = true := by
  obtain ⟨name, hname, -⟩ := shape_cases h
  exact Json.isRecord_of_get? hname

theorem require_enterNode {depth count : ℕ} (h : node.isRecord = true) :
    require (depth ≤ 4 ∧ count + 1 ≤ 32 ∧ node.isRecord) (invalid "invalid predicate AST") =
      (enterNode depth (count + 1)).mapError .helper := by
  by_cases hdepth : depth ≤ 4 <;> by_cases hcount : count + 1 ≤ 32 <;>
    simp [require, enterNode, hdepth, hcount, h, invalid, Except.mapError]

theorem checkField_leaf (h : shape node = .ok (.leaf op field value)) {name : String}
    (hname : node.get? "op" = some (.str name)) :
    checkField namespace_ (some name) node = checkLeaf namespace_ op field value := by
  obtain ⟨⟨name', hname', hop⟩, hfield, hvalue⟩ := shape_leaf h
  rw [hname] at hname'
  cases hname'
  rw [checkField, checkLeaf, hfield, hvalue, Option.bind_some, Json.asString?, Option.bind_some, hop]
  rfl

theorem mapError_bind {ε ε' α β : Type} {f : ε → ε'} {x : Except ε α} {k : α → Except ε β} :
    (x >>= k).mapError f = x.mapError f >>= fun a => (k a).mapError f := by
  cases x <;> rfl

theorem ok_bind {ε α β : Type} {a : α} {k : α → Except ε β} : (Except.ok a >>= k) = k a := rfl

theorem validate_group {depth count : ℕ} (h : shape node = .ok (.group conjunctive args)) :
    v2_validate_predicate namespace_ depth count node =
      (enterNode depth (count + 1)).mapError .helper >>= fun _ =>
        require (!args.isEmpty) (invalid "invalid predicate group") >>= fun _ =>
          v2_validate_children namespace_ (depth + 1) (count + 1) args := by
  obtain ⟨name, hname, hgroup, -⟩ := operator_of_group h
  rw [v2_validate_predicate, require_enterNode (isRecord_of_shape h), operatorOf_text hname]
  refine bind_congr fun _ => ?_
  rw [ok_bind, if_pos (hgroup.imp (congrArg some) (congrArg some))]
  split
  · next args' hargs =>
    cases (shape_group h).1.symm.trans hargs
    rfl
  · next hnot => exact absurd (shape_group h).1 (hnot args)

theorem validate_negation {depth count : ℕ} (h : shape node = .ok (.negation arg)) :
    v2_validate_predicate namespace_ depth count node =
      (enterNode depth (count + 1)).mapError .helper >>= fun _ =>
        v2_validate_predicate namespace_ (depth + 1) (count + 1) arg := by
  rw [v2_validate_predicate, require_enterNode (isRecord_of_shape h), operatorOf_text (operator_of_negation h)]
  refine bind_congr fun _ => ?_
  rw [ok_bind, if_neg (by decide), if_pos rfl]
  split
  · next arg' harg =>
    cases (shape_negation h).symm.trans harg
    rfl
  · next hnone => cases (shape_negation h).symm.trans hnone

theorem validate_leaf {depth count : ℕ} (h : shape node = .ok (.leaf op field value)) :
    v2_validate_predicate namespace_ depth count node =
      (enterNode depth (count + 1)).mapError .helper >>= fun _ =>
        (checkLeaf namespace_ op field value).mapError .helper >>= fun _ => .ok (count + 1) := by
  obtain ⟨name, hname, hgroup, hnot, -⟩ := operator_of_leaf h
  rw [v2_validate_predicate, require_enterNode (isRecord_of_shape h), operatorOf_text hname]
  refine bind_congr fun _ => ?_
  rw [ok_bind, if_neg fun hor => hgroup (hor.imp Option.some.inj Option.some.inj),
    if_neg fun h => hnot (Option.some.inj h), checkField_leaf h hname]
  rfl

/-- The helper validates an accepted node as it does the predicate that the node states. -/
theorem validate_predicateOf (h : Accepted namespace_ node) : ∀ depth count,
    v2_validate_predicate namespace_ depth count node =
      (Helper.v2_validate_predicate namespace_ depth count (predicateOf node)).mapError .helper := by
  induction h with
  | @group node conjunctive args hshape hargs ih =>
    intro depth count
    have hchildren : ∀ (args : List Json), (∀ arg ∈ args, ∀ depth count,
        v2_validate_predicate namespace_ depth count arg =
          (Helper.v2_validate_predicate namespace_ depth count (predicateOf arg)).mapError .helper) →
        ∀ depth count, v2_validate_children namespace_ depth count args =
          (Helper.v2_validate_children namespace_ depth count (args.map predicateOf)).mapError .helper := by
      intro args
      induction args with
      | nil =>
        intro _ depth count
        rw [v2_validate_children]
        rfl
      | cons arg args ihargs =>
        intro hall depth count
        rw [v2_validate_children, List.map_cons, Helper.v2_validate_children, mapError_bind,
          hall arg List.mem_cons_self]
        exact bind_congr fun n => ihargs (fun a ha => hall a (List.mem_cons_of_mem _ ha)) depth n
    have hempty : (args.map predicateOf).isEmpty = args.isEmpty := by cases args <;> rfl
    rw [validate_group hshape, predicateOf_group hshape, groupOf, hchildren args ih]
    split
    all_goals
      rw [Helper.v2_validate_predicate, mapError_bind, hempty]
      refine bind_congr fun _ => ?_
      rw [mapError_bind]
      cases args <;> rfl
  | @negation node arg hshape harg ih =>
    intro depth count
    rw [validate_negation hshape, predicateOf_negation hshape, Helper.v2_validate_predicate, mapError_bind, ih]
  | @leaf node op field value definition hshape hfield =>
    intro depth count
    rw [validate_leaf hshape, predicateOf_leaf hshape, Helper.v2_validate_predicate, mapError_bind]
    refine bind_congr fun _ => ?_
    rw [mapError_bind]
    rfl

/-! ### The helper's answer -/

theorem validated (h : Accepted namespace_ node) :
    v2_validate_predicate namespace_ 1 0 node =
      (Helper.v2_validate_predicate namespace_ 1 0 (predicateOf node)).mapError .helper :=
  validate_predicateOf h 1 0

theorem answer_group (h : shape node = .ok (.group conjunctive args)) :
    v2_predicate namespace_ payload node = v2_validate_predicate namespace_ 1 0 node >>= fun _ =>
      v2_predicates namespace_ payload args >>= fun values =>
        .ok (if conjunctive then values.all id else values.any id) := by
  obtain ⟨name, hname, hgroup, rfl, -⟩ := operator_of_group h
  rw [v2_predicate]
  refine bind_congr fun _ => ?_
  rw [operatorOf_text hname, ok_bind, if_pos (hgroup.imp (congrArg some) (congrArg some))]
  split
  · next args' hargs =>
    cases (shape_group h).1.symm.trans hargs
    simp only [Option.some.injEq, decide_eq_true_eq]
    rfl
  · next hnot => exact absurd (shape_group h).1 (hnot args)

theorem answer_negation (h : shape node = .ok (.negation arg)) :
    v2_predicate namespace_ payload node = v2_validate_predicate namespace_ 1 0 node >>= fun _ =>
      v2_predicate namespace_ payload arg >>= fun value => .ok !value := by
  rw [v2_predicate]
  refine bind_congr fun _ => ?_
  rw [operatorOf_text (operator_of_negation h), ok_bind, if_neg (by decide), if_pos rfl]
  split
  · next arg' harg =>
    cases (shape_negation h).symm.trans harg
    rfl
  · next hnone => cases (shape_negation h).symm.trans hnone

theorem answer_leaf (h : shape node = .ok (.leaf op field value)) :
    v2_predicate namespace_ payload node = v2_validate_predicate namespace_ 1 0 node >>= fun _ =>
      (testLeaf op ((payload.lookup field).getD .null) value).mapError .helper := by
  obtain ⟨name, hname, hgroup, hnot, hop, -⟩ := operator_of_leaf h
  obtain ⟨-, hfield, hvalue⟩ := shape_leaf h
  rw [v2_predicate]
  refine bind_congr fun _ => ?_
  rw [operatorOf_text hname, ok_bind, if_neg fun hor => hgroup (hor.imp Option.some.inj Option.some.inj),
    if_neg fun h => hnot (Option.some.inj h), hfield, hvalue, Option.bind_some, Json.asString?, Option.bind_some, hop]

/-- The helper answers an accepted node as it does the predicate that the node states. -/
theorem answer_predicateOf (h : Accepted namespace_ node) :
    v2_predicate namespace_ payload node =
      (Helper.v2_predicate namespace_ payload (predicateOf node)).mapError .helper := by
  have hnode := h
  induction h with
  | @group node conjunctive args hshape hargs ih =>
    have hchildren : ∀ args : List Json, (∀ arg ∈ args, v2_predicate namespace_ payload arg =
        (Helper.v2_predicate namespace_ payload (predicateOf arg)).mapError .helper) →
        v2_predicates namespace_ payload args =
          (Helper.v2_predicates namespace_ payload (args.map predicateOf)).mapError .helper := by
      intro args
      induction args with
      | nil =>
        intro _
        rw [v2_predicates]
        rfl
      | cons arg args ihargs =>
        intro hall
        rw [v2_predicates, List.map_cons, Helper.v2_predicates, mapError_bind, hall arg List.mem_cons_self]
        refine bind_congr fun value => ?_
        rw [mapError_bind, ihargs fun a ha => hall a (List.mem_cons_of_mem _ ha)]
        rfl
    have hvalues := hchildren args fun arg harg => ih arg harg (hargs arg harg)
    rw [answer_group hshape, validated hnode, predicateOf_group hshape, hvalues]
    cases conjunctive
    all_goals
      rw [groupOf]
      simp only [Bool.false_eq_true, if_false, if_true, Helper.v2_predicate, mapError_bind]
      rfl
  | @negation node arg hshape harg ih =>
    rw [answer_negation hshape, validated hnode, predicateOf_negation hshape, Helper.v2_predicate, mapError_bind,
      ih harg]
    refine bind_congr fun _ => ?_
    rw [mapError_bind]
    rfl
  | @leaf node op field value definition hshape hfield =>
    rw [answer_leaf hshape, validated hnode, predicateOf_leaf hshape, Helper.v2_predicate, mapError_bind]

/-! ### The controller's answer -/

/-- No field that may be filtered has the name of something that records inherit. -/
theorem fieldValue_filterable {definition : Manifest.ManifestField}
    (h : Manifest.assertFilterable namespace_ field = .ok definition) :
    fieldValue payload field = payload.lookup field := by
  have hfield := (assertFilterable_ok h).1
  have hown : field ∉ Js.prototypeNames := by
    intro hmem
    have hnone : ∀ name ∈ Js.prototypeNames, Manifest.field? namespace_ name = none := by
      cases namespace_ <;> decide
    rw [hnone field hmem] at hfield
    cases hfield
  rw [fieldValue, if_neg hown]
  cases payload.lookup field <;> rfl

theorem outcome_quantify {walks : List Evaluation} {values : List Bool}
    (h : List.Forall₂ (fun (w : Evaluation) value => w.outcome = .ok value) walks values) :
    (Walk.quantify conjunctive walks).outcome = .ok (if conjunctive then values.all id else values.any id) := by
  induction h with
  | nil => cases conjunctive <;> rfl
  | @cons w value walks values hw hws ih =>
    rw [Walk.quantify, Walk.bind_of_ok hw]
    dsimp only
    cases conjunctive <;> cases value <;> first | exact ih | rfl

theorem outcome_call {via : Via} {body : Evaluation} : (call via node body).outcome = body.outcome := by
  rw [call]
  cases h : body.outcome with
  | ok holds =>
    rw [Walk.bind_of_ok h]
    rfl
  | error error =>
    rw [Walk.bind_of_error h]
    rfl

/-- What the operators of an accepted node say is what the predicate says that the node states. -/
theorem direct_predicateOf (h : Accepted namespace_ node) : ∀ via,
    (direct c payload via node).outcome = .ok ((predicateOf node).evaluate c payload) := by
  induction h with
  | @group node conjunctive args hshape hargs ih =>
    intro via
    have hwalks : List.Forall₂ (fun (w : Evaluation) value => w.outcome = .ok value)
        (args.map (direct c payload .args)) ((args.map predicateOf).map (Predicate.evaluate c payload)) := by
      rw [List.map_map, List.forall₂_map_left_iff, List.forall₂_map_right_iff, List.forall₂_same]
      exact fun arg harg => ih arg harg .args
    rw [direct_group hshape, outcome_call, outcome_quantify hwalks, predicateOf_group hshape, groupOf]
    cases conjunctive
    · rw [if_neg Bool.false_ne_true, if_neg Bool.false_ne_true, Predicate.evaluate, evaluateAny_eq]
    · rw [if_pos rfl, if_pos rfl, Predicate.evaluate, evaluateAll_eq]
  | @negation node arg hshape harg ih =>
    intro via
    rw [direct_negation hshape, outcome_call, negated, Walk.bind_of_ok (ih .arg), predicateOf_negation hshape,
      Predicate.evaluate]
    rfl
  | @leaf node op field value definition hshape hfield =>
    intro via
    rw [direct_leaf hshape, outcome_call, compare_, fieldValue_filterable hfield, predicateOf_leaf hshape,
      Predicate.evaluate]
    rfl

/-! ### One language -/

/-- Every leaf is one on which both sides agree, and no leaf and no negation carries a property by which the controller
    takes it for another node. -/
inductive Alike (c : Coercions) (namespace_ : NamespaceName) (payload : List (String × Json)) : Json → Prop where
  | group {node : Json} {conjunctive : Bool} {args : List Json} (hshape : shape node = .ok (.group conjunctive args))
      (hargs : ∀ arg ∈ args, Alike c namespace_ payload arg) : Alike c namespace_ payload node
  | negation {node arg : Json} (hshape : shape node = .ok (.negation arg)) (hnone : node.get? "args" = none)
      (harg : Alike c namespace_ payload arg) : Alike c namespace_ payload node
  | leaf {node : Json} {op : PredicateOperator} {field : String} {value : Option Json}
      (hshape : shape node = .ok (.leaf op field value)) (hargs : node.get? "args" = none)
      (harg : node.get? "arg" = none) (hleaf : LeafAlike c namespace_ payload op field value) :
      Alike c namespace_ payload node

/-- The helper accepts the predicate, and both sides give one verdict. -/
structure SameAnswer (c : Coercions) (objectKey : Json → Except Thrown String) (namespace_ : NamespaceName)
    (payload : List (String × Json)) (node : Json) : Prop where
  accepted : ∃ count, v2_validate_predicate namespace_ 1 0 node = .ok count
  value : ∃ holds, (evaluatePredicate c objectKey payload (some node)).outcome = .ok holds ∧
    v2_predicate namespace_ payload node = .ok holds

theorem alike_predicateOf (h : Alike c namespace_ payload node) :
    Helper.Alike c namespace_ payload (predicateOf node) := by
  induction h with
  | @group node conjunctive args hshape hargs ih =>
    have hall : ∀ args : List Json, (∀ arg ∈ args, Helper.Alike c namespace_ payload (predicateOf arg)) →
        AllAlike c namespace_ payload (args.map predicateOf) := by
      intro args
      induction args with
      | nil => exact fun _ => trivial
      | cons arg args ihargs =>
        exact fun h => ⟨h arg List.mem_cons_self, ihargs fun a ha => h a (List.mem_cons_of_mem _ ha)⟩
    rw [predicateOf_group hshape]
    cases conjunctive
    · exact hall args ih
    · exact hall args ih
  | negation hshape hnone harg ih =>
    rw [predicateOf_negation hshape]
    exact ih
  | leaf hshape hargs harg hleaf =>
    rw [predicateOf_leaf hshape]
    exact hleaf

/-- The walk that the operators direct enters proper nodes only. -/
theorem all_proper (h : Alike c namespace_ payload node) : ∀ via, (direct c payload via node).All Proper := by
  induction h with
  | @group node conjunctive args hshape hargs ih =>
    intro via
    rw [direct_group hshape, all_call, proper, hshape]
    refine ⟨rfl, Walk.All.quantify fun w hw => ?_⟩
    obtain ⟨arg, harg, rfl⟩ := List.mem_map.1 hw
    exact ih arg harg .args
  | negation hshape hnone harg ih =>
    intro via
    rw [direct_negation hshape, all_call, proper, hshape]
    dsimp only
    rw [hnone]
    exact ⟨rfl, (ih .arg).bind fun _ _ => Walk.all_done _⟩
  | leaf hshape hargs harg hleaf =>
    intro via
    rw [direct_leaf hshape, all_call, proper, hshape]
    dsimp only
    rw [hargs, harg]
    exact ⟨rfl, Walk.all_log.2 ⟨trivial, Walk.all_done _⟩⟩

/-- An accepted predicate whose walk is proper gets from the controller the verdict of the predicate that it states. -/
theorem outcome_evaluatePredicate (h : Accepted namespace_ node) (hproper : (direct c payload .root node).All Proper) :
    (evaluatePredicate c objectKey payload (some node)).outcome = .ok ((predicateOf node).evaluate c payload) := by
  have hsame : evaluate c objectKey payload .root node = direct c payload .root node :=
    (evaluate_sameOrParts h .root).iff_all.2 hproper
  rw [PredicateWalk.evaluatePredicate, hsame, direct_predicateOf h]

variable {r : Normalizer.Runtime}

theorem sameAnswer_of_alike (htyped : Typed r namespace_ payload)
    (haccepted : PredicateWalk.validatePredicate namespace_ (some node) enumerateLimits = .ok ())
    (halike : Alike c namespace_ payload node) : SameAnswer c objectKey namespace_ payload node := by
  obtain ⟨n, hvisit, -⟩ := bind_ok.1 haccepted
  have hnode := PredicateWalk.accepted_of_visit hvisit
  have hpredicate := visit_predicateOf hvisit
  obtain ⟨count, hcount⟩ := Helper.accepted_of_visit hpredicate (Nat.le_refl 1) (alike_predicateOf halike)
  refine ⟨⟨count, by rw [validated hnode, hcount]; rfl⟩,
    ⟨_, outcome_evaluatePredicate hnode (all_proper halike .root), ?_⟩⟩
  rw [answer_predicateOf hnode, predicate_of_visit htyped (Nat.le_refl 1) hpredicate (alike_predicateOf halike)]
  rfl

theorem alike_of_sameAnswer (htyped : Typed r namespace_ payload)
    (haccepted : PredicateWalk.validatePredicate namespace_ (some node) enumerateLimits = .ok ())
    (hshape : shape node = .ok (.leaf op field value)) (hargs : node.get? "args" = none)
    (harg : node.get? "arg" = none) (h : SameAnswer c objectKey namespace_ payload node) :
    LeafAlike c namespace_ payload op field value := by
  obtain ⟨n, hvisit, -⟩ := bind_ok.1 haccepted
  have hnode := PredicateWalk.accepted_of_visit hvisit
  have hpredicate := visit_predicateOf hvisit
  have hproper : (direct c payload .root node).All Proper := by
    rw [direct_leaf hshape, all_call, proper, hshape]
    dsimp only
    rw [hargs, harg]
    exact ⟨rfl, Walk.all_log.2 ⟨trivial, Walk.all_done _⟩⟩
  obtain ⟨⟨count, hcount⟩, holds, houtcome, hanswer⟩ := h
  rw [outcome_evaluatePredicate hnode hproper, predicateOf_leaf hshape, Predicate.evaluate] at houtcome
  cases houtcome
  rw [predicateOf_leaf hshape] at hpredicate
  rw [validated hnode, predicateOf_leaf hshape] at hcount
  rw [answer_predicateOf hnode, predicateOf_leaf hshape] at hanswer
  exact leafAlike_of_sameAnswer htyped hpredicate (mapError_ok hcount) (mapError_ok hanswer)

end

def sampleRuntime : Normalizer.Runtime := ⟨fun _ => none, fun _ => "", tallyIds⟩

def sampleRow : List (String × Json) :=
  [("uid", .num 1000), ("username", .str "www"), ("locked", .bool true)]

def comparison (op field : String) (value : Json) : Json :=
  .obj [("op", .str op), ("field", .str field), ("value", value)]

/-- Accounts named `www` that are locked or belong to no system user. -/
def regularAccounts : Json :=
  .obj [("op", .str "and"), ("args", .arr [comparison "eq" "username" (.str "www"),
    .obj [("op", .str "or"), ("args", .arr [comparison "eq" "locked" (.bool true),
      .obj [("op", .str "not"), ("arg", comparison "lt" "uid" (.num 1000))]])]])]

def lockedIsOne : Json := comparison "eq" "locked" (.num 1)

end HuntWarden.Helper.Node
