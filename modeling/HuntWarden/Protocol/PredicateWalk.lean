import HuntWarden.Lib.Walk
import HuntWarden.Protocol.Predicate

/-! The predicate as the tools receive it: any JSON value. `validatePredicate` goes by the `op` of a
    node and looks at no property the operator does not use; `evaluatePredicate` goes by the
    properties that are there, `args` before `arg` before the rest. Both walk one tree, and the walks
    are compared. -/

namespace HuntWarden.PredicateWalk

open Outcome Predicate

/-! ### Validation -/

/-- `leafOperators`. -/
def leafOperators : List PredicateOperator :=
  [.eq, .neq, .lt, .lte, .gt, .gte, .in_, .contains, .startsWith, .exists_]

def operator? (op : String) : Option PredicateOperator := leafOperators.find? (·.name = op)

/-- What the validator takes a node for. -/
inductive Shape where
  | group (conjunctive : Bool) (args : List Json)
  | negation (arg : Json)
  | leaf (op : PredicateOperator) (field : String) (value : Option Json)
  deriving Repr

/-- The operator of a node and the properties this operator uses. -/
def shape (node : Json) : Except Thrown Shape := do
  let op ← orThrow ((node.get? "op").bind Json.asString?)
    (invalidArgument "Predicate 节点必须是带 op 的对象")
  if op = "and" ∨ op = "or" then
    let args ← orThrow ((node.get? "args").bind Json.asArray?)
      (invalidArgument s!"{op}.args 必须是数组")
    require (1 ≤ args.length ∧ args.length ≤ 32) (invalidArgument s!"{op} 参数数量无效")
    return .group (op = "and") args
  else if op = "not" then
    let arg ← orThrow (node.get? "arg") (invalidArgument "not 缺少 arg")
    return .negation arg
  else
    let operator ← orThrow (operator? op) (invalidArgument s!"未知 Predicate 操作符: {op}")
    let field ← orThrow (((node.get? "field").bind Json.asString?).filter (· ≠ ""))
      (invalidArgument s!"{op} 缺少 field")
    return .leaf operator field (node.get? "value")

theorem sizeOf_get? {node value : Json} {key : String} (h : node.get? key = some value) :
    sizeOf value < sizeOf node := by
  cases node with
  | obj fields =>
    have hlookup : ∀ fields : List (String × Json), fields.lookup key = some value →
        sizeOf value < sizeOf fields := by
      intro fields
      induction fields with
      | nil => intro h; cases h
      | cons field fields ih =>
        obtain ⟨name, v⟩ := field
        intro h
        rw [List.lookup_cons] at h
        rw [List.cons.sizeOf_spec, Prod.mk.sizeOf_spec]
        split at h
        · obtain rfl : v = value := Option.some.inj h
          omega
        · have := ih h
          omega
    have := hlookup fields h
    rw [Json.obj.sizeOf_spec]
    omega
  | _ => cases h

theorem sizeOf_args {node : Json} {key : String} {args : List Json}
    (h : node.get? key = some (.arr args)) : sizeOf args < sizeOf node := by
  have := sizeOf_get? h
  rw [Json.arr.sizeOf_spec] at this
  omega

theorem get?_asString? {node : Json} {key text : String}
    (h : (node.get? key).bind Json.asString? = some text) : node.get? key = some (.str text) := by
  obtain ⟨value, hget, hvalue⟩ := Option.bind_eq_some_iff.1 h
  cases value <;> cases hvalue
  exact hget

theorem get?_asArray? {node : Json} {key : String} {items : List Json}
    (h : (node.get? key).bind Json.asArray? = some items) : node.get? key = some (.arr items) := by
  obtain ⟨value, hget, hvalue⟩ := Option.bind_eq_some_iff.1 h
  cases value <;> cases hvalue
  exact hget

/-- The properties a shape was read from. -/
theorem shape_cases {node : Json} {s : Shape} (h : shape node = .ok s) :
    ∃ op, node.get? "op" = some (.str op) ∧
      ((∃ args, (op = "and" ∨ op = "or") ∧ node.get? "args" = some (.arr args) ∧
          (1 ≤ args.length ∧ args.length ≤ 32) ∧ s = .group (op = "and") args) ∨
        (∃ arg, op = "not" ∧ node.get? "arg" = some arg ∧ s = .negation arg) ∨
        ∃ operator field, ¬ (op = "and" ∨ op = "or") ∧ op ≠ "not" ∧ operator? op = some operator ∧
          node.get? "field" = some (.str field) ∧ field ≠ "" ∧ s = .leaf operator field (node.get? "value")) := by
  obtain ⟨op, hop, h⟩ := bind_ok.1 h
  refine ⟨op, get?_asString? (orThrow_ok.1 hop), ?_⟩
  split at h
  · next hgroup =>
    obtain ⟨args, hargs, h⟩ := bind_ok.1 h
    obtain ⟨_, hlength, h⟩ := bind_ok.1 h
    exact Or.inl ⟨args, hgroup, get?_asArray? (orThrow_ok.1 hargs), of_decide_eq_true (require_ok.1 hlength),
      (pure_ok.1 h).symm⟩
  · next hgroup =>
    split at h
    · next hnot =>
      obtain ⟨arg, harg, h⟩ := bind_ok.1 h
      exact Or.inr (Or.inl ⟨arg, hnot, orThrow_ok.1 harg, (pure_ok.1 h).symm⟩)
    · next hnot =>
      obtain ⟨operator, hoperator, h⟩ := bind_ok.1 h
      obtain ⟨field, hfield, h⟩ := bind_ok.1 h
      obtain ⟨hfield, hne⟩ := Option.filter_eq_some_iff.1 (orThrow_ok.1 hfield)
      exact Or.inr (Or.inr ⟨operator, field, hgroup, hnot, orThrow_ok.1 hoperator, get?_asString? hfield,
        of_decide_eq_true hne, (pure_ok.1 h).symm⟩)

theorem shape_group {node : Json} {conjunctive : Bool} {args : List Json}
    (h : shape node = .ok (.group conjunctive args)) :
    node.get? "args" = some (.arr args) ∧
      decide (node.get? "op" = some (.str "and")) = conjunctive := by
  obtain ⟨op, hop, ⟨args, -, hargs, -, ⟨⟩⟩ | ⟨arg, -, -, ⟨⟩⟩ | ⟨operator, field, -, -, -, -, -, ⟨⟩⟩⟩ := shape_cases h
  exact ⟨hargs, decide_eq_decide.2 (by rw [hop, Option.some.injEq, Json.str.injEq])⟩

theorem shape_negation {node arg : Json} (h : shape node = .ok (.negation arg)) :
    node.get? "arg" = some arg := by
  obtain ⟨op, -, ⟨args, -, -, -, ⟨⟩⟩ | ⟨arg, -, harg, ⟨⟩⟩ | ⟨operator, field, -, -, -, -, -, ⟨⟩⟩⟩ := shape_cases h
  exact harg

theorem shape_leaf {node : Json} {op : PredicateOperator} {field : String} {value : Option Json}
    (h : shape node = .ok (.leaf op field value)) :
    (∃ name, node.get? "op" = some (.str name) ∧ operator? name = some op) ∧
      node.get? "field" = some (.str field) ∧ node.get? "value" = value := by
  obtain ⟨name, hop, ⟨args, -, -, -, ⟨⟩⟩ | ⟨arg, -, -, ⟨⟩⟩ | ⟨operator, field, -, -, hoperator, hfield, -, ⟨⟩⟩⟩ :=
    shape_cases h
  exact ⟨⟨name, hop, hoperator⟩, hfield, rfl⟩

mutual
/-- `visit`; `nodes` counts the nodes visited so far. -/
def visit (limits : Limits) (namespace_ : NamespaceName) (depth nodes : ℕ) (node : Json) :
    Except Thrown ℕ := do
  enter limits depth nodes
  match h : shape node with
  | .error error => .error error
  | .ok (.group _ args) => visitAll limits namespace_ (depth + 1) (nodes + 1) args
  | .ok (.negation arg) => visit limits namespace_ (depth + 1) (nodes + 1) arg
  | .ok (.leaf op field value) => do
    let definition ← Manifest.assertFilterable namespace_ field
    validateValue op definition.type value
    return nodes + 1
termination_by sizeOf node
decreasing_by
  · exact sizeOf_args (shape_group h).1
  · exact sizeOf_get? (shape_negation h)

def visitAll (limits : Limits) (namespace_ : NamespaceName) (depth nodes : ℕ) :
    List Json → Except Thrown ℕ
  | [] => .ok nodes
  | arg :: args => do
    let nodes ← visit limits namespace_ depth nodes arg
    visitAll limits namespace_ depth nodes args
termination_by args => sizeOf args
end

/-- `validatePredicate`; an absent predicate is valid. -/
def validatePredicate (namespace_ : NamespaceName) (predicate : Option Json) (limits : Limits) :
    Except Thrown Unit :=
  match predicate with
  | none => .ok ()
  | some predicate => do
    let _ ← visit limits namespace_ 1 0 predicate
    return ()

/-- `predicateDepth` and `predicateNodes` of the manifest. -/
def defaultLimits : Limits := ⟨Manifest.predicateDepth, Manifest.predicateNodes⟩

/-! ### Evaluation -/

/-- The property through which a node is reached. -/
inductive Via where
  | root | args | arg
  deriving DecidableEq, Repr

/-- What an evaluation does: it enters a node, reads a field of the payload, gives a verdict. -/
inductive Event where
  | enter (via : Via) (node : Json)
  | read_ (field : String)
  | verdict (holds : Bool)
  deriving DecidableEq, Repr

abbrev Evaluation := Walk Event Thrown Bool

/-- One call: the node, what it does with it, and the verdict it returns. -/
def call (via : Via) (node : Json) (body : Evaluation) : Evaluation :=
  .log (.enter via node) (body.bind fun holds => .log (.verdict holds) (.done holds))

/-- `!verdict`. -/
def negated (w : Evaluation) : Evaluation := w.bind fun holds => .done !holds

/-- `payload[field]`. What a record inherits is a function or a record; no operator tells it from a
    record of the payload. -/
def fieldValue (payload : List (String × Json)) (field : String) : Option Json :=
  (payload.lookup field).orElse fun _ => if field ∈ Js.prototypeNames then some (.obj []) else none

variable (c : Coercions) (objectKey : Json → Except Thrown String)
  (payload : List (String × Json))

/-- The name under which a property is looked up; a record converts itself, or throws. -/
def propertyKey : Option Json → Except Thrown String
  | none => .ok "undefined"
  | some (.str s) => .ok s
  | some (.arr items) => objectKey (.arr items)
  | some (.obj fields) => objectKey (.obj fields)
  | some value => .ok (Js.toText c value)

/-- One field is read and compared. -/
def compare_ (op : Option PredicateOperator) (field : String) (expected : Option Json) :
    Evaluation :=
  .log (.read_ field) <| .done <|
    op.any fun op => evaluateLeaf c op (fieldValue payload field) expected

/-- The body of `evaluatePredicate` on a node without `args` and `arg`. An operator the `switch` does
    not know gives `undefined`, which counts as false. -/
def evaluateField (node : Json) : Evaluation :=
  match propertyKey c objectKey (node.get? "field") with
  | .error error => .fail error
  | .ok field =>
    compare_ c payload (((node.get? "op").bind Json.asString?).bind operator?) field
      (node.get? "value")

/-- `"args" in predicate` of something that is no record. -/
def notInstance : Thrown := .native "Cannot use 'in' operator to search for 'args'"

def notFunction (name : String) : Thrown := .native s!"predicate.args.{name} is not a function"

def isPrimitive : Json → Bool
  | .arr _ | .obj _ => false
  | _ => true

/-- `evaluatePredicate` on a node. -/
def evaluate (via : Via) (node : Json) : Evaluation :=
  call via node <|
    if Js.truthy node = false then .done true
    else if isPrimitive node then .fail notInstance
    else
      let conjunctive : Bool := node.get? "op" = some (.str "and")
      match _h : node.get? "args" with
      | some (.arr args) => .quantify conjunctive (args.attach.map fun arg => evaluate .args arg.1)
      | some _ => .fail (notFunction (if conjunctive then "every" else "some"))
      | none =>
        match _h : node.get? "arg" with
        | some arg => negated (evaluate .arg arg)
        | none => evaluateField c objectKey payload node
termination_by sizeOf node
decreasing_by
  · exact Nat.lt_trans (List.sizeOf_lt_of_mem arg.2) (sizeOf_args _h)
  · exact sizeOf_get? _h

/-- `evaluatePredicate`; an absent predicate holds of everything. -/
def evaluatePredicate (predicate : Option Json) : Evaluation :=
  match predicate with
  | none => .done true
  | some predicate => evaluate c objectKey payload .root predicate

/-! ### The meaning the operators give -/

/-- The evaluation that goes by `op` alone, as the validator does. What is no predicate holds of
    nothing. -/
def direct (via : Via) (node : Json) : Evaluation :=
  call via node <|
    match _h : shape node with
    | .ok (.group conjunctive args) => .quantify conjunctive (args.attach.map fun arg => direct .args arg.1)
    | .ok (.negation arg) => negated (direct .arg arg)
    | .ok (.leaf op field value) => compare_ c payload (some op) field value
    | .error _ => .done false
termination_by sizeOf node
decreasing_by
  · exact Nat.lt_trans (List.sizeOf_lt_of_mem arg.2) (sizeOf_args (shape_group _h).1)
  · exact sizeOf_get? (shape_negation _h)

/-- The meaning of a predicate. -/
def directed (predicate : Option Json) : Evaluation :=
  match predicate with
  | none => .done true
  | some predicate => direct c payload .root predicate

/-! ### What an accepted predicate is -/

/-- The nodes the validator goes through, with what it found. -/
inductive Accepted (namespace_ : NamespaceName) : Json → Prop where
  | group {node : Json} {conjunctive : Bool} {args : List Json}
      (hshape : shape node = .ok (.group conjunctive args))
      (hargs : ∀ arg ∈ args, Accepted namespace_ arg) : Accepted namespace_ node
  | negation {node arg : Json} (hshape : shape node = .ok (.negation arg))
      (harg : Accepted namespace_ arg) : Accepted namespace_ node
  | leaf {node : Json} {op : PredicateOperator} {field : String} {value : Option Json}
      {definition : Manifest.ManifestField} (hshape : shape node = .ok (.leaf op field value))
      (hfield : Manifest.assertFilterable namespace_ field = .ok definition) :
      Accepted namespace_ node

variable {limits : Limits} {namespace_ : NamespaceName}

/-- What one accepted node is, and where the count goes. -/
theorem visit_cases {depth nodes n : ℕ} {node : Json}
    (h : visit limits namespace_ depth nodes node = .ok n) :
    nodes + 1 ≤ limits.nodes ∧
      ((∃ conjunctive args, shape node = .ok (.group conjunctive args) ∧
          visitAll limits namespace_ (depth + 1) (nodes + 1) args = .ok n) ∨
        (∃ arg, shape node = .ok (.negation arg) ∧
          visit limits namespace_ (depth + 1) (nodes + 1) arg = .ok n) ∨
        ∃ op field value definition, shape node = .ok (.leaf op field value) ∧
          Manifest.assertFilterable namespace_ field = .ok definition ∧ n = nodes + 1) := by
  rw [visit] at h
  obtain ⟨_, henter, h⟩ := bind_ok.1 h
  obtain ⟨_, hnodes, -⟩ := bind_ok.1 henter
  refine ⟨of_decide_eq_true (require_ok.1 hnodes), ?_⟩
  split at h
  · cases h
  · rename_i conjunctive args hshape
    exact Or.inl ⟨conjunctive, args, hshape, h⟩
  · rename_i arg hshape
    exact Or.inr (Or.inl ⟨arg, hshape, h⟩)
  · rename_i op field value hshape
    obtain ⟨definition, hfield, h⟩ := bind_ok.1 h
    obtain ⟨-, -, h⟩ := bind_ok.1 h
    exact Or.inr (Or.inr ⟨op, field, value, definition, hshape, hfield, (pure_ok.1 h).symm⟩)

mutual
theorem accepted_of_visit {depth nodes n : ℕ} {node : Json}
    (h : visit limits namespace_ depth nodes node = .ok n) : Accepted namespace_ node := by
  obtain ⟨-, ⟨conjunctive, args, hshape, hargs⟩ | ⟨arg, hshape, harg⟩ |
    ⟨op, field, value, definition, hshape, hfield, -⟩⟩ := visit_cases h
  · have := sizeOf_args (shape_group hshape).1
    exact .group hshape (accepted_of_visitAll hargs)
  · have := sizeOf_get? (shape_negation hshape)
    exact .negation hshape (accepted_of_visit harg)
  · exact .leaf hshape hfield
termination_by sizeOf node

theorem accepted_of_visitAll {depth nodes n : ℕ} {args : List Json}
    (h : visitAll limits namespace_ depth nodes args = .ok n) :
    ∀ arg ∈ args, Accepted namespace_ arg := by
  cases args with
  | nil => exact fun _ h => (nomatch h)
  | cons arg args =>
    rw [visitAll] at h
    obtain ⟨m, harg, hargs⟩ := bind_ok.1 h
    exact List.forall_mem_cons.2 ⟨accepted_of_visit harg, accepted_of_visitAll hargs⟩
termination_by sizeOf args
end

/-! ### The two walks of one node -/

variable {c objectKey payload}

theorem get?_isRecord {node value : Json} {key : String} (h : node.get? key = some value) :
    Js.truthy node = true ∧ isPrimitive node = false := by
  cases node with
  | obj fields => exact ⟨rfl, rfl⟩
  | _ => cases h

/-- The call unfolded, on a record. -/
theorem evaluate_record {via : Via} {node : Json} (htruthy : Js.truthy node = true)
    (hprimitive : isPrimitive node = false) :
    evaluate c objectKey payload via node = call via node (
      match node.get? "args" with
      | some (.arr args) =>
        .quantify (node.get? "op" = some (.str "and"))
          (args.map (evaluate c objectKey payload .args))
      | some _ =>
        .fail (notFunction (if node.get? "op" = some (.str "and") then "every" else "some"))
      | none =>
        match node.get? "arg" with
        | some arg => negated (evaluate c objectKey payload .arg arg)
        | none => evaluateField c objectKey payload node) := by
  rw [evaluate, htruthy, hprimitive, if_neg Bool.noConfusion, if_neg Bool.noConfusion]
  congr 1
  split
  · rename_i args hargs
    rw [hargs]
    dsimp only
    rw [List.attach_map_val]
  · rename_i value hvalue hargs
    rw [hargs]
    cases value with
    | arr args => exact absurd rfl (hvalue args)
    | _ => simp only [decide_eq_true_eq]
  · rename_i hargs
    rw [hargs]
    dsimp only
    split
    · rename_i arg harg
      rw [harg]
    · rename_i harg
      rw [harg]

theorem evaluate_args {via : Via} {node : Json} {args : List Json}
    (h : node.get? "args" = some (.arr args)) :
    evaluate c objectKey payload via node = call via node (.quantify
      (node.get? "op" = some (.str "and")) (args.map (evaluate c objectKey payload .args))) := by
  obtain ⟨htruthy, hprimitive⟩ := get?_isRecord h
  rw [evaluate_record htruthy hprimitive, h]

/-- An `args` that is no array has no `every` and no `some`. -/
theorem evaluate_not_array {via : Via} {node value : Json} (h : node.get? "args" = some value)
    (hvalue : ∀ args, value ≠ .arr args) :
    ∃ error, evaluate c objectKey payload via node = call via node (.fail error) := by
  obtain ⟨htruthy, hprimitive⟩ := get?_isRecord h
  rw [evaluate_record htruthy hprimitive, h]
  cases value with
  | arr args => exact absurd rfl (hvalue args)
  | _ => exact ⟨_, rfl⟩

theorem evaluate_arg {via : Via} {node arg : Json} (hargs : node.get? "args" = none)
    (h : node.get? "arg" = some arg) :
    evaluate c objectKey payload via node =
      call via node (negated (evaluate c objectKey payload .arg arg)) := by
  obtain ⟨htruthy, hprimitive⟩ := get?_isRecord h
  rw [evaluate_record htruthy hprimitive, hargs, h]

theorem evaluate_field {via : Via} {node op : Json} (hop : node.get? "op" = some op)
    (hargs : node.get? "args" = none) (harg : node.get? "arg" = none) :
    evaluate c objectKey payload via node =
      call via node (evaluateField c objectKey payload node) := by
  obtain ⟨htruthy, hprimitive⟩ := get?_isRecord hop
  rw [evaluate_record htruthy hprimitive, hargs, harg]

theorem direct_group {via : Via} {node : Json} {conjunctive : Bool} {args : List Json}
    (h : shape node = .ok (.group conjunctive args)) :
    direct c payload via node =
      call via node (.quantify conjunctive (args.map (direct c payload .args))) := by
  rw [direct]
  congr 1
  split
  · rename_i conjunctive' args' h'
    cases h.symm.trans h'
    rw [List.attach_map_val]
  all_goals rename_i h'; cases h.symm.trans h'

theorem direct_negation {via : Via} {node arg : Json} (h : shape node = .ok (.negation arg)) :
    direct c payload via node = call via node (negated (direct c payload .arg arg)) := by
  rw [direct]
  congr 1
  split
  · rename_i h'
    cases h.symm.trans h'
  · rename_i arg' h'
    cases h.symm.trans h'
    rfl
  all_goals rename_i h'; cases h.symm.trans h'

theorem direct_leaf {via : Via} {node : Json} {op : PredicateOperator} {field : String}
    {value : Option Json} (h : shape node = .ok (.leaf op field value)) :
    direct c payload via node = call via node (compare_ c payload (some op) field value) := by
  rw [direct]
  congr 1
  split
  · rename_i h'
    cases h.symm.trans h'
  · rename_i h'
    cases h.symm.trans h'
  · rename_i h'
    cases h.symm.trans h'
    rfl
  · rename_i h'
    cases h.symm.trans h'

/-! ### The properties an operator does not use -/

/-- The node carries no property that would make the evaluator take it for another. -/
def proper (node : Json) : Bool :=
  match shape node with
  | .ok (.negation _) => (node.get? "args").isNone
  | .ok (.leaf ..) => (node.get? "args").isNone && (node.get? "arg").isNone
  | _ => true

/-- Every node that is entered is proper. -/
def Proper : Event → Prop
  | .enter _ node => proper node = true
  | _ => True

instance : DecidablePred Proper
  | .enter _ node => inferInstanceAs (Decidable (proper node = true))
  | .read_ _ => isTrue trivial
  | .verdict _ => isTrue trivial

theorem all_call {via : Via} {node : Json} {body : Evaluation} :
    Walk.All Proper (call via node body) ↔ proper node = true ∧ Walk.All Proper body := by
  rw [call, Walk.all_log]
  refine and_congr_right fun _ => ⟨fun h => h.of_bind, fun h => h.bind fun _ _ => ?_⟩
  exact Walk.all_log.2 ⟨trivial, Walk.all_done _⟩

theorem sameOrParts_call {via : Via} {node : Json} {body body' : Evaluation}
    (h : Walk.SameOrParts Proper body body') (hnode : proper node = true) :
    Walk.SameOrParts Proper (call via node body) (call via node body') :=
  (h.bind fun holds => Or.inl ⟨rfl, Walk.all_log.2
    ⟨show Proper (.verdict holds) from trivial, Walk.all_done _⟩⟩).log hnode

/-- Bodies that do not begin alike: the evaluator gives its verdict, throws or enters another node. -/
theorem parts_call {via : Via} {node : Json} {body body' : Evaluation} {event : Event}
    {after : List Event} (hbody' : body'.events = event :: after)
    (hverdict : ∀ holds, event ≠ .verdict holds)
    (hbody : ∀ event' after', body.events = event' :: after' → event' ≠ event) :
    Walk.Parts (call via node body) (call via node body') := by
  refine Walk.Parts.log ?_ _
  obtain ⟨rest', hrest'⟩ := Walk.exists_bind_events body'
    fun holds => Walk.log (ε := Thrown) (.verdict holds) (.done holds)
  rw [hbody', List.cons_append] at hrest'
  cases hevents : body.events with
  | cons event' after' =>
    obtain ⟨rest, hrest⟩ := Walk.exists_bind_events body
      fun holds => Walk.log (ε := Thrown) (.verdict holds) (.done holds)
    rw [hevents, List.cons_append] at hrest
    exact Walk.parts_of_head hrest hrest' (hbody event' after' hevents)
  | nil =>
    cases houtcome : body.outcome with
    | error error =>
      rw [Walk.bind_of_error houtcome, hevents]
      exact Walk.parts_of_fail hrest'
    | ok holds =>
      rw [Walk.bind_of_ok houtcome, hevents]
      exact Walk.parts_of_head rfl hrest' (hverdict holds).symm

/-- Taken for a group, a node with `args` never begins as its operator says. -/
theorem parts_of_args {via : Via} {node value : Json} {body : Evaluation} {event : Event}
    {after : List Event} (hargs : node.get? "args" = some value) (hbody : body.events = event :: after)
    (hverdict : ∀ holds, event ≠ .verdict holds) (henter : ∀ arg, event ≠ .enter .args arg) :
    Walk.Parts (evaluate c objectKey payload via node) (call via node body) := by
  by_cases harray : ∃ args, value = .arr args
  · obtain ⟨args, rfl⟩ := harray
    rw [evaluate_args hargs]
    refine parts_call hbody hverdict ?_
    intro event' after' hevents
    cases args with
    | nil => cases hevents
    | cons arg args =>
      obtain ⟨rest, hrest⟩ := Walk.exists_bind_events (evaluate c objectKey payload .args arg)
        fun holds => if holds = decide (node.get? "op" = some (.str "and")) then
          .quantify (node.get? "op" = some (.str "and"))
            (args.map (evaluate c objectKey payload .args)) else .done holds
      rw [List.map_cons, Walk.quantify, hrest, evaluate, call] at hevents
      rw [← (List.cons.inj hevents).1]
      exact (henter arg).symm
  · obtain ⟨error, herror⟩ : ∃ error, evaluate c objectKey payload via node =
        call via node (.fail error) :=
      evaluate_not_array hargs fun args h => harray ⟨args, h⟩
    rw [herror]
    exact parts_call hbody hverdict fun _ _ h => (nomatch h)

theorem negated_events (w : Evaluation) : (negated w).events = w.events := by
  rw [negated]
  cases h : w.outcome with
  | ok holds => rw [Walk.bind_of_ok h]; exact List.append_nil _
  | error error => rw [Walk.bind_of_error h]

/-- Every call begins by entering its node. -/
theorem evaluate_events (via : Via) (node : Json) :
    ∃ after, (evaluate c objectKey payload via node).events = .enter via node :: after := by
  rw [evaluate, call]
  exact ⟨_, rfl⟩

theorem direct_events (via : Via) (node : Json) :
    ∃ after, (direct c payload via node).events = .enter via node :: after := by
  rw [direct, call]
  exact ⟨_, rfl⟩

/-- On an accepted predicate the evaluator goes the way of the operators as long as it meets proper
    nodes, and leaves it at the first other one. -/
theorem evaluate_sameOrParts {node : Json} (h : Accepted namespace_ node) (via : Via) :
    Walk.SameOrParts Proper (evaluate c objectKey payload via node) (direct c payload via node) := by
  induction h generalizing via with
  | group hshape hargs ih =>
    obtain ⟨hget, hop⟩ := shape_group hshape
    rw [evaluate_args hget, direct_group hshape, hop]
    refine sameOrParts_call (.quantify fun arg harg => ih arg harg .args) ?_
    rw [proper, hshape]
  | @negation node arg hshape harg ih =>
    rw [direct_negation hshape]
    cases hargs : node.get? "args" with
    | none =>
      rw [evaluate_arg hargs (shape_negation hshape)]
      refine sameOrParts_call ((ih .arg).bind fun holds => Or.inl ⟨rfl, Walk.all_done _⟩) ?_
      rw [proper, hshape, hargs]
      rfl
    | some value =>
      obtain ⟨after, hafter⟩ := @direct_events c payload .arg arg
      refine Or.inr ⟨parts_of_args hargs ((negated_events _).trans hafter)
        (fun _ h => (nomatch h)) (fun _ h => (nomatch h)), fun hall => ?_⟩
      have := (all_call.1 hall).1
      rw [proper, hshape, hargs] at this
      cases this
  | @leaf node op field value definition hshape hfield =>
    obtain ⟨⟨name, hname, hop⟩, hget, hvalue⟩ := shape_leaf hshape
    rw [direct_leaf hshape]
    cases hargs : node.get? "args" with
    | some args =>
      refine Or.inr ⟨parts_of_args hargs rfl (fun _ h => (nomatch h)) (fun _ h => (nomatch h)),
        fun hall => ?_⟩
      have := (all_call.1 hall).1
      rw [proper, hshape, hargs] at this
      cases this
    | none =>
      cases harg : node.get? "arg" with
      | some arg =>
        obtain ⟨after, hafter⟩ := @evaluate_events c objectKey payload .arg arg
        rw [evaluate_arg hargs harg]
        refine Or.inr ⟨parts_call rfl (fun _ h => (nomatch h)) ?_, fun hall => ?_⟩
        · intro event' after' hevents
          rw [negated_events, hafter] at hevents
          rw [← (List.cons.inj hevents).1]
          exact fun h => (nomatch h)
        · have := (all_call.1 hall).1
          rw [proper, hshape, hargs, harg] at this
          cases this
      | none =>
        rw [evaluate_field hname hargs harg, evaluateField, hget, hname, hvalue]
        dsimp only [propertyKey, Option.bind_some, Json.asString?]
        rw [hop]
        refine Or.inl ⟨rfl, all_call.2 ⟨?_, Walk.all_log.2 ⟨trivial, Walk.all_done _⟩⟩⟩
        rw [proper, hshape, hargs, harg]
        rfl

/-! ### What the directed walk does -/

/-- A field that is read is one the manifest lets be filtered. -/
def ReadsFilterable (namespace_ : NamespaceName) : Event → Prop
  | .read_ field => ∃ definition, Manifest.assertFilterable namespace_ field = .ok definition
  | _ => True

def entersNode : Event → Bool
  | .enter .. => true
  | _ => false

theorem returns_call {via : Via} {node : Json} {body : Evaluation} (h : body.Returns) :
    (call via node body).Returns := by
  obtain ⟨holds, hholds⟩ := h.bind fun holds =>
    (⟨holds, rfl⟩ : Walk.Returns (Walk.log (Event.verdict holds) (.done holds : Evaluation)))
  exact ⟨holds, hholds⟩

theorem count_call (via : Via) (node : Json) {body : Evaluation} {n : ℕ}
    (h : body.count entersNode ≤ n) : (call via node body).count entersNode ≤ n + 1 := by
  have := Walk.count_bind_le (k := fun holds => Walk.log (Event.verdict holds)
    (.done holds : Evaluation)) (n := 0) h fun _ => Nat.le_refl 0
  rw [call, Walk.count, Walk.log, List.countP_cons_of_pos rfl]
  exact Nat.add_le_add_right this 1

theorem direct_returns {node : Json} (h : Accepted namespace_ node) (via : Via) :
    (direct c payload via node).Returns := by
  induction h generalizing via with
  | group hshape hargs ih =>
    rw [direct_group hshape]
    refine returns_call (.quantify fun w hw => ?_)
    obtain ⟨arg, harg, rfl⟩ := List.mem_map.1 hw
    exact ih arg harg .args
  | negation hshape harg ih =>
    rw [direct_negation hshape]
    exact returns_call ((ih .arg).bind fun holds => ⟨!holds, rfl⟩)
  | leaf hshape hfield =>
    rw [direct_leaf hshape]
    exact returns_call ⟨_, rfl⟩

theorem direct_readsFilterable {node : Json} (h : Accepted namespace_ node) (via : Via) :
    Walk.All (ReadsFilterable namespace_) (direct c payload via node) := by
  have hcall : ∀ {via : Via} {node : Json} {body : Evaluation},
      Walk.All (ReadsFilterable namespace_) body →
        Walk.All (ReadsFilterable namespace_) (call via node body) := fun hbody =>
    Walk.all_log.2 ⟨trivial, hbody.bind fun holds _ =>
      Walk.all_log.2 ⟨show ReadsFilterable namespace_ (.verdict holds) from trivial,
        Walk.all_done _⟩⟩
  induction h generalizing via with
  | group hshape hargs ih =>
    rw [direct_group hshape]
    refine hcall (.quantify fun w hw => ?_)
    obtain ⟨arg, harg, rfl⟩ := List.mem_map.1 hw
    exact ih arg harg .args
  | negation hshape harg ih =>
    rw [direct_negation hshape]
    exact hcall ((ih .arg).bind fun _ _ => Walk.all_done _)
  | leaf hshape hfield =>
    rw [direct_leaf hshape]
    exact hcall (Walk.all_log.2 ⟨⟨_, hfield⟩, Walk.all_done _⟩)

mutual
/-- The directed walk enters no node the validator did not count. -/
theorem count_direct {depth nodes n : ℕ} {node : Json} (via : Via)
    (h : visit limits namespace_ depth nodes node = .ok n) :
    nodes + (direct c payload via node).count entersNode ≤ n := by
  obtain ⟨-, ⟨conjunctive, args, hshape, hargs⟩ | ⟨arg, hshape, harg⟩ |
    ⟨op, field, value, definition, hshape, -, rfl⟩⟩ := visit_cases h
  · have := sizeOf_args (shape_group hshape).1
    have hcount := count_directAll conjunctive hargs
    rw [direct_group hshape]
    have := count_call via node (Nat.le_refl (Walk.count entersNode
      (.quantify conjunctive (args.map (direct c payload .args)))))
    omega
  · have := sizeOf_get? (shape_negation hshape)
    have hcount := count_direct .arg harg
    rw [direct_negation hshape]
    have := count_call via node (Nat.le_of_eq
      (congrArg (List.countP entersNode) (negated_events (direct c payload .arg arg))))
    rw [Walk.count] at hcount
    omega
  · rw [direct_leaf hshape]
    have := count_call via node (n := 0)
      (Nat.le_refl (Walk.count entersNode (compare_ c payload (some op) field value)))
    omega
termination_by sizeOf node

theorem count_directAll {depth nodes n : ℕ} {args : List Json} (conjunctive : Bool)
    (h : visitAll limits namespace_ depth nodes args = .ok n) :
    nodes + Walk.count entersNode (.quantify conjunctive (args.map (direct c payload .args))) ≤
      n := by
  cases args with
  | nil =>
    rw [visitAll] at h
    cases h
    exact Nat.le_refl _
  | cons arg args =>
    rw [visitAll] at h
    obtain ⟨m, harg, hargs⟩ := bind_ok.1 h
    have hhead := count_direct .args harg
    have htail := count_directAll conjunctive hargs
    have := Walk.count_bind_le (Nat.le_refl (Walk.count entersNode
      (direct c payload .args arg))) (k := fun holds : Bool => if holds = conjunctive then
        Walk.quantify conjunctive (args.map (direct c payload .args)) else .done holds)
      (n := Walk.count entersNode (.quantify conjunctive (args.map (direct c payload .args))))
      fun holds => by
        by_cases hholds : holds = conjunctive
        · rw [if_pos hholds]
        · rw [if_neg hholds]
          exact Nat.zero_le _
    rw [List.map_cons, Walk.quantify]
    omega
termination_by sizeOf args
end

mutual
/-- The validator counts up to its limit. -/
theorem visit_le {depth nodes n : ℕ} {node : Json}
    (h : visit limits namespace_ depth nodes node = .ok n) : n ≤ limits.nodes := by
  obtain ⟨hnodes, ⟨conjunctive, args, hshape, hargs⟩ | ⟨arg, hshape, harg⟩ |
    ⟨op, field, value, definition, hshape, -, rfl⟩⟩ := visit_cases h
  · have := sizeOf_args (shape_group hshape).1
    exact visitAll_le hnodes hargs
  · have := sizeOf_get? (shape_negation hshape)
    exact visit_le harg
  · exact hnodes
termination_by sizeOf node

theorem visitAll_le {depth nodes n : ℕ} {args : List Json} (hnodes : nodes ≤ limits.nodes)
    (h : visitAll limits namespace_ depth nodes args = .ok n) : n ≤ limits.nodes := by
  cases args with
  | nil =>
    rw [visitAll] at h
    cases h
    exact hnodes
  | cons arg args =>
    rw [visitAll] at h
    obtain ⟨m, harg, hargs⟩ := bind_ok.1 h
    exact visitAll_le (visit_le harg) hargs
termination_by sizeOf args
end

/-! ### What validation promises of evaluation -/

/-- The evaluation returns, reads what may be filtered, enters no more nodes than were counted, and is
    the one the operators direct: the same calls, the same reads, the same verdicts. -/
structure Covered (c : Coercions) (objectKey : Json → Except Thrown String)
    (namespace_ : NamespaceName) (limits : Limits) (predicate : Option Json)
    (payload : List (String × Json)) : Prop where
  returns : (evaluatePredicate c objectKey payload predicate).Returns
  filterable : (evaluatePredicate c objectKey payload predicate).All (ReadsFilterable namespace_)
  bounded : (evaluatePredicate c objectKey payload predicate).count entersNode ≤ limits.nodes
  directed : evaluatePredicate c objectKey payload predicate = directed c payload predicate

/-- An accepted predicate is evaluated as its operators say exactly on the payloads on which the walk
    its operators direct enters proper nodes only. -/
theorem covered_iff_proper {predicate : Option Json}
    (haccepted : validatePredicate namespace_ predicate limits = .ok ()) :
    Covered c objectKey namespace_ limits predicate payload ↔
      (directed c payload predicate).All Proper := by
  cases predicate with
  | none =>
    refine ⟨fun _ => Walk.all_done _, fun _ => ?_⟩
    exact ⟨⟨true, rfl⟩, Walk.all_done _, Nat.zero_le _, rfl⟩
  | some predicate =>
    obtain ⟨n, hvisit, -⟩ := bind_ok.1 haccepted
    have hnode := accepted_of_visit hvisit
    have hsame : evaluatePredicate c objectKey payload (some predicate) =
        directed c payload (some predicate) ↔ (directed c payload (some predicate)).All Proper :=
      (evaluate_sameOrParts hnode .root).iff_all
    refine ⟨fun h => hsame.1 h.directed, fun h => ?_⟩
    have hdirected := hsame.2 h
    have hcount := @count_direct c payload limits namespace_ _ _ _ _ .root hvisit
    rw [Nat.zero_add] at hcount
    exact {
      returns := hdirected ▸ direct_returns hnode .root
      filterable := hdirected ▸ direct_readsFilterable hnode .root
      bounded := hdirected ▸ hcount.trans (visit_le hvisit)
      directed := hdirected }

/-- `pid = 1`, and an `args` no comparison uses. -/
def comparisonWithArgs : Json :=
  .obj [("op", .str "eq"), ("field", .str "pid"), ("value", .num 1), ("args", .arr [])]

/-- Everything but process 1. -/
def notInit : Json := .obj [("op", .str "not"), ("arg", comparisonWithArgs)]

theorem not_covered_notInit :
    validatePredicate .process (some notInit) defaultLimits = .ok () ∧
      (evaluatePredicate Js.plainCoercions (fun _ => .error notInstance) [("pid", .num 1)]
        (some notInit)).outcome = .ok true ∧
      (directed Js.plainCoercions [("pid", .num 1)] (some notInit)).outcome = .ok false := by
  decide +kernel

/-- Either of two processes. -/
def eitherProcess : Json :=
  .obj [("op", .str "or"), ("args", .arr [
    .obj [("op", .str "eq"), ("field", .str "pid"), ("value", .num 1)],
    .obj [("op", .str "eq"), ("field", .str "pid"), ("value", .num 2)]])]

theorem covered_eitherProcess :
    Covered Js.plainCoercions (fun _ => .error notInstance) .process defaultLimits
      (some eitherProcess) [("pid", .num 2)] := by
  refine (covered_iff_proper (by decide +kernel)).2 ?_
  show ∀ event ∈ (directed Js.plainCoercions [("pid", .num 2)] (some eitherProcess)).events,
    Proper event
  decide +kernel

end HuntWarden.PredicateWalk
