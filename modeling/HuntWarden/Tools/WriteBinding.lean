import HuntWarden.Common.Errors
import HuntWarden.Lib.JsonText
import HuntWarden.Lib.Js
import HuntWarden.Lib.Outcome
import HuntWarden.Lib.Paging
import Mathlib.Data.String.Basic

/-! The binding of a write to its approval. The controller sends an action with a digest of its
    canonical JSON, and the helper computes the digest again from the action it received, with the JSON
    writer of its own language. -/

namespace HuntWarden.WriteBinding

open JsonText Outcome Paging

/-- What the write tools send, every field a text. -/
inductive WriteAction where
  | quarantineFile (actionId path expectedSha256 expectedDevice expectedInode quarantineRoot : Text)
  | disableAccount (actionId username executorUsername : Text)
  deriving DecidableEq

namespace WriteAction

def verb : WriteAction → String
  | quarantineFile .. => "quarantine_file"
  | disableAccount .. => "disable_account"

/-- The record as the tool builds it. -/
def fields : WriteAction → List (String × Text)
  | quarantineFile actionId path expectedSha256 expectedDevice expectedInode quarantineRoot =>
    [("actionId", actionId), ("path", path), ("expectedSha256", expectedSha256),
      ("expectedDevice", expectedDevice), ("expectedInode", expectedInode),
      ("quarantineRoot", quarantineRoot)]
  | disableAccount actionId username executorUsername =>
    [("actionId", actionId), ("username", username), ("executorUsername", executorUsername)]

def actionId : WriteAction → Text
  | quarantineFile actionId .. => actionId
  | disableAccount actionId .. => actionId

def texts (action : WriteAction) : List Text := action.fields.map Prod.snd

end WriteAction

/-- The code units of a field name. -/
def nameText (name : String) : Text := (Js.codeUnits name).map UInt16.ofNat

def named (fields : List (String × Text)) : List (Text × Text) :=
  fields.map fun field => (nameText field.1, field.2)

/-- `stableJson`: the fields in the order of `localeCompare`. -/
def stableJson (c : Collation) (fields : List (String × Text)) : List Char :=
  writeRecord jsEscape (named (sortBy (fun a b => c.localeCompare a.1 b.1) fields))

/-- `json.dumps(action, sort_keys=True, separators=(",", ":"))` -/
def dumps (fields : List (String × Text)) : List Char :=
  writeRecord asciiEscape (named (sortBy (fun a b => cmp a.1 b.1) fields))

/-! ### The controller and the helper -/

structure Authorization (δ : Type) where
  mode : String
  tool : String
  actionId : Text
  wireArgsDigest : δ

/-- The parameters of a write request; a part is missing when it is not a record. -/
structure WriteParams (δ : Type) where
  authorization : Option (Authorization δ)
  action : Option (List (String × Text))

section

variable {δ : Type} [DecidableEq δ] (sha256 : List Char → δ)

/-- The parameters `invokeWrite` sends for an action. -/
def invokeWrite (c : Collation) (action : WriteAction) : WriteParams δ where
  authorization := some {
    mode := "REMEDIATE"
    tool := action.verb
    actionId := action.actionId
    wireArgsDigest := sha256 (stableJson c action.fields) }
  action := some action.fields

def permissionDenied (message : String) : HelperError := { code := .permissionDenied, message }

/-- `v2_write_params` -/
def v2_write_params (verb : String) (params : WriteParams δ) :
    Except HelperError (List (String × Text)) := do
  let unbound := permissionDenied "write maintenance requires a bound approval envelope"
  let authorization ← orThrow params.authorization unbound
  let action ← orThrow params.action unbound
  require (authorization.mode = "REMEDIATE" ∧ authorization.tool = verb)
    (permissionDenied "SCAN mode or mismatched write approval")
  require (some authorization.actionId = action.lookup "actionId")
    (permissionDenied "write approval actionId mismatch")
  require (authorization.wireArgsDigest = sha256 (dumps action))
    (permissionDenied "write approval arguments mismatch")
  return action

/-- The helper accepts what the controller sends for the action, and under the same approval no other
    action. -/
def Bound (c : Collation) (action : WriteAction) : Prop :=
  v2_write_params sha256 action.verb (invokeWrite sha256 c action) = .ok action.fields ∧
    ∀ altered : WriteAction, altered ≠ action →
      ∃ message, v2_write_params sha256 action.verb
        { invokeWrite sha256 c action with action := some altered.fields } =
          .error (permissionDenied message)

end

/-! ### Both sides sort the fields alike -/

/-- The fields in alphabetical order. -/
def WriteAction.sorted : WriteAction → List (String × Text)
  | .quarantineFile actionId path expectedSha256 expectedDevice expectedInode quarantineRoot =>
    [("actionId", actionId), ("expectedDevice", expectedDevice), ("expectedInode", expectedInode),
      ("expectedSha256", expectedSha256), ("path", path), ("quarantineRoot", quarantineRoot)]
  | .disableAccount actionId username executorUsername =>
    [("actionId", actionId), ("executorUsername", executorUsername), ("username", username)]

/-- An order of the field names that is alphabetical on those of each action. -/
def Alphabetical (order : String → String → Ordering) : Prop :=
  ["actionId", "expectedDevice", "expectedInode", "expectedSha256", "path",
      "quarantineRoot"].Pairwise (fun a b => order a b = .lt) ∧
    ["actionId", "executorUsername", "username"].Pairwise fun a b => order a b = .lt

theorem perm_sorted (action : WriteAction) : action.fields.Perm action.sorted := by
  rw [List.perm_iff_count]
  intro field
  cases action <;> simp only [WriteAction.fields, WriteAction.sorted, List.count_cons] <;> omega

theorem sortBy_fields {order : String → String → Ordering} [Std.TransCmp order]
    (h : Alphabetical order) (action : WriteAction) :
    sortBy (fun a b => order a.1 b.1) action.fields = action.sorted := by
  have htrans : Std.TransCmp fun a b : String × Text => order a.1 b.1 :=
    Js.transCmp_on ‹_› Prod.fst
  refine sortBy_eq_of_strict (perm_sorted action) ?_
  have hkeys : (action.sorted.map Prod.fst).Pairwise fun a b => order a b = .lt := by
    cases action with
    | quarantineFile => exact h.1
    | disableAccount => exact h.2
  exact List.pairwise_map.1 hkeys

theorem alphabetical_cmp : Alphabetical (cmp : String → String → Ordering) := by
  unfold Alphabetical
  decide

theorem dumps_eq (action : WriteAction) :
    dumps action.fields = writeRecord asciiEscape (named action.sorted) := by
  rw [dumps, sortBy_fields alphabetical_cmp]

theorem stableJson_eq {c : Collation} (h : Alphabetical c.localeCompare) (action : WriteAction) :
    stableJson c action.fields = writeRecord jsEscape (named action.sorted) := by
  rw [stableJson, sortBy_fields h]

/-! ### The action is determined by what the helper digests -/

theorem named_sorted_injective {action action' : WriteAction}
    (h : named action.sorted = named action'.sorted) : action = action' := by
  have hname : nameText "expectedDevice" ≠ nameText "executorUsername" := by decide
  cases action with
  | quarantineFile actionId path sha256 device inode root =>
    cases action' with
    | quarantineFile actionId' path' sha256' device' inode' root' =>
      simp only [named, WriteAction.sorted, List.map_cons, List.map_nil, List.cons.injEq,
        Prod.mk.injEq, true_and, and_true] at h
      obtain ⟨rfl, rfl, rfl, rfl, rfl, rfl⟩ := h
      rfl
    | disableAccount =>
      simp only [named, WriteAction.sorted, List.map_cons, List.cons.injEq, Prod.mk.injEq] at h
      exact absurd h.2.1.1 hname
  | disableAccount actionId username executor =>
    cases action' with
    | quarantineFile =>
      simp only [named, WriteAction.sorted, List.map_cons, List.cons.injEq, Prod.mk.injEq] at h
      exact absurd h.2.1.1.symm hname
    | disableAccount actionId' username' executor' =>
      simp only [named, WriteAction.sorted, List.map_cons, List.map_nil, List.cons.injEq,
        Prod.mk.injEq, true_and, and_true] at h
      obtain ⟨rfl, rfl, rfl⟩ := h
      rfl

theorem plain_names (action : WriteAction) :
    ∀ field ∈ named action.sorted, PlainText field.1 := by
  have hquarantine : ∀ name ∈ ["actionId", "expectedDevice", "expectedInode", "expectedSha256",
      "path", "quarantineRoot"], ∀ point ∈ codePoints (nameText name), Plain point := by
    decide
  have hdisable : ∀ name ∈ ["actionId", "executorUsername", "username"],
      ∀ point ∈ codePoints (nameText name), Plain point := by decide
  intro field hfield
  obtain ⟨f, hf, rfl⟩ := List.mem_map.1 hfield
  have hname : f.1 ∈ action.sorted.map Prod.fst := List.mem_map_of_mem hf
  cases action with
  | quarantineFile => exact hquarantine f.1 hname
  | disableAccount => exact hdisable f.1 hname

/-- The values of the record are the texts of the action. -/
theorem plain_values (action : WriteAction) :
    (∀ field ∈ named action.sorted, PlainText field.2) ↔ ∀ text ∈ action.texts, PlainText text := by
  have hmem : ∀ field, field ∈ action.sorted ↔ field ∈ action.fields := fun field =>
    (perm_sorted action).mem_iff.symm
  simp only [named, WriteAction.texts, List.mem_map, forall_exists_index, and_imp,
    forall_apply_eq_imp_iff₂, hmem]

/-! ### When the helper accepts -/

section

variable {δ : Type} [DecidableEq δ] {sha256 : List Char → δ}

theorem lookup_actionId (action : WriteAction) :
    action.fields.lookup "actionId" = some action.actionId := by
  cases action <;> rfl

theorem accepts_iff (c : Collation) (action : WriteAction) :
    v2_write_params sha256 action.verb (invokeWrite sha256 c action) = .ok action.fields ↔
      sha256 (stableJson c action.fields) = sha256 (dumps action.fields) := by
  simp only [v2_write_params, invokeWrite, orThrow, bind_ok, require_ok]
  simp [pure_ok, lookup_actionId]

/-- Everything but the approved digest is refused. -/
theorem rejects_altered (c : Collation) (action altered : WriteAction)
    (h : sha256 (stableJson c action.fields) ≠ sha256 (dumps altered.fields)) :
    ∃ message, v2_write_params sha256 action.verb
      { invokeWrite sha256 c action with action := some altered.fields } =
        .error (permissionDenied message) := by
  simp only [v2_write_params, invokeWrite, orThrow, require]
  by_cases hid : action.actionId = altered.actionId
  · exact ⟨"write approval arguments mismatch", by
      simp [hid, h, lookup_actionId, bind, Except.bind]⟩
  · exact ⟨"write approval actionId mismatch", by
      simp [hid, lookup_actionId, bind, Except.bind]⟩

variable {c : Collation}

/-- The canonical text of an action is the helper's text of an action only when both are the same and
    nothing in it is left unescaped. -/
theorem stableJson_eq_dumps (h : Alphabetical c.localeCompare) {action altered : WriteAction} :
    stableJson c action.fields = dumps altered.fields ↔
      altered = action ∧ ∀ text ∈ action.texts, PlainText text := by
  rw [stableJson_eq h, dumps_eq]
  constructor
  · intro heq
    have hplain := plain_of_records heq
    rw [records_of_plain fun field hfield =>
      ⟨plain_names action field hfield, hplain field hfield⟩] at heq
    exact ⟨(named_sorted_injective (record_injective heq)).symm, (plain_values action).1 hplain⟩
  · rintro ⟨rfl, hplain⟩
    exact records_of_plain fun field hfield =>
      ⟨plain_names altered field hfield, (plain_values altered).2 hplain field hfield⟩

/-- Approved writes pass the helper's check exactly when no field holds a character that only the
    helper escapes. -/
theorem write_binding (sha256 : List Char → δ) (c : Collation)
    (hsha : Function.Injective sha256) (halpha : Alphabetical c.localeCompare)
    (action : WriteAction) :
    Bound sha256 c action ↔
      ∀ text ∈ action.texts, ∀ point ∈ codePoints text, point < 0x7F ∨ surrogate point := by
  rw [Bound, accepts_iff, hsha.eq_iff, stableJson_eq_dumps halpha]
  constructor
  · rintro ⟨⟨-, hplain⟩, -⟩
    exact hplain
  · intro hplain
    refine ⟨⟨rfl, hplain⟩, fun altered hne => rejects_altered c action altered ?_⟩
    rw [hsha.ne_iff]
    intro heq
    exact hne ((stableJson_eq_dumps halpha).1 heq).1

end

/-- The order by code units is alphabetical on the field names. -/
theorem write_binding_sample :
    Bound id Js.codeUnitCollation (.disableAccount [65, 67] [119, 119, 119] [104, 119]) :=
  (write_binding id Js.codeUnitCollation Function.injective_id (by
    unfold Alphabetical
    decide) _).2 (by decide)

/-- A path with one letter outside ASCII: the helper refuses the approved write. -/
theorem unicode_path_refused :
    ¬ Bound id Js.codeUnitCollation
      (.quarantineFile [65, 67] [47, 0xE9] [48] [49] [50] [47, 113]) := by
  rintro ⟨haccept, -⟩
  rw [accepts_iff] at haccept
  revert haccept
  decide

end HuntWarden.WriteBinding
