import Mathlib.Algebra.GroupWithZero.Nat
import Mathlib.Data.Nat.Notation
import Mathlib.Logic.Function.Basic

/-! Ids drawn from `randomUUID`: a supply that never repeats itself within a kind. -/

namespace HuntWarden

inductive IdKind where
  | approval | action | obligation | investigationAction | attempt | objectRef | fact | edge | batch
  | query | queryCursor | grant | grantRequest
  deriving DecidableEq, Repr

structure IdSupply where
  /-- The n-th id drawn of a kind. -/
  createId : IdKind → ℕ → String
  injective : ∀ kind, Function.Injective (createId kind)
  nonempty : ∀ kind n, createId kind n ≠ ""

/-- A supply that counts in strokes, for runs on concrete input. -/
def tallyIds : IdSupply where
  createId _ n := String.ofList (List.replicate (n + 1) '1')
  injective _ a b h := by
    simpa using congrArg List.length (String.ofList_injective h)
  nonempty _ n h := by
    simpa using congrArg String.toList h

/-- `randomUUID` behind the prefix of a kind, as what it is relied on for: an id that is not in use. -/
structure FreshIds where
  draw : String → List String → String
  fresh : ∀ kind used, draw kind used ∉ used

theorem length_le_sum {id : String} {used : List String} (h : id ∈ used) :
    id.length ≤ (used.map String.length).sum := by
  induction used with
  | nil => cases h
  | cons a rest ih =>
    rw [List.map_cons, List.sum_cons]
    rcases List.mem_cons.1 h with rfl | h
    · omega
    · have := ih h
      omega

/-- One stroke more than all the ids in use together. -/
def strokeIds : FreshIds where
  draw kind used := kind ++ String.ofList (List.replicate ((used.map String.length).sum + 1) '1')
  fresh kind used h := by
    have hlength := length_le_sum h
    simp only [String.length_append, String.length_ofList, List.length_replicate] at hlength
    omega

end HuntWarden
