import Mathlib.Data.List.Basic
import Mathlib.Data.Nat.Notation

/-! A list in pieces: where each piece starts, and what a list holds between two such places. -/

namespace HuntWarden.Pieces

variable {α : Type}

/-- Where the pieces start, and where the last one ends. -/
def bounds : ℕ → List (List α) → List ℕ
  | start, [] => [start]
  | start, piece :: pieces => start :: bounds (start + piece.length) pieces

/-- `whole[start:stop]` -/
def slice (whole : List α) (start stop : ℕ) : List α := (whole.drop start).take (stop - start)

/-- What is between each two neighbouring offsets. -/
def slices (whole : List α) : List ℕ → List (List α)
  | start :: stop :: offsets => slice whole start stop :: slices whole (stop :: offsets)
  | _ => []

example : bounds 0 [[7], [8, 9]] = [0, 1, 3] ∧ slices [7, 8, 9] [0, 1, 3] = [[7], [8, 9]] := by decide

theorem length_bounds : ∀ (pieces : List (List α)) (start : ℕ), (bounds start pieces).length = pieces.length + 1
  | [], _ => rfl
  | _ :: pieces, _ => congrArg (· + 1) (length_bounds pieces _)

theorem head?_bounds (start : ℕ) (pieces : List (List α)) : (bounds start pieces).head? = some start := by
  cases pieces <;> rfl

theorem exists_bounds (start : ℕ) (pieces : List (List α)) : ∃ later, bounds start pieces = start :: later := by
  cases pieces with
  | nil => exact ⟨[], rfl⟩
  | cons piece pieces => exact ⟨_, rfl⟩

theorem getLast?_bounds : ∀ (pieces : List (List α)) (start : ℕ),
    (bounds start pieces).getLast? = some (start + pieces.flatten.length)
  | [], _ => rfl
  | piece :: pieces, start => by
      obtain ⟨later, hlater⟩ := exists_bounds (start + piece.length) pieces
      have ih := getLast?_bounds pieces (start + piece.length)
      rw [hlater] at ih
      rw [bounds, hlater, List.getLast?_cons_cons, ih, List.flatten_cons, List.length_append, Nat.add_assoc]

theorem le_of_mem_bounds : ∀ {pieces : List (List α)} {start offset : ℕ}, offset ∈ bounds start pieces → start ≤ offset
  | [], _, _, h => Nat.le_of_eq (List.mem_singleton.1 h).symm
  | piece :: pieces, start, offset, h => by
      rcases List.mem_cons.1 h with rfl | h
      · exact Nat.le_refl _
      · exact Nat.le_trans (Nat.le_add_right _ _) (le_of_mem_bounds h)

/-- Pieces that are not empty start at different places. -/
theorem increasing_bounds : ∀ {pieces : List (List α)} (start : ℕ), (∀ piece ∈ pieces, piece ≠ []) →
    (bounds start pieces).Pairwise (· < ·)
  | [], _, _ => List.pairwise_singleton _ _
  | piece :: pieces, start, h => by
      have hpiece : 0 < piece.length := List.length_pos_iff.2 (h piece List.mem_cons_self)
      refine List.pairwise_cons.2 ⟨fun offset hoffset => ?_,
        increasing_bounds _ fun other hother => h other (List.mem_cons_of_mem _ hother)⟩
      exact Nat.lt_of_lt_of_le (Nat.lt_add_of_pos_right hpiece) (le_of_mem_bounds hoffset)

theorem slice_append (before piece after : List α) :
    slice (before ++ (piece ++ after)) before.length (before.length + piece.length) = piece := by
  rw [slice, List.drop_left' rfl, Nat.add_sub_cancel_left, List.take_left' rfl]

/-- The slices at the bounds are the pieces. -/
theorem slices_bounds : ∀ (pieces : List (List α)) (before : List α),
    slices (before ++ pieces.flatten) (bounds before.length pieces) = pieces
  | [], _ => rfl
  | piece :: pieces, before => by
      obtain ⟨later, hlater⟩ := exists_bounds (before.length + piece.length) pieces
      have ih := slices_bounds pieces (before ++ piece)
      rw [List.length_append, List.append_assoc, hlater] at ih
      rw [bounds, hlater, slices, List.flatten_cons, ih, slice_append]

end HuntWarden.Pieces
