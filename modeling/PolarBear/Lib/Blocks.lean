import Mathlib.Data.List.Basic

/-!
# Lists cut into blocks

A list is cut into blocks of a size: no block is empty, all but the last have
exactly the size, and one after the other they are the list.
-/

namespace PolarBear.Blocks

variable {α : Type} {size : Nat} {xs ys block : List α} {blocks : List (List α)}

/-- The blocks of a list. -/
structure Cut (size : Nat) (blocks : List (List α)) (xs : List α) : Prop where
  ne_nil : ∀ block ∈ blocks, block ≠ []
  le_size : ∀ block ∈ blocks, block.length ≤ size
  full : ∀ block ∈ blocks.dropLast, block.length = size
  flatten : blocks.flatten = xs

theorem Cut.nil : Cut size [] ([] : List α) :=
  ⟨fun _ h => absurd h List.not_mem_nil, fun _ h => absurd h List.not_mem_nil,
    fun _ h => absurd h List.not_mem_nil, rfl⟩

/-- Nothing is cut into no blocks. -/
theorem Cut.eq_nil (h : Cut size blocks ([] : List α)) : blocks = [] := by
  cases blocks with
  | nil => rfl
  | cons block blocks =>
    have hblock := h.ne_nil block (List.mem_cons_self ..)
    exact absurd (List.flatten_eq_nil_iff.mp h.flatten block (List.mem_cons_self ..)) hblock

/-- The last block may be shorter. -/
theorem Cut.last (hne : xs ≠ []) (hle : xs.length ≤ size) : Cut size [xs] xs where
  ne_nil := fun _ h => List.mem_singleton.mp h ▸ hne
  le_size := fun _ h => List.mem_singleton.mp h ▸ hle
  full := fun _ h => absurd h List.not_mem_nil
  flatten := by rw [List.flatten_cons, List.flatten_nil, List.append_nil]

/-- A full block in front. -/
theorem Cut.cons (h : Cut size blocks ys) (hsize : 1 ≤ size) (hfull : block.length = size) :
    Cut size (block :: blocks) (block ++ ys) where
  ne_nil := by
    intro b hb
    rcases List.mem_cons.mp hb with rfl | hb
    · exact List.ne_nil_of_length_pos (by omega)
    · exact h.ne_nil b hb
  le_size := by
    intro b hb
    rcases List.mem_cons.mp hb with rfl | hb
    · exact Nat.le_of_eq hfull
    · exact h.le_size b hb
  full := by
    intro b hb
    cases blocks with
    | nil => cases hb
    | cons c blocks =>
      rw [List.dropLast_cons_cons] at hb
      rcases List.mem_cons.mp hb with rfl | hb
      · exact hfull
      · exact h.full b hb
  flatten := by rw [List.flatten_cons, h.flatten]

end PolarBear.Blocks
