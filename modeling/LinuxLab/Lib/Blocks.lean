import Mathlib.Data.List.Basic
import Mathlib.Data.List.Range

/-!
# A buffer written in blocks

A block is an offset and a length.  Blocks that follow one another without a gap from `a`
to `b` tile the interval, and then every cell of it lies in exactly one of them.  When each
block is filled with its part of one sequence, the buffer holds the sequence.
-/

namespace LinuxLab
namespace Lib

/-- The blocks cover the cells from `a` up to `b`, in order, each where the last one ends. -/
def Tiles (a b : Nat) : List (Nat × Nat) → Prop
  | [] => a = b
  | block :: blocks => block.1 = a ∧ Tiles (a + block.2) b blocks

theorem Tiles.append {a b c : Nat} {xs ys : List (Nat × Nat)} (hx : Tiles a b xs)
    (hy : Tiles b c ys) : Tiles a c (xs ++ ys) := by
  induction xs generalizing a with
  | nil =>
    have hab : a = b := hx
    rw [List.nil_append, hab]
    exact hy
  | cons x xs ih => exact ⟨hx.1, ih hx.2⟩

theorem Tiles.le {a b : Nat} {blocks : List (Nat × Nat)} (h : Tiles a b blocks) : a ≤ b := by
  induction blocks generalizing a with
  | nil => exact Nat.le_of_eq h
  | cons x xs ih => exact Nat.le_trans (Nat.le_add_right a x.2) (ih h.2)

/-- The cell lies in the block. -/
def covers (cell : Nat) (block : Nat × Nat) : Bool :=
  block.1 ≤ cell && cell < block.1 + block.2

theorem covers_iff {cell : Nat} {block : Nat × Nat} :
    covers cell block = true ↔ block.1 ≤ cell ∧ cell < block.1 + block.2 := by
  rw [covers, Bool.and_eq_true, decide_eq_true_eq, decide_eq_true_eq]

/-- A tiled cell lies in one block, any other cell in none. -/
theorem Tiles.countP_covers {a b : Nat} {blocks : List (Nat × Nat)} (h : Tiles a b blocks)
    (cell : Nat) : blocks.countP (covers cell) = if a ≤ cell ∧ cell < b then 1 else 0 := by
  induction blocks generalizing a with
  | nil =>
    have hab : a = b := h
    rw [List.countP_nil, if_neg (by omega)]
  | cons x xs ih =>
    obtain ⟨rfl, hxs⟩ := h
    have hle := hxs.le
    rw [List.countP_cons, ih hxs]
    by_cases hx : covers cell x = true
    · have hcell := covers_iff.mp hx
      rw [if_neg (by omega), if_pos hx, if_pos (by omega)]
    · have hcell : ¬(x.1 ≤ cell ∧ cell < x.1 + x.2) := fun h => hx (covers_iff.mpr h)
      rw [if_neg hx, Nat.add_zero]
      exact if_congr (by omega) rfl rfl

variable {α : Type}

/-- Put values into a buffer, from an offset on. -/
def putAt (mem : List α) (offset : Nat) (values : List α) : List α :=
  mem.take offset ++ (values ++ mem.drop (offset + values.length))

/-- The first `n` cells hold the sequence `f`. -/
def filled (f : Nat → α) (mem : List α) (n : Nat) : List α :=
  (List.range n).map f ++ mem.drop n

theorem putAt_filled (f : Nat → α) (mem : List α) (n len : Nat) :
    putAt (filled f mem n) n ((List.range' n len).map f) = filled f mem (n + len) := by
  have hlen : ((List.range n).map f).length = n := by rw [List.length_map, List.length_range]
  have htake : (filled f mem n).take n = (List.range n).map f :=
    List.take_left' hlen
  have hdrop : (filled f mem n).drop (n + len) = mem.drop (n + len) := by
    have happend : (filled f mem n).drop (((List.range n).map f).length + len) =
        (mem.drop n).drop len := List.drop_length_add_append len
    rwa [hlen, List.drop_drop] at happend
  rw [putAt, htake, List.length_map, List.length_range', hdrop, filled, ← List.append_assoc,
    ← List.map_append, List.range_eq_range', List.range_eq_range', ← List.range'_append_1,
    Nat.zero_add]

end Lib
end LinuxLab
