import LinuxLab.Lib.CString

/-!
# Copies between a kernel object and user space

A driver calls `copy_to_user` and `copy_from_user` and sees what is left to copy.  How the
kernel makes the copy is not for the driver to say, so a call is a parameter here, with what
is assumed of it as fields: a copy within the object that user space can serve is made in
full, and no copy goes further than it was asked to.  Nothing is said of a copy that is
longer than the object.  A kernel that knows the size of the object refuses it; that is the
hypothesis `Checked`.

A kernel object is the list of its cells, where `none` is a cell that was never written.
-/

namespace LinuxLab
namespace Lib

abbrev Cells := List (Option Char)

/-- `count` cells from the start of a buffer.  What lies behind it is undefined. -/
def Cells.upTo (cells : Cells) (count : Nat) : Cells :=
  cells.take count ++ List.replicate (count - cells.length) none

/-- A buffer of `size` cells that was undefined before `snprintf` printed into it. -/
def printedCells (size : Nat) (text : CString) : Cells :=
  (snprintf size text ++ [nul]).map some ++
    List.replicate (size - ((snprintf size text).length + 1)) none

/-- What a file operation did to the kernel buffer and the user's, and what it returned. -/
structure FileOp (σ : Type) where
  ret : Int
  reach : Nat
  delivered : Cells
  copyFailed : Bool
  state : σ

/-- A call for `count` bytes of a kernel object of `size` bytes, when user space can take or
give `room` bytes before it faults. -/
structure UserCopy (size room count : Nat) where
  copied : Nat
  -- The cells of the object that the call goes over, from the first one on.  What could not be
  -- copied from user space may be cleared, so these can be more than were copied.
  touched : Nat
  copied_le_room : copied ≤ room
  copied_le_touched : copied ≤ touched
  touched_le_count : touched ≤ count
  complete : count ≤ size → count ≤ room → copied = count

namespace UserCopy

variable {size room count : Nat}

/-- What the call returns: the bytes that it did not copy. -/
def bytesLeft (u : UserCopy size room count) : Nat := count - u.copied

/-- The size check of the kernel refuses a copy that is longer than the object. -/
def Checked (u : UserCopy size room count) : Prop := size < count → u.touched = 0

/-- The call that copies everything. -/
def full (h : count ≤ room) : UserCopy size room count where
  copied := count
  touched := count
  copied_le_room := h
  copied_le_touched := Nat.le_refl count
  touched_le_count := Nat.le_refl count
  complete := fun _ _ => rfl

theorem copied_le_count (u : UserCopy size room count) : u.copied ≤ count :=
  Nat.le_trans u.copied_le_touched u.touched_le_count

theorem bytesLeft_eq_zero_iff (u : UserCopy size room count) :
    u.bytesLeft = 0 ↔ u.copied = count := by
  have hle := u.copied_le_count
  unfold bytesLeft
  omega

theorem bytesLeft_ne_zero_iff (u : UserCopy size room count) :
    u.bytesLeft ≠ 0 ↔ u.copied < count := by
  have hle := u.copied_le_count
  unfold bytesLeft
  omega

/-- Within the object the copy ends early only where user space faults. -/
theorem copied_eq_count_iff (u : UserCopy size room count) (h : count ≤ size) :
    u.copied = count ↔ count ≤ room :=
  ⟨fun hcopied => hcopied ▸ u.copied_le_room, u.complete h⟩

theorem touched_eq_count (u : UserCopy size room count) (h : u.copied = count) :
    u.touched = count :=
  Nat.le_antisymm u.touched_le_count (Nat.le_trans (Nat.le_of_eq h.symm) u.copied_le_touched)

end UserCopy

theorem length_upTo (cells : Cells) (count : Nat) : (cells.upTo count).length = count := by
  rw [Cells.upTo, List.length_append, List.length_take, List.length_replicate]
  omega

theorem upTo_printed (defined : List Char) (undefined count : Nat) :
    Cells.upTo (defined.map some ++ List.replicate undefined none) count =
      (defined.take count).map some ++ List.replicate (count - defined.length) none := by
  rw [Cells.upTo, List.take_append, List.map_take, List.take_replicate, List.append_assoc,
    List.replicate_append_replicate, List.length_append, List.length_map, List.length_replicate]
  congr 2
  omega

/-- A copy delivers defined bytes only when it ends with the defined cells. -/
theorem upTo_defined_iff {defined : List Char} {undefined count : Nat} :
    (∀ c ∈ Cells.upTo (defined.map some ++ List.replicate undefined none) count, c.isSome = true) ↔
      count ≤ defined.length := by
  rw [upTo_printed, List.forall_mem_append]
  constructor
  · rintro ⟨-, h⟩
    by_contra hlt
    have hmem : none ∈ List.replicate (count - defined.length) (none : Option Char) :=
      List.mem_replicate.mpr ⟨by omega, rfl⟩
    exact absurd (h none hmem) (by decide)
  · intro hle
    refine ⟨fun c hc => ?_, ?_⟩
    · obtain ⟨x, -, rfl⟩ := List.mem_map.mp hc
      rfl
    · rw [Nat.sub_eq_zero_of_le hle]
      exact fun c hc => absurd hc List.not_mem_nil

end Lib
end LinuxLab
