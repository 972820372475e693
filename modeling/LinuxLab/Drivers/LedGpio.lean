import LinuxLab.Lib.UserCopy

/-!
# led_gpio: the LED device

`toy_driver_write` of `led_gpio.c` on the four LED outputs and the wait-queue flag.
The delays between the blinks of a `traffic` command are left out, and so is the
wake-up of the example threads, which are compiled out.  `ledLeftOn` and its three
siblings are the macros `LED_LEFT_ON` and so on.
-/

namespace LinuxLab
namespace LedGpio

open Lib

inductive WaitQueueFlag where
  | wait
  | key
  | next
  | exit
deriving DecidableEq, Repr

/-- The GPIO outputs of the four LEDs, and the flag. -/
structure LedDriver where
  left1 : Bool
  left2 : Bool
  right1 : Bool
  right2 : Bool
  waitQueueFlag : WaitQueueFlag
deriving DecidableEq, Repr

def bufSize : Nat := 1024

def eFault : Int := 14

def ledLeftOn (s : LedDriver) : LedDriver := { s with left1 := true, left2 := true }

def ledLeftOff (s : LedDriver) : LedDriver := { s with left1 := false, left2 := false }

def ledRightOn (s : LedDriver) : LedDriver := { s with right1 := true, right2 := true }

def ledRightOff (s : LedDriver) : LedDriver := { s with right1 := false, right2 := false }

/-- What `toy_driver_write` does with the text in `kernel_write_buffer`, which is
zero behind it. -/
def runCommand (kernelWriteBuffer : CString) (s : LedDriver) : LedDriver :=
  if strncmpEq kernelWriteBuffer "sta_join".toList 8 then ledRightOn (ledLeftOn s)
  else if strncmpEq kernelWriteBuffer "sta_leave".toList 9 then ledRightOff (ledLeftOff s)
  else if strncmpEq kernelWriteBuffer "traffic".toList 7 then
    ledRightOn (ledLeftOn (ledLeftOff (ledRightOff s)))
  else
    match (kernelWriteBuffer.headD '\x00').toNat with
    | 0 => ledRightOff (ledLeftOff { s with waitQueueFlag := .wait })
    | 1 => { s with waitQueueFlag := .key }
    | 2 => { s with waitQueueFlag := .next }
    | _ => s

/-- `toy_driver_read` copies nothing. -/
def toyDriverRead (s : LedDriver) : FileOp LedDriver := ⟨bufSize, 0, [], false, s⟩

/-- `toy_driver_write` of `count` bytes from user space, of which `data` can be read.  The
whole buffer is cleared first, and a terminator is stored behind what was copied. -/
def toyDriverWrite (data : CString) (count : Nat)
    (u : UserCopy bufSize data.length (min count (bufSize - 1))) (s : LedDriver) :
    FileOp LedDriver :=
  let len := min count (bufSize - 1)
  if u.bytesLeft ≠ 0 then ⟨-eFault, max bufSize u.touched, [], true, s⟩
  else ⟨count, max bufSize (len + 1), [], false, runCommand (data.take len) s⟩

/-- The LEDs after a process has written a text of its own, all of which can be read. -/
def writeText (text : CString) (s : LedDriver) : LedDriver :=
  (toyDriverWrite text text.length (.full (Nat.min_le_left _ _)) s).state

def AllOn (s : LedDriver) : Prop :=
  s.left1 = true ∧ s.left2 = true ∧ s.right1 = true ∧ s.right2 = true

def AllOff (s : LedDriver) : Prop :=
  s.left1 = false ∧ s.left2 = false ∧ s.right1 = false ∧ s.right2 = false

theorem not_allOn_of_allOff {s : LedDriver} (h : AllOff s) : ¬AllOn s := by
  intro hon
  exact Bool.noConfusion (h.1.symm.trans hon.1)

/-- The buffer keeps enough of the text that was written to compare its words. -/
theorem strncmpEq_buffer {n : Nat} (hn : n ≤ bufSize - 1) (buf pattern : CString) :
    strncmpEq (buf.take (min buf.length (bufSize - 1))) pattern n = strncmpEq buf pattern n := by
  have htake : (buf.take (min buf.length (bufSize - 1))).take n = buf.take n := by
    rw [List.take_take]
    by_cases hlen : n ≤ buf.length
    · rw [Nat.min_eq_left (by omega)]
    · rw [Nat.min_eq_right (by omega), List.take_of_length_le (by omega),
        List.take_of_length_le (by omega)]
  rw [strncmpEq, htake, strncmpEq]

/-- A copy of at most 1023 bytes that can all be read is made in full, so the kernel does not
matter. -/
theorem write_eq (text : CString) (s : LedDriver) :
    writeText text s = runCommand (text.take (min text.length (bufSize - 1))) s := by
  unfold writeText toyDriverWrite
  rw [if_neg (not_not.mpr ((UserCopy.bytesLeft_eq_zero_iff _).mpr rfl))]

theorem allOn_write_join {buf : CString} (h : strncmpEq buf "sta_join".toList 8 = true)
    (s : LedDriver) : AllOn (writeText buf s) := by
  rw [write_eq, runCommand, strncmpEq_buffer (by decide), if_pos h]
  exact ⟨rfl, rfl, rfl, rfl⟩

theorem allOff_write_leave {buf : CString} (h : strncmpEq buf "sta_leave".toList 9 = true)
    (s : LedDriver) : AllOff (writeText buf s) := by
  have hjoin : ¬strncmpEq buf "sta_join".toList 8 = true := strncmpEq_exclusive h (by decide)
  rw [write_eq, runCommand, strncmpEq_buffer (by decide), strncmpEq_buffer (by decide),
    if_neg hjoin, if_pos h]
  exact ⟨rfl, rfl, rfl, rfl⟩

theorem allOn_write_traffic {buf : CString} (h : strncmpEq buf "traffic".toList 7 = true)
    (s : LedDriver) : AllOn (writeText buf s) := by
  have hjoin : ¬strncmpEq buf "sta_join".toList 8 = true := strncmpEq_exclusive h (by decide)
  have hleave : ¬strncmpEq buf "sta_leave".toList 9 = true := strncmpEq_exclusive h (by decide)
  rw [write_eq, runCommand, strncmpEq_buffer (by decide), strncmpEq_buffer (by decide),
    strncmpEq_buffer (by decide), if_neg hjoin, if_neg hleave, if_pos h]
  exact ⟨rfl, rfl, rfl, rfl⟩

end LedGpio
end LinuxLab
