import LinuxLab.Lib.UserCopy

/-!
# button_interrupt: the button device

The interrupt handler and the file operations of `button_interrupt.c`.  A task is the
identity of its `task_struct`.  The kernel log, the value of the input pin and the wake-up
of the thread, which looks at the flag in any case, are left out; `open` and `release` do
nothing.
-/

namespace LinuxLab
namespace ButtonInterrupt

open Lib

abbrev Task := Nat

def bufSize : Nat := 1024

def eFault : Int := 14

/-- The globals of the driver, and the GPIO output. -/
structure ButtonDriver where
  gpioOutput : Bool
  waitQueueFlag : Nat
  userSpaceTask : Option Task
  kernelWriteBuffer : List Char

/-- `kdt_gpio_irq_signal_handler`: the task that the signal goes to, and the flag. -/
def kdtGpioIrqSignalHandler (s : ButtonDriver) : Option Task × ButtonDriver :=
  (s.userSpaceTask, { s with waitQueueFlag := 1 })

/-- The text `"t"` with its terminator. -/
def registered : Cells := [some 't', some nul]

/-- `kdt_driver_read` of `count` bytes by `current`, with its call of `copy_to_user`. -/
def kdtDriverRead (current : Task) (count : Nat) {room : Nat} (u : UserCopy 2 room 1)
    (s : ButtonDriver) : FileOp ButtonDriver :=
  if count = 0 then ⟨0, 0, [], false, s⟩
  else if u.bytesLeft ≠ 0 then ⟨-eFault, u.touched, registered.upTo u.copied, true, s⟩
  else ⟨1, u.touched, registered.upTo u.copied, false,
    { s with userSpaceTask := some current, waitQueueFlag := 1 }⟩

/-- The byte reaches a user who has room for it. -/
def byteCopied : UserCopy 2 1 1 := .full (Nat.le_refl 1)

/-- `gpio_set_value` by the first byte of the buffer. -/
def setOutput (kernelWriteBuffer : List Char) (s : ButtonDriver) : ButtonDriver :=
  match (kernelWriteBuffer.headD nul).toNat with
  | 0 => { s with gpioOutput := false }
  | 1 => { s with gpioOutput := true }
  | _ => s

/-- `kdt_driver_write` of `count` bytes, of which `data` can be read.  A failed copy is only
logged; `residue` is what it leaves in the buffer, which the kernel may have cleared or left
as it was.  Of what is copied the buffer holds the first 1024 bytes. -/
def kdtDriverWrite (data : CString) {count : Nat} (u : UserCopy bufSize data.length count)
    (residue : List Char) (s : ButtonDriver) : FileOp ButtonDriver :=
  let buffer :=
    if u.bytesLeft = 0 then (data.take count ++ s.kernelWriteBuffer.drop count).take bufSize
    else residue
  { ret := count
    reach := u.touched
    delivered := []
    copyFailed := u.bytesLeft ≠ 0
    state := setOutput buffer { s with kernelWriteBuffer := buffer } }

/-- A read of at least one byte whose copy succeeds registers the task. -/
theorem userSpaceTask_read (task : Task) (count : Nat) {room : Nat} (u : UserCopy 2 room 1)
    (s : ButtonDriver) : (kdtDriverRead task count u s).state.userSpaceTask =
      if 0 < count ∧ 0 < room then some task else s.userSpaceTask := by
  have hcopied := u.copied_eq_count_iff (by decide)
  unfold kdtDriverRead
  by_cases hcount : count = 0
  · rw [if_pos hcount, if_neg (by omega)]
  · rw [if_neg hcount]
    by_cases hroom : 1 ≤ room
    · have hleft := u.bytesLeft_eq_zero_iff.mpr (hcopied.mpr hroom)
      rw [if_neg (not_not.mpr hleft), if_pos (by omega)]
    · have hleft : u.bytesLeft ≠ 0 := fun h => hroom (hcopied.mp (u.bytesLeft_eq_zero_iff.mp h))
      rw [if_pos hleft, if_neg (by omega)]

end ButtonInterrupt
end LinuxLab
