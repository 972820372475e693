import LinuxLab.Drivers.ButtonInterrupt
import LinuxLab.Drivers.LedGpio
import LinuxLab.Drivers.TemperatureText
import LinuxLab.Drivers.Transfers

/-!
# The length contract of the character devices

A file operation stays inside its kernel buffer, a read returns no more than it was asked
for and as many defined bytes as it says, and an operation whose user copy fails returns an
error and changes nothing.  `k_driver_write`, `toy_driver_write` and `kdt_driver_read` keep
this contract for every count.  `k_driver_read` passes the count on to the copy from a buffer
of 20 bytes, of which only the text and its terminator are defined.  `kdt_driver_write` passes
it on to the copy into a buffer of 1024 bytes and goes on when the copy fails, and
`toy_driver_read` returns 1024 without copying anything.

A kernel that knows the size of the 20 bytes refuses a longer copy, and then the count stays
inside; a count between the text and the 20 bytes still hands out what was on the stack.
-/

namespace LinuxLab
namespace CharDevice

open Lib SensorSpi LedGpio ButtonInterrupt

/-- The contract of an operation on a kernel buffer of `size` cells.  `outputs` are the GPIO
outputs and flags in the state of the driver. -/
structure LengthContract {σ τ : Type} (isRead : Bool) (size count : Nat) (outputs : σ → τ)
    (s : σ) (op : FileOp σ) : Prop where
  inBuffer : op.reach ≤ size
  returned : isRead = true → op.ret < 0 ∨ 0 ≤ op.ret ∧ op.ret ≤ count ∧
    (op.delivered.length : Int) = op.ret ∧ ∀ c ∈ op.delivered, c.isSome = true
  failure : op.copyFailed = true → op.ret < 0 ∧ outputs op.state = outputs s

section

variable {σ τ : Type} {isRead : Bool} {size count : Nat} {outputs : σ → τ} {s : σ}
  {op : FileOp σ}

/-- An operation that returns an error has only to stay in its buffer and to leave the
outputs. -/
theorem LengthContract.error (hret : op.ret < 0) (hreach : op.reach ≤ size)
    (houtputs : outputs op.state = outputs s) :
    LengthContract isRead size count outputs s op where
  inBuffer := hreach
  returned := fun _ => .inl hret
  failure := fun _ => ⟨hret, houtputs⟩

theorem LengthContract.read (hcopied : op.copyFailed = false) (hreach : op.reach ≤ size)
    (hreturned : 0 ≤ op.ret ∧ op.ret ≤ count ∧
      (op.delivered.length : Int) = op.ret ∧ ∀ c ∈ op.delivered, c.isSome = true) :
    LengthContract true size count outputs s op where
  inBuffer := hreach
  returned := fun _ => .inr hreturned
  failure := fun hfailed => Bool.noConfusion (hcopied.symm.trans hfailed)

theorem LengthContract.write (hcopied : op.copyFailed = false) (hreach : op.reach ≤ size) :
    LengthContract false size count outputs s op where
  inBuffer := hreach
  returned := fun hread => Bool.noConfusion hread
  failure := fun hfailed => Bool.noConfusion (hcopied.symm.trans hfailed)

end

/-- The text of a temperature with its terminator, in `out_string`. -/
theorem printedCells_temperatureText {v : Int} (hv : InInt v) :
    printedCells 20 (temperatureText v) = (temperatureText v ++ [nul]).map some ++
      List.replicate (20 - ((temperatureText v).length + 1)) none := by
  rw [printedCells, snprintf_temperatureText hv (by decide)]

section Read

variable (r : SpiRead) {room count : Nat} (u : UserCopy 20 room count) (s : Sensor)

theorem kDriverRead_of_copied {u : UserCopy 20 room count} (h : u.copied = count) :
    kDriverRead r u s = ⟨count, count, (printedCells 20
      (temperatureText (readTemperature s.dmaMode s.calibration r))).upTo count, false, s⟩ := by
  have hleft : u.bytesLeft = 0 := u.bytesLeft_eq_zero_iff.mpr h
  simp only [kDriverRead, hleft, h, u.touched_eq_count h]
  rfl

theorem kDriverRead_of_lt {u : UserCopy 20 room count} (h : u.copied < count) :
    kDriverRead r u s = ⟨-SensorSpi.eFault, u.touched, (printedCells 20
      (temperatureText (readTemperature s.dmaMode s.calibration r))).upTo u.copied, true, s⟩ := by
  have hleft : u.bytesLeft ≠ 0 := u.bytesLeft_ne_zero_iff.mpr h
  simp only [kDriverRead, if_pos hleft, decide_eq_true hleft]

/-- A count that is copied in full must not pass the text and its terminator; a copy that ends
early must do so within the 20 cells. -/
theorem kDriverRead_contract_iff :
    LengthContract true 20 count id s (kDriverRead r u s) ↔
      (u.copied = count →
        count ≤ (temperatureText (readTemperature s.dmaMode s.calibration r)).length + 1) ∧
      (u.copied < count → u.touched ≤ 20) := by
  have hv := inInt_readTemperature s.dmaMode s.calibration r
  have htext := length_temperatureText_le hv
  have hdefined := @upTo_defined_iff
    (temperatureText (readTemperature s.dmaMode s.calibration r) ++ [nul])
    (20 - ((temperatureText (readTemperature s.dmaMode s.calibration r)).length + 1)) count
  rw [← printedCells_temperatureText hv, List.length_append, List.length_singleton] at hdefined
  by_cases hcopied : u.copied = count
  · rw [kDriverRead_of_copied r s hcopied]
    constructor
    · intro h
      refine ⟨fun _ => ?_, fun hlt => by omega⟩
      rcases h.returned rfl with hneg | ⟨-, -, -, hcells⟩
      · have hneg : (count : Int) < 0 := hneg
        omega
      · exact hdefined.mp hcells
    · rintro ⟨hcount, -⟩
      have hcount := hcount hcopied
      apply LengthContract.read rfl
      · show count ≤ 20
        omega
      · refine ⟨Int.natCast_nonneg count, Int.le_refl _, ?_, hdefined.mpr hcount⟩
        exact congrArg Nat.cast (length_upTo _ count)
  · have hlt : u.copied < count := Nat.lt_of_le_of_ne u.copied_le_count hcopied
    rw [kDriverRead_of_lt r s hlt]
    constructor
    · intro h
      exact ⟨fun heq => absurd heq hcopied, fun _ => h.inBuffer⟩
    · rintro ⟨-, htouched⟩
      exact .error (show -SensorSpi.eFault < 0 by decide) (htouched hlt) rfl

/-- With the size check, only a count within the 20 cells is copied. -/
theorem kDriverRead_checked_iff (hchecked : u.Checked) :
    LengthContract true 20 count id s (kDriverRead r u s) ↔ (count ≤ 20 → count ≤ room →
      count ≤ (temperatureText (readTemperature s.dmaMode s.calibration r)).length + 1) := by
  have htouched : u.touched ≤ 20 := by
    by_cases hsize : count ≤ 20
    · exact Nat.le_trans u.touched_le_count hsize
    · rw [hchecked (Nat.not_le.mp hsize)]
      exact Nat.zero_le 20
  rw [kDriverRead_contract_iff]
  constructor
  · rintro ⟨hfull, -⟩ hsize hroom
    exact hfull (u.complete hsize hroom)
  · intro h
    refine ⟨fun hcopied => h ?_ (hcopied ▸ u.copied_le_room), fun _ => htouched⟩
    rw [u.touched_eq_count hcopied] at htouched
    exact htouched

end Read

theorem kDriverWrite_contract (count : Nat) (s : Sensor) :
    LengthContract false 20 count id s (kDriverWrite count s) :=
  .write rfl (Nat.zero_le 20)

theorem toyDriverRead_no_contract (count : Nat) (s : LedDriver) :
    ¬LengthContract true LedGpio.bufSize count id s (toyDriverRead s) := by
  intro h
  rcases h.returned rfl with hneg | ⟨-, -, hlength, -⟩
  · have hneg : ((LedGpio.bufSize : Nat) : Int) < 0 := hneg
    exact absurd hneg (by decide)
  · have hlength : (0 : Int) = ((LedGpio.bufSize : Nat) : Int) := hlength
    exact absurd hlength (by decide)

theorem toyDriverWrite_contract (data : CString) (count : Nat)
    (u : UserCopy LedGpio.bufSize data.length (min count (LedGpio.bufSize - 1))) (s : LedDriver) :
    LengthContract false LedGpio.bufSize count id s (toyDriverWrite data count u s) := by
  have hlen : min count (LedGpio.bufSize - 1) + 1 ≤ LedGpio.bufSize := by
    unfold LedGpio.bufSize
    omega
  have htouched : u.touched ≤ LedGpio.bufSize :=
    Nat.le_trans u.touched_le_count (Nat.le_of_succ_le hlen)
  unfold toyDriverWrite
  by_cases hleft : u.bytesLeft ≠ 0
  · rw [if_pos hleft]
    exact .error (show -LedGpio.eFault < 0 by decide) (Nat.max_le.mpr ⟨Nat.le_refl _, htouched⟩) rfl
  · rw [if_neg hleft]
    exact .write rfl (Nat.max_le.mpr ⟨Nat.le_refl _, hlen⟩)

theorem kdtDriverRead_contract (current : Task) (count : Nat) {room : Nat}
    (u : UserCopy 2 room 1) (s : ButtonDriver) :
    LengthContract true 2 count (fun s => (s.gpioOutput, s.waitQueueFlag)) s
      (kdtDriverRead current count u s) := by
  have htouched : u.touched ≤ 2 := Nat.le_succ_of_le u.touched_le_count
  unfold kdtDriverRead
  by_cases hcount : count = 0
  · rw [if_pos hcount]
    exact .read rfl (Nat.zero_le 2)
      ⟨Int.le_refl 0, Int.natCast_nonneg count, rfl, List.forall_mem_nil _⟩
  · rw [if_neg hcount]
    by_cases hleft : u.bytesLeft ≠ 0
    · rw [if_pos hleft]
      exact .error (show -ButtonInterrupt.eFault < 0 by decide) htouched rfl
    · have hcopied : u.copied = 1 := u.bytesLeft_eq_zero_iff.mp (not_not.mp hleft)
      rw [if_neg hleft, hcopied]
      apply LengthContract.read rfl htouched
      refine ⟨show (0 : Int) ≤ 1 by decide, show (1 : Int) ≤ count by omega, rfl, ?_⟩
      exact List.forall_mem_singleton.mpr rfl

/-- The copy must fit into the buffer and must not fail. -/
theorem kdtDriverWrite_contract_iff (data : CString) {count : Nat}
    (u : UserCopy ButtonInterrupt.bufSize data.length count) (residue : List Char)
    (s : ButtonDriver) :
    LengthContract false ButtonInterrupt.bufSize count (fun s => (s.gpioOutput, s.waitQueueFlag))
      s (kdtDriverWrite data u residue s) ↔
      count ≤ ButtonInterrupt.bufSize ∧ count ≤ data.length := by
  constructor
  · intro h
    have hcopied : u.copied = count := by
      by_contra hne
      have hfailed : u.bytesLeft ≠ 0 := fun hzero => hne (u.bytesLeft_eq_zero_iff.mp hzero)
      have hneg : (count : Int) < 0 := (h.failure (decide_eq_true hfailed)).1
      omega
    refine ⟨?_, hcopied ▸ u.copied_le_room⟩
    rw [← u.touched_eq_count hcopied]
    exact h.inBuffer
  · rintro ⟨hsize, hdata⟩
    have hleft : u.bytesLeft = 0 := u.bytesLeft_eq_zero_iff.mpr (u.complete hsize hdata)
    exact .write (decide_eq_false (not_not.mpr hleft)) (Nat.le_trans u.touched_le_count hsize)

/-- When each operation of the three drivers keeps the contract, whatever the copies do.  The
second part is about a kernel that checks the size of `out_string`. -/
theorem length_contract_iff (r : SpiRead) (sensor : Sensor) (led : LedDriver)
    (button : ButtonDriver) (current : Task) (data : CString) (residue : List Char)
    (room count : Nat) (toSensor : UserCopy 20 room count)
    (fromLed : UserCopy LedGpio.bufSize data.length (min count (LedGpio.bufSize - 1)))
    (toButton : UserCopy 2 room 1)
    (fromButton : UserCopy ButtonInterrupt.bufSize data.length count) :
    (LengthContract true 20 count id sensor (kDriverRead r toSensor sensor) ↔
      (toSensor.copied = count → count ≤
        (temperatureText (readTemperature sensor.dmaMode sensor.calibration r)).length + 1) ∧
      (toSensor.copied < count → toSensor.touched ≤ 20)) ∧
    (toSensor.Checked →
      (LengthContract true 20 count id sensor (kDriverRead r toSensor sensor) ↔
        (count ≤ 20 → count ≤ room → count ≤
          (temperatureText (readTemperature sensor.dmaMode sensor.calibration r)).length + 1))) ∧
    LengthContract false 20 count id sensor (kDriverWrite count sensor) ∧
    ¬LengthContract true LedGpio.bufSize count id led (toyDriverRead led) ∧
    LengthContract false LedGpio.bufSize count id led (toyDriverWrite data count fromLed led) ∧
    LengthContract true 2 count (fun s => (s.gpioOutput, s.waitQueueFlag)) button
      (kdtDriverRead current count toButton button) ∧
    (LengthContract false ButtonInterrupt.bufSize count
      (fun s => (s.gpioOutput, s.waitQueueFlag)) button
      (kdtDriverWrite data fromButton residue button) ↔
      count ≤ ButtonInterrupt.bufSize ∧ count ≤ data.length) :=
  ⟨kDriverRead_contract_iff r toSensor sensor, kDriverRead_checked_iff r toSensor sensor,
    kDriverWrite_contract count sensor, toyDriverRead_no_contract count led,
    toyDriverWrite_contract data count fromLed led,
    kdtDriverRead_contract current count toButton button,
    kdtDriverWrite_contract_iff data fromButton residue button⟩

/-- A sensor that was never read, and the button as it is loaded, with its output switched
on. -/
def idleSensor : Sensor := ⟨loadCalibration (0, 0) (0, 0) (0, 0), 0, 0, 0, 0⟩

def litButton : ButtonDriver := ⟨true, 0, none, List.replicate ButtonInterrupt.bufSize nul⟩

/-- A read of 20 bytes from the sensor returns the six bytes of its text and 14 that were never
written, a read of one byte from the LEDs returns 1024, and a write to the button whose copy
fails returns its count and switches the output off.  So it is for every kernel; the first
byte of the buffer is 0 whether the failed copy clears it or leaves it. -/
theorem length_contract_broken :
    (∃ r : SpiRead, ∀ u : UserCopy 20 20 20, (kDriverRead r u idleSensor).ret = 20 ∧
      ¬LengthContract true 20 20 id idleSensor (kDriverRead r u idleSensor)) ∧
    (∃ led, (toyDriverRead led).ret = 1024 ∧
      ¬LengthContract true LedGpio.bufSize 1 id led (toyDriverRead led)) ∧
    ∀ u : UserCopy ButtonInterrupt.bufSize ([] : CString).length 1,
      (kdtDriverWrite [] u litButton.kernelWriteBuffer litButton).copyFailed = true ∧
      (kdtDriverWrite [] u litButton.kernelWriteBuffer litButton).ret = 1 ∧
      (kdtDriverWrite [] u litButton.kernelWriteBuffer litButton).state.gpioOutput = false ∧
      ¬LengthContract false ButtonInterrupt.bufSize 1 (fun s => (s.gpioOutput, s.waitQueueFlag))
        litButton (kdtDriverWrite [] u litButton.kernelWriteBuffer litButton) := by
  refine ⟨⟨⟨true, true, 0, fun _ => 0⟩, fun u => ?_⟩,
    ⟨⟨false, false, false, false, .wait⟩, rfl, toyDriverRead_no_contract 1 _⟩, fun u => ?_⟩
  · have hcopied : u.copied = 20 := u.complete (Nat.le_refl 20) (Nat.le_refl 20)
    refine ⟨congrArg FileOp.ret (kDriverRead_of_copied _ _ hcopied), fun h => ?_⟩
    have hcount := ((kDriverRead_contract_iff _ u _).mp h).1 hcopied
    exact absurd hcount (by decide)
  · have hleft : u.bytesLeft ≠ 0 :=
      u.bytesLeft_ne_zero_iff.mpr (Nat.lt_succ_of_le u.copied_le_room)
    refine ⟨decide_eq_true hleft, rfl, ?_, fun h => ?_⟩
    · unfold kdtDriverWrite
      rw [if_neg hleft]
      rfl
    · exact absurd ((kdtDriverWrite_contract_iff _ u _ _).mp h).2 (by decide)

end CharDevice
end LinuxLab
