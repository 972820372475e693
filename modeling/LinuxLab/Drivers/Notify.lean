import LinuxLab.Drivers.Transfers
import LinuxLab.Lib.Exec

/-!
# What the notify attribute publishes

The timer queues the work item, the work item reads the sensor and sets the value behind
`notify`, and processes read the device and store into the attributes.  `read_temperature`
returns its error codes as it returns temperatures, and neither caller tells them apart: a
failed read is published as -0.05 or -0.12 degrees.
-/

namespace LinuxLab
namespace SensorSpi

open Lib

/-- The driver between two events.  `workPending` says that the work item is queued. -/
structure Driver where
  sensor : Sensor
  workPending : Bool

inductive Event where
  | tick
  | work (r : SpiRead)
  | read (r : SpiRead) (room count : Nat) (u : UserCopy 20 room count)
  | store (attr : TempAttr) (buf : CString)

/-- `sensor_timer_callback` queues the work item, once until it runs. -/
def step (d : Driver) : Event → Option Driver
  | .tick => some { d with workPending := true }
  | .work r =>
    if d.workPending = true then some ⟨workqueueFn r d.sensor, false⟩ else none
  | .read r _ _ u => some { d with sensor := (kDriverRead r u d.sensor).state }
  | .store attr buf => some { d with sensor := storeAttr attr buf d.sensor }

/-- The value was there at the start, was stored into the attribute, or is the temperature
of a successful transfer by the work item. -/
def Sourced (start : Sensor) (events : List Event) (value : Int) : Prop :=
  value = start.notify ∨
  (∃ buf, .store .notify buf ∈ events ∧ scanInt buf = some value) ∨
  ∃ r, .work r ∈ events ∧ r.Succeeds ∧ value = compensate start.calibration r.rawData

/-- The reads of the sensor succeed.  A read of the device whose copy to the user fails
reports an error in any case. -/
def ReadsSucceed : Event → Prop
  | .work r => r.Succeeds
  | .read r _ count u => r.Succeeds ∨ u.copied < count
  | .tick => True
  | .store _ _ => True

theorem Sourced.append {start : Sensor} {events : List Event} {value : Int}
    (h : Sourced start events value) (more : List Event) :
    Sourced start (events ++ more) value := by
  rcases h with h | ⟨buf, hmem, hscan⟩ | ⟨r, hmem, hr⟩
  · exact .inl h
  · exact .inr (.inl ⟨buf, List.mem_append_left more hmem, hscan⟩)
  · exact .inr (.inr ⟨r, List.mem_append_left more hmem, hr⟩)

theorem calibration_storeAttr (attr : TempAttr) (buf : CString) (s : Sensor) :
    (storeAttr attr buf s).calibration = s.calibration := by
  cases attr <;> rfl

/-- Storing into `notify` keeps the value or sets it to the number in the text; the other
attributes leave it alone. -/
theorem notify_storeAttr (attr : TempAttr) (buf : CString) (s : Sensor) :
    (storeAttr attr buf s).notify = s.notify ∨
      attr = .notify ∧ scanInt buf = some (storeAttr attr buf s).notify := by
  cases attr with
  | notify =>
    cases hscan : scanInt buf with
    | none =>
      left
      show (scanInt buf).getD s.notify = s.notify
      rw [hscan]
      rfl
    | some value =>
      right
      refine ⟨rfl, ?_⟩
      show some value = some ((scanInt buf).getD s.notify)
      rw [hscan]
      rfl
  | trigger => exact .inl rfl
  | useDma => exact .inl rfl

theorem sourced_step {start : Sensor} {front : List Event} {d d' : Driver} {e : Event}
    (hok : ReadsSucceed e)
    (h : d.sensor.calibration = start.calibration ∧ Sourced start front d.sensor.notify)
    (hstep : step d e = some d') :
    d'.sensor.calibration = start.calibration ∧
      Sourced start (front ++ [e]) d'.sensor.notify := by
  obtain ⟨hcalibration, hsourced⟩ := h
  cases e with
  | tick =>
    cases hstep
    exact ⟨hcalibration, hsourced.append _⟩
  | work r =>
    obtain ⟨-, rfl⟩ := Option.ite_some_none_eq_some.mp hstep
    refine ⟨hcalibration, .inr (.inr ⟨r, List.mem_concat_self, hok, ?_⟩)⟩
    show readTemperature d.sensor.dmaMode d.sensor.calibration r = _
    rw [readTemperature_of_succeeds hok, hcalibration]
  | read r room count u =>
    cases hstep
    exact ⟨hcalibration, hsourced.append _⟩
  | store attr buf =>
    cases hstep
    refine ⟨(calibration_storeAttr attr buf d.sensor).trans hcalibration, ?_⟩
    rcases notify_storeAttr attr buf d.sensor with hkept | ⟨rfl, hscan⟩
    · show Sourced start _ (storeAttr attr buf d.sensor).notify
      rw [hkept]
      exact hsourced.append _
    · exact .inr (.inl ⟨buf, List.mem_concat_self, hscan⟩)

/-- In a run whose reads of the sensor succeed, every value behind `notify` has a source,
and every read of the device whose `read_temperature` fails returns an error. -/
theorem failed_read_not_published {start : Driver} {events : List Event}
    (hok : ∀ e ∈ events, ReadsSucceed e) {front back : List Event} {d : Driver}
    (hsplit : events = front ++ back) (hrun : exec step start front = some d) :
    Sourced start.sensor front d.sensor.notify ∧
    ∀ r room count u rest, back = .read r room count u :: rest → ¬r.Succeeds →
      (kDriverRead r u d.sensor).ret < 0 := by
  subst hsplit
  constructor
  · have hstart : start.sensor.calibration = start.sensor.calibration ∧
        Sourced start.sensor [] start.sensor.notify := ⟨rfl, .inl rfl⟩
    exact (exec_history (I := fun front d => d.sensor.calibration = start.sensor.calibration ∧
        Sourced start.sensor front d.sensor.notify) (fun _ _ _ _ => sourced_step) hstart
      (fun e he => hok e (List.mem_append_left back he)) hrun).2
  · rintro r room count u rest rfl hfails
    have hread : r.Succeeds ∨ u.copied < count :=
      hok (.read r room count u) (List.mem_append_right front List.mem_cons_self)
    have hleft : u.bytesLeft ≠ 0 := u.bytesLeft_ne_zero_iff.mpr (hread.resolve_left hfails)
    show (if u.bytesLeft ≠ 0 then -eFault else (count : Int)) < 0
    rw [if_pos hleft]
    decide

/-- A driver that has not read its sensor. -/
def idleDriver : Driver := ⟨⟨loadCalibration (0, 0) (0, 0) (0, 0), 0, 0, 0, 0⟩, false⟩

theorem failed_read_not_published_once :
    ∃ d, exec step idleDriver [.tick, .work ⟨true, true, 0, fun _ => 0⟩] = some d ∧
      Sourced idleDriver.sensor [.tick, .work ⟨true, true, 0, fun _ => 0⟩] d.sensor.notify := by
  have hok : ∀ e ∈ [Event.tick, .work ⟨true, true, 0, fun _ => 0⟩], ReadsSucceed e :=
    List.forall_mem_cons.mpr ⟨trivial, List.forall_mem_singleton.mpr ⟨rfl, rfl, rfl⟩⟩
  exact ⟨_, rfl, (failed_read_not_published hok (List.append_nil _).symm rfl).1⟩

/-- One transfer that fails puts -5 behind `notify`, and a read of the device whose transfer
fails returns its six bytes. -/
theorem failed_read_published :
    (∃ d, exec step idleDriver [.tick, .work ⟨true, true, -5, fun _ => 0⟩] = some d ∧
      d.sensor.notify = -5 ∧
      ¬Sourced idleDriver.sensor [.tick, .work ⟨true, true, -5, fun _ => 0⟩] d.sensor.notify) ∧
    ∃ r : SpiRead, ¬r.Succeeds ∧
      ∀ u : UserCopy 20 6 6, (kDriverRead r u idleDriver.sensor).ret = 6 := by
  have hnotify : readTemperature 0 (loadCalibration (0, 0) (0, 0) (0, 0))
      ⟨true, true, -5, fun _ => 0⟩ = -5 :=
    readTemperature_of_ret_neg rfl rfl (by decide) 0 _
  have hsource : ¬Sourced idleDriver.sensor [.tick, .work ⟨true, true, -5, fun _ => 0⟩] (-5) := by
    rintro (h | ⟨buf, hmem, -⟩ | ⟨r, hmem, hr, -⟩)
    · exact absurd h (by decide)
    · simp at hmem
    · simp only [List.mem_cons, reduceCtorEq, Event.work.injEq, List.not_mem_nil, or_false,
        false_or] at hmem
      rw [hmem] at hr
      exact absurd hr (by decide)
  refine ⟨⟨_, rfl, hnotify, fun h => hsource (hnotify.symm ▸ h)⟩, ⟨true, true, -5, fun _ => 0⟩,
    by decide, fun u => ?_⟩
  have hleft : u.bytesLeft = 0 :=
    u.bytesLeft_eq_zero_iff.mpr (u.complete (by decide) (by decide))
  exact if_neg (not_not.mpr hleft)

end SensorSpi
end LinuxLab
