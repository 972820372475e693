import LinuxLab.Lib.Resources

/-!
# Loading the drivers

`k_module_init`, `toy_module_init` and `kdt_module_init` with the labels they jump to, for
every outcome of the kernel calls they make, and the exit functions.  A reference that is
put again at once is not counted.  What `device_destroy`, `class_destroy` and `kobject_put`
do with an error pointer, without a device or with a null pointer is an outcome like the
others: the call comes back and has done nothing, or it does not.

The three functions share their beginning.  No label takes the character device out again,
as the exit functions do, `cdev_add` is compared with -1 alone, and error pointers pass for
classes, devices and threads.  `toy_kobj` is memory and a reference to it.  `k_type` has no
release function, so the last `kobject_put` does not free the memory; `k_module_exit` frees
it by itself, and the labels do not.
-/

namespace LinuxLab
namespace ModuleInit

open Lib

inductive Resource where
  | region
  | cls
  | device
  | cdev
  | gpio (pin : Nat)
  | irq
  | thread
  | spiDevice
  | kobjectMemory
  | kobject
  | workqueue
  | timer
deriving DecidableEq, Repr

/-- A pointer that a kernel call returns. -/
inductive Ptr where
  | valid
  | null
  | error
deriving DecidableEq, Repr

/-! ## The character device -/

/-- What the calls return that all three functions begin with, and whether `device_destroy`
and `class_destroy` are harmless when there is nothing to destroy. -/
structure ChrdevCalls where
  region : Int
  cls : Ptr
  dev : Ptr
  cdev : Int
  deviceDestroy : Bool
  classDestroy : Bool

section Labels

variable (o : ChrdevCalls) (l : Ledger Resource)

def cerror : Int × Ledger Resource := (-1, l.release .region)

def deviceError : Int × Ledger Resource :=
  cerror (l.releaseOr (o.cls = .valid) o.classDestroy .cls)

def regError : Int × Ledger Resource :=
  deviceError o (l.releaseOr (o.dev = .valid) o.deviceDestroy .device)

end Labels

/-- The beginning of the three functions, up to `cdev_add`. -/
def chrdevInit (o : ChrdevCalls) (rest : Ledger Resource → Int × Ledger Resource)
    (l : Ledger Resource) : Int × Ledger Resource :=
  if o.region < 0 then (-1, l)
  else if o.cls = .null then cerror (l.acquire .region)
  else if o.dev = .null then
    deviceError o ((l.acquire .region).acquireIf (o.cls = .valid) .cls)
  else if o.cdev = -1 then
    regError o (((l.acquire .region).acquireIf (o.cls = .valid) .cls).acquireIf
      (o.dev = .valid) .device)
  else rest ((((l.acquire .region).acquireIf (o.cls = .valid) .cls).acquireIf
    (o.dev = .valid) .device).acquireIf (o.cdev = 0) .cdev)

/-- The end of the three exit functions. -/
def chrdevExit (o : ChrdevCalls) (l : Ledger Resource) : Ledger Resource :=
  (((l.release .cdev).releaseOr (o.dev = .valid) o.deviceDestroy .device).releaseOr
    (o.cls = .valid) o.classDestroy .cls).release .region

/-! ## led_gpio -/

namespace LedGpio

def outputLeft1 : Nat := 512 + 22
def outputLeft2 : Nat := 512 + 5
def outputRight1 : Nat := 512 + 23
def outputRight2 : Nat := 512 + 24
def inputPin : Nat := 512 + 19

end LedGpio

/-- What `gpio_request` and the call that sets the direction return. -/
structure GpioCalls where
  request : Int
  direction : Int

def GpioCalls.ok (o : GpioCalls) : Prop := o.request = 0 ∧ o.direction = 0

instance (o : GpioCalls) : Decidable o.ok := inferInstanceAs (Decidable (_ ∧ _))

def registerGpioOutput (pin : Nat) (o : GpioCalls) (l : Ledger Resource) :
    Int × Ledger Resource :=
  if o.request ≠ 0 then (-1, l)
  else if o.direction ≠ 0 then (-1, (l.acquire (.gpio pin)).release (.gpio pin))
  else (0, l.acquire (.gpio pin))

structure ToyCalls where
  chrdev : ChrdevCalls
  left1 : GpioCalls
  left2 : GpioCalls
  right1 : GpioCalls
  right2 : GpioCalls
  input : GpioCalls

section Labels

open LedGpio

variable (o : ChrdevCalls) (l : Ledger Resource)

def gpioLeft2Error : Int × Ledger Resource := regError o (l.release (.gpio outputLeft1))

def gpioRight1Error : Int × Ledger Resource := gpioLeft2Error o (l.release (.gpio outputLeft2))

def gpioRight2Error : Int × Ledger Resource := gpioRight1Error o (l.release (.gpio outputRight1))

def gpioInputRequestError : Int × Ledger Resource :=
  gpioRight2Error o (l.release (.gpio outputRight2))

def gpioInputError : Int × Ledger Resource := gpioInputRequestError o (l.release (.gpio inputPin))

end Labels

/-- Go on with the ledger of a call that returned 0, and to a label with that of another. -/
def orGoto (result : Int × Ledger Resource) (label rest : Ledger Resource → Int × Ledger Resource) :
    Int × Ledger Resource :=
  if result.1 ≠ 0 then label result.2 else rest result.2

open LedGpio in
def toyModuleInit (o : ToyCalls) : Ledger Resource → Int × Ledger Resource :=
  chrdevInit o.chrdev fun l =>
  orGoto (registerGpioOutput outputLeft1 o.left1 l) (regError o.chrdev) fun l =>
  orGoto (registerGpioOutput outputLeft2 o.left2 l) (gpioLeft2Error o.chrdev) fun l =>
  orGoto (registerGpioOutput outputRight1 o.right1 l) (gpioRight1Error o.chrdev) fun l =>
  orGoto (registerGpioOutput outputRight2 o.right2 l) (gpioRight2Error o.chrdev) fun l =>
    if o.input.request ≠ 0 then gpioInputRequestError o.chrdev l
    else if o.input.direction ≠ 0 then gpioInputError o.chrdev (l.acquire (.gpio inputPin))
    else (0, l.acquire (.gpio inputPin))

open LedGpio in
def toyModuleExit (o : ToyCalls) (l : Ledger Resource) : Ledger Resource :=
  chrdevExit o.chrdev (((((l.release (.gpio inputPin)).release (.gpio outputLeft1)).release
    (.gpio outputLeft2)).release (.gpio outputRight1)).release (.gpio outputRight2))

/-! ## button_interrupt -/

namespace ButtonInterrupt

def outputPin : Nat := 512 + 17
def inputPin : Nat := 512 + 16

end ButtonInterrupt

structure KdtCalls where
  chrdev : ChrdevCalls
  output : GpioCalls
  input : GpioCalls
  thread : Ptr
  irq : Int

section Labels

open ButtonInterrupt

variable (o : ChrdevCalls) (l : Ledger Resource)

def gpio15Error : Int × Ledger Resource := regError o (l.release (.gpio outputPin))

def gpio14Error : Int × Ledger Resource := gpio15Error o (l.release (.gpio inputPin))

end Labels

open ButtonInterrupt in
/-- A thread that was not created is only logged; when the interrupt cannot be requested,
one pin is freed and no label is jumped to. -/
def kdtModuleInit (o : KdtCalls) : Ledger Resource → Int × Ledger Resource :=
  chrdevInit o.chrdev fun l =>
    if o.output.request ≠ 0 then regError o.chrdev l
    else if o.output.direction ≠ 0 then gpio15Error o.chrdev (l.acquire (.gpio outputPin))
    else if o.input.request ≠ 0 then gpio14Error o.chrdev (l.acquire (.gpio outputPin))
    else if o.input.direction ≠ 0 then
      gpio14Error o.chrdev ((l.acquire (.gpio outputPin)).acquire (.gpio inputPin))
    else if o.irq ≠ 0 then
      (-1, (((l.acquire (.gpio outputPin)).acquire (.gpio inputPin)).acquireIf
        (o.thread = .valid) .thread).release (.gpio outputPin))
    else
      (0, (((l.acquire (.gpio outputPin)).acquire (.gpio inputPin)).acquireIf
        (o.thread = .valid) .thread).acquire .irq)

open ButtonInterrupt in
/-- The thread, if there is one, returns when it finds the flag set. -/
def kdtModuleExit (o : KdtCalls) (l : Ledger Resource) : Ledger Resource :=
  chrdevExit o.chrdev ((((l.release .irq).releaseOr (o.thread = .valid) true .thread).release
    (.gpio inputPin)).release (.gpio outputPin))

/-! ## sensor_spi -/

/-- `node`, `platform` and `controller` are found or not, and `spi_new_device`, `kzalloc` and
`create_workqueue` return NULL when they fail.  `kobjectPut` says whether `kobject_put` is
harmless for a null pointer. -/
structure KCalls where
  chrdev : ChrdevCalls
  node : Bool
  platform : Bool
  controller : Bool
  spiDevice : Bool
  setup : Int
  calib1 : Int
  calib2 : Int
  calib3 : Int
  toyKobj : Bool
  kobjectAdd : Int
  workqueue : Bool
  kobjectPut : Bool

section Labels

variable (o : KCalls) (l : Ledger Resource)

def spiError : Int × Ledger Resource := regError o.chrdev (l.release .spiDevice)

def kobjectError : Int × Ledger Resource :=
  spiError o (l.releaseOr (o.toyKobj = true) o.kobjectPut .kobject)

end Labels

/-- Without the memory for `toy_kobj` the function goes on. -/
def kModuleInit (o : KCalls) : Ledger Resource → Int × Ledger Resource :=
  chrdevInit o.chrdev fun l =>
    if o.node = false then regError o.chrdev l
    else if o.platform = false then regError o.chrdev l
    else if o.controller = false then regError o.chrdev l
    else if o.spiDevice = false then regError o.chrdev l
    else if o.setup ≠ 0 then spiError o (l.acquire .spiDevice)
    else if o.calib1 < 0 then spiError o (l.acquire .spiDevice)
    else if o.calib2 < 0 then spiError o (l.acquire .spiDevice)
    else if o.calib3 < 0 then spiError o (l.acquire .spiDevice)
    else if o.toyKobj = true ∧ o.kobjectAdd ≠ 0 then
      spiError o ((((l.acquire .spiDevice).acquire .kobjectMemory).acquire .kobject).release
        .kobject)
    else if o.workqueue = false then
      kobjectError o (((l.acquire .spiDevice).acquireIf (o.toyKobj = true)
        .kobjectMemory).acquireIf (o.toyKobj = true) .kobject)
    else
      (0, ((((l.acquire .spiDevice).acquireIf (o.toyKobj = true) .kobjectMemory).acquireIf
        (o.toyKobj = true) .kobject).acquire .workqueue).acquire .timer)

/-- `kobject_put` and `kfree` stand behind a test of the pointer. -/
def kModuleExit (o : KCalls) (l : Ledger Resource) : Ledger Resource :=
  chrdevExit o.chrdev (((((l.release .workqueue).release .timer).releaseOr (o.toyKobj = true)
    true .kobject).releaseOr (o.toyKobj = true) true .kobjectMemory).release .spiDevice)

/-! ## Unwinding -/

/-- The beginning of the function returns an error by itself. -/
def ChrdevCalls.Refused (o : ChrdevCalls) : Prop :=
  o.region < 0 ∨ o.cls = .null ∨ o.dev = .null ∨ o.cdev = -1

/-- The beginning of the function has acquired all that it should. -/
def ChrdevCalls.Complete (o : ChrdevCalls) : Prop :=
  o.cls = .valid ∧ o.dev = .valid ∧ o.cdev = 0

/-- There is a class for `class_destroy`, or it is harmless. -/
def ChrdevCalls.ClassUnwinds (o : ChrdevCalls) : Prop := o.cls = .valid ∨ o.classDestroy = true

/-- From `reg_error` on, every label has something to undo or is harmless. -/
def ChrdevCalls.Unwinds (o : ChrdevCalls) : Prop :=
  (o.dev = .valid ∨ o.deviceDestroy = true) ∧ o.ClassUnwinds

/-- The beginning of the function returns an error by itself and leaves nothing behind. -/
def ChrdevCalls.RefusedCleanly (o : ChrdevCalls) : Prop :=
  o.region < 0 ∨ o.cls = .null ∨ o.dev = .null ∧ o.ClassUnwinds ∨ o.cdev = -1 ∧ o.Unwinds

def ChrdevCalls.opened (o : ChrdevCalls) (l : Ledger Resource) : Ledger Resource :=
  (((l.acquire .region).acquireIf (o.cls = .valid) .cls).acquireIf
    (o.dev = .valid) .device).acquireIf (o.cdev = 0) .cdev

section

variable {o : ChrdevCalls} {rest : Ledger Resource → Int × Ledger Resource}

theorem ChrdevCalls.RefusedCleanly.refused (h : o.RefusedCleanly) : o.Refused := by
  rcases h with h | h | ⟨h, -⟩ | ⟨h, -⟩
  · exact .inl h
  · exact .inr (.inl h)
  · exact .inr (.inr (.inl h))
  · exact .inr (.inr (.inr h))

theorem ChrdevCalls.Refused.cleanly (h : o.Refused) (hunwinds : o.Unwinds) :
    o.RefusedCleanly := by
  rcases h with h | h | h | h
  · exact .inl h
  · exact .inr (.inl h)
  · exact .inr (.inr (.inl ⟨h, hunwinds.2⟩))
  · exact .inr (.inr (.inr ⟨h, hunwinds⟩))

/-- Another way to be clean that needs the labels adds nothing to one. -/
theorem ChrdevCalls.Refused.cleanly_or (h : o.Refused) {p : Prop} (hp : p → o.Unwinds) :
    o.RefusedCleanly ∨ p ↔ o.RefusedCleanly :=
  or_iff_left_of_imp (fun hyes => h.cleanly (hp hyes))

theorem ChrdevCalls.Complete.unwinds (h : o.Complete) : o.Unwinds := ⟨.inl h.2.1, .inl h.1⟩

theorem chrdevInit_of_not_refused (h : ¬o.Refused) (l : Ledger Resource) :
    chrdevInit o rest l = rest (o.opened l) := by
  unfold ChrdevCalls.Refused at h
  rw [not_or, not_or, not_or] at h
  obtain ⟨hregion, hcls, hdev, hcdev⟩ := h
  rw [chrdevInit, if_neg hregion, if_neg hcls, if_neg hdev, if_neg hcdev]
  rfl

/-- An error with nothing held but what was held before. -/
theorem allOrNothing_error (needed : List Resource) (before : Multiset Resource) :
    AllOrNothing needed before (-1, Ledger.start before) :=
  ⟨fun _ => ⟨rfl, rfl⟩, fun hzero => absurd hzero (show (-1 : Int) ≠ 0 by decide)⟩

theorem not_allOrNothing_of_stray {needed : List Resource} {before : Multiset Resource}
    {l : Ledger Resource} (h : l.stray = true) : ¬AllOrNothing needed before (-1, l) := by
  intro hall
  have hstray : l.stray = false := (hall.nothing (show (-1 : Int) ≠ 0 by decide)).2
  exact Bool.false_ne_true (hstray.symm.trans h)

theorem not_allOrNothing_of_mem {needed : List Resource} {before : Multiset Resource}
    {l : Ledger Resource} {r : Resource} (hover : Ledger.Over before l) (h : r ∈ l.own) :
    ¬AllOrNothing needed before (-1, l) :=
  fun hall => hover.held_ne h (hall.nothing (show (-1 : Int) ≠ 0 by decide)).1

/-- `device_error` takes back the class and the region. -/
theorem deviceError_acquire (h : o.ClassUnwinds) (l : Ledger Resource) :
    deviceError o ((l.acquire .region).acquireIf (o.cls = .valid) .cls) = (-1, l) := by
  rw [deviceError, cerror, Ledger.releaseOr_acquireIf h, Ledger.release_acquire]

theorem stray_deviceError {l : Ledger Resource} (h : l.stray = true ∨ ¬o.ClassUnwinds) :
    (deviceError o l).2.stray = true :=
  Ledger.stray_release.mpr (.inl (Ledger.stray_releaseOr h))

/-- The labels leave the character device behind. -/
theorem regError_opened (h : o.Unwinds) (l : Ledger Resource) :
    regError o (o.opened l) = (-1, l.acquireIf (o.cdev = 0) .cdev) := by
  rw [regError, deviceError, cerror, ChrdevCalls.opened,
    Ledger.releaseOr_acquireIf_of_ne (by decide), Ledger.releaseOr_acquireIf h.1,
    Ledger.releaseOr_acquireIf_of_ne (by decide), Ledger.releaseOr_acquireIf h.2,
    Ledger.release_acquireIf_of_ne (by decide), Ledger.release_acquire]

theorem stray_regError {l : Ledger Resource} (h : l.stray = true ∨ ¬o.Unwinds) :
    (regError o l).2.stray = true := by
  apply stray_deviceError
  rcases h with h | h
  · exact .inl (Ledger.stray_releaseOr (.inl h))
  · rcases not_and_or.mp h with hdev | hcls
    · exact .inl (Ledger.stray_releaseOr (.inr hdev))
    · exact .inr hcls

/-- What the labels know nothing of stays. -/
theorem regError_acquire (o : ChrdevCalls) {r : Resource} (hdevice : .device ≠ r)
    (hcls : .cls ≠ r) (hregion : .region ≠ r) (l : Ledger Resource) :
    regError o (l.acquire r) = (-1, (regError o l).2.acquire r) := by
  rw [regError, deviceError, cerror, Ledger.releaseOr_acquire_of_ne hdevice,
    Ledger.releaseOr_acquire_of_ne hcls, Ledger.release_acquire_of_ne hregion]
  rfl

/-- The exit functions take the character device out. -/
theorem chrdevExit_opened (hcdev : o.cdev = 0) (h : o.Unwinds) (l : Ledger Resource) :
    chrdevExit o (o.opened l) = l := by
  rw [chrdevExit, ChrdevCalls.opened, Ledger.acquireIf_of_pos hcdev, Ledger.release_acquire,
    Ledger.releaseOr_acquireIf h.1, Ledger.releaseOr_acquireIf h.2, Ledger.release_acquire]

theorem allOrNothing_regError (needed : List Resource) (before : Multiset Resource) :
    AllOrNothing needed before (regError o (o.opened (Ledger.start before))) ↔
      o.cdev ≠ 0 ∧ o.Unwinds := by
  by_cases hunwinds : o.Unwinds
  · rw [regError_opened hunwinds, and_iff_left hunwinds]
    by_cases hcdev : o.cdev = 0
    · rw [Ledger.acquireIf_of_pos hcdev]
      exact iff_of_false (not_allOrNothing_of_mem ((Ledger.over_start before).acquire _)
        (Ledger.mem_own_acquire.mpr (.inl rfl))) (not_not.mpr hcdev)
    · rw [Ledger.acquireIf, if_neg hcdev]
      exact iff_of_true (allOrNothing_error needed before) hcdev
  · exact iff_of_false (not_allOrNothing_of_stray (stray_regError (.inr hunwinds)))
      (fun h => hunwinds h.2)

/-- A function that stops at its beginning. -/
theorem allOrNothing_of_refused (h : o.Refused) (needed : List Resource)
    (before : Multiset Resource) :
    AllOrNothing needed before (chrdevInit o rest (Ledger.start before)) ↔ o.RefusedCleanly := by
  unfold chrdevInit
  by_cases hregion : o.region < 0
  · rw [if_pos hregion]
    exact iff_of_true (allOrNothing_error needed before) (.inl hregion)
  by_cases hcls : o.cls = .null
  · rw [if_neg hregion, if_pos hcls, cerror, Ledger.release_acquire]
    exact iff_of_true (allOrNothing_error needed before) (.inr (.inl hcls))
  rw [if_neg hregion, if_neg hcls, ChrdevCalls.RefusedCleanly, or_iff_right hregion,
    or_iff_right hcls]
  by_cases hdev : o.dev = .null
  · rw [if_pos hdev]
    by_cases hunwinds : o.ClassUnwinds
    · rw [deviceError_acquire hunwinds]
      exact iff_of_true (allOrNothing_error needed before) (.inl ⟨hdev, hunwinds⟩)
    · refine iff_of_false (not_allOrNothing_of_stray (stray_deviceError (.inr hunwinds))) ?_
      rintro (⟨-, h⟩ | ⟨-, -, h⟩) <;> exact hunwinds h
  · have hcdev : o.cdev = -1 :=
      ((h.resolve_left hregion).resolve_left hcls).resolve_left hdev
    have hopened : o.opened (Ledger.start before) =
        ((((Ledger.start before).acquire .region).acquireIf (o.cls = .valid) .cls).acquireIf
          (o.dev = .valid) .device) := by
      rw [ChrdevCalls.opened, Ledger.acquireIf, if_neg (by rw [hcdev]; decide)]
    rw [if_neg hdev, if_pos hcdev, ← hopened, allOrNothing_regError, hcdev,
      or_iff_right (fun h => hdev h.1), and_iff_right rfl, and_iff_right (by decide)]

theorem allOrNothing_zero {needed : List Resource} {before : Multiset Resource}
    {l : Ledger Resource} : AllOrNothing needed before (0, l) ↔ l.Holds needed :=
  ⟨fun h => h.all rfl, fun h => ⟨fun hne => absurd rfl hne, fun _ => h⟩⟩

theorem mem_own_opened {r : Resource} {before : Multiset Resource} :
    r ∈ (o.opened (Ledger.start before)).own ↔ o.cdev = 0 ∧ r = .cdev ∨
      o.dev = .valid ∧ r = .device ∨ o.cls = .valid ∧ r = .cls ∨ r = .region := by
  rw [ChrdevCalls.opened, Ledger.mem_own_acquireIf, Ledger.mem_own_acquireIf,
    Ledger.mem_own_acquireIf, Ledger.mem_own_acquire, or_iff_left Ledger.notMem_own_start]

/-- The resources that the beginning acquires. -/
def chrdevNeeded : List Resource := [.cdev, .device, .cls, .region]

theorem holds_opened {before : Multiset Resource} :
    (o.opened (Ledger.start before)).Holds chrdevNeeded ↔ o.Complete := by
  have hcls : .cls ∉ ((Ledger.start before).acquire Resource.region).own := by
    simp [Ledger.mem_own_acquire, Ledger.notMem_own_start]
  have hdevice : .device ∉ (((Ledger.start before).acquire Resource.region).acquireIf
      (o.cls = .valid) .cls).own := by
    simp [Ledger.mem_own_acquireIf, Ledger.mem_own_acquire, Ledger.notMem_own_start]
  have hcdev : .cdev ∉ ((((Ledger.start before).acquire Resource.region).acquireIf
      (o.cls = .valid) .cls).acquireIf (o.dev = .valid) .device).own := by
    simp [Ledger.mem_own_acquireIf, Ledger.mem_own_acquire, Ledger.notMem_own_start]
  have hregion : ((Ledger.start before).acquire Resource.region).Holds [.region] :=
    (Ledger.holds_acquire List.not_mem_nil).mpr (List.forall_mem_nil _)
  unfold chrdevNeeded ChrdevCalls.opened ChrdevCalls.Complete
  rw [Ledger.holds_acquireIf (by decide) hcdev, Ledger.holds_acquireIf (by decide) hdevice,
    Ledger.holds_acquireIf (by decide) hcls, and_iff_left hregion]
  exact ⟨fun h => ⟨h.2.2, h.2.1, h.1⟩, fun h => ⟨h.2.2, h.2.1, h.1⟩⟩

end

theorem orGoto_registerGpioOutput (pin : Nat) (o : GpioCalls) (l : Ledger Resource)
    (label rest : Ledger Resource → Int × Ledger Resource) :
    orGoto (registerGpioOutput pin o l) label rest =
      if o.ok then rest (l.acquire (.gpio pin)) else label l := by
  unfold registerGpioOutput
  by_cases hrequest : o.request = 0
  · by_cases hdirection : o.direction = 0
    · have hok : o.ok := ⟨hrequest, hdirection⟩
      rw [if_neg (not_not.mpr hrequest), if_neg (not_not.mpr hdirection), if_pos hok]
      rfl
    · have hok : ¬o.ok := fun h => hdirection h.2
      rw [if_neg (not_not.mpr hrequest), if_pos hdirection, Ledger.release_acquire, if_neg hok]
      rfl
  · have hok : ¬o.ok := fun h => hrequest h.1
    rw [if_pos hrequest, if_neg hok]
    rfl

/-! ## The three functions -/

def ToyCalls.GpioOk (o : ToyCalls) : Prop :=
  o.left1.ok ∧ o.left2.ok ∧ o.right1.ok ∧ o.right2.ok ∧ o.input.ok

/-- The resources that `toy_driver_write` and `toy_module_exit` use, the last one first. -/
def toyNeeded : List Resource :=
  [.gpio LedGpio.inputPin, .gpio LedGpio.outputRight2, .gpio LedGpio.outputRight1,
    .gpio LedGpio.outputLeft2, .gpio LedGpio.outputLeft1] ++ chrdevNeeded

theorem toyModuleInit_of_ok {o : ToyCalls} (hrefused : ¬o.chrdev.Refused) (hgpio : o.GpioOk)
    (l : Ledger Resource) :
    toyModuleInit o l = (0, (((((o.chrdev.opened l).acquire (.gpio LedGpio.outputLeft1)).acquire
      (.gpio LedGpio.outputLeft2)).acquire (.gpio LedGpio.outputRight1)).acquire
      (.gpio LedGpio.outputRight2)).acquire (.gpio LedGpio.inputPin)) := by
  obtain ⟨hleft1, hleft2, hright1, hright2, hrequest, hdirection⟩ := hgpio
  rw [toyModuleInit, chrdevInit_of_not_refused hrefused, orGoto_registerGpioOutput, if_pos hleft1,
    orGoto_registerGpioOutput, if_pos hleft2, orGoto_registerGpioOutput, if_pos hright1,
    orGoto_registerGpioOutput, if_pos hright2, if_neg (not_not.mpr hrequest),
    if_neg (not_not.mpr hdirection)]

/-- A driver that was loaded gives back all that it has acquired. -/
theorem toyModuleExit_toyModuleInit {o : ToyCalls} (hrefused : ¬o.chrdev.Refused)
    (hgpio : o.GpioOk) (hcdev : o.chrdev.cdev = 0) (hunwinds : o.chrdev.Unwinds)
    (l : Ledger Resource) :
    toyModuleExit o (toyModuleInit o l).2 = l := by
  rw [toyModuleInit_of_ok hrefused hgpio, toyModuleExit, Ledger.release_acquire,
    Ledger.release_acquire_of_ne (by decide), Ledger.release_acquire_of_ne (by decide),
    Ledger.release_acquire_of_ne (by decide), Ledger.release_acquire,
    Ledger.release_acquire_of_ne (by decide), Ledger.release_acquire_of_ne (by decide),
    Ledger.release_acquire, Ledger.release_acquire_of_ne (by decide), Ledger.release_acquire,
    Ledger.release_acquire, chrdevExit_opened hcdev hunwinds]

section

variable (o : ChrdevCalls) (l : Ledger Resource)

theorem gpioLeft2Error_acquire :
    gpioLeft2Error o (l.acquire (.gpio LedGpio.outputLeft1)) = regError o l := by
  rw [gpioLeft2Error, Ledger.release_acquire]

theorem gpioRight1Error_acquire :
    gpioRight1Error o (l.acquire (.gpio LedGpio.outputLeft2)) = gpioLeft2Error o l := by
  rw [gpioRight1Error, Ledger.release_acquire]

theorem gpioRight2Error_acquire :
    gpioRight2Error o (l.acquire (.gpio LedGpio.outputRight1)) = gpioRight1Error o l := by
  rw [gpioRight2Error, Ledger.release_acquire]

theorem gpioInputRequestError_acquire :
    gpioInputRequestError o (l.acquire (.gpio LedGpio.outputRight2)) = gpioRight2Error o l := by
  rw [gpioInputRequestError, Ledger.release_acquire]

end

/-- A GPIO that cannot be set up ends at `reg_error` with the others freed. -/
theorem toyModuleInit_of_not_ok {o : ToyCalls} (hrefused : ¬o.chrdev.Refused)
    (hgpio : ¬o.GpioOk) (l : Ledger Resource) :
    toyModuleInit o l = regError o.chrdev (o.chrdev.opened l) := by
  rw [toyModuleInit, chrdevInit_of_not_refused hrefused, orGoto_registerGpioOutput]
  by_cases hleft1 : o.left1.ok
  case neg => rw [if_neg hleft1]
  rw [if_pos hleft1, orGoto_registerGpioOutput]
  by_cases hleft2 : o.left2.ok
  case neg => rw [if_neg hleft2, gpioLeft2Error_acquire]
  rw [if_pos hleft2, orGoto_registerGpioOutput]
  by_cases hright1 : o.right1.ok
  case neg => rw [if_neg hright1, gpioRight1Error_acquire, gpioLeft2Error_acquire]
  rw [if_pos hright1, orGoto_registerGpioOutput]
  by_cases hright2 : o.right2.ok
  case neg =>
    rw [if_neg hright2, gpioRight2Error_acquire, gpioRight1Error_acquire, gpioLeft2Error_acquire]
  rw [if_pos hright2]
  -- With the four outputs registered, both labels of the input free them all.
  have hunwound : gpioInputRequestError o.chrdev (((((o.chrdev.opened l).acquire
      (.gpio LedGpio.outputLeft1)).acquire (.gpio LedGpio.outputLeft2)).acquire
      (.gpio LedGpio.outputRight1)).acquire (.gpio LedGpio.outputRight2)) =
      regError o.chrdev (o.chrdev.opened l) := by
    rw [gpioInputRequestError_acquire, gpioRight2Error_acquire, gpioRight1Error_acquire,
      gpioLeft2Error_acquire]
  by_cases hrequest : o.input.request = 0
  · have hdirection : o.input.direction ≠ 0 := fun h =>
      hgpio ⟨hleft1, hleft2, hright1, hright2, hrequest, h⟩
    rw [if_neg (not_not.mpr hrequest), if_pos hdirection, gpioInputError, Ledger.release_acquire]
    exact hunwound
  · rw [if_pos hrequest]
    exact hunwound

/-- `toy_module_init` is all-or-nothing exactly when it stops cleanly at its beginning, when
everything succeeds, or when a GPIO fails after a `cdev_add` that failed unnoticed. -/
theorem toyModuleInit_allOrNothing_iff (o : ToyCalls) (before : Multiset Resource) :
    AllOrNothing toyNeeded before (toyModuleInit o (Ledger.start before)) ↔
      o.chrdev.RefusedCleanly ∨ o.GpioOk ∧ o.chrdev.Complete ∨
      ¬o.GpioOk ∧ o.chrdev.cdev ≠ 0 ∧ o.chrdev.Unwinds := by
  by_cases hrefused : o.chrdev.Refused
  · refine (allOrNothing_of_refused hrefused _ _).trans (hrefused.cleanly_or ?_).symm
    rintro (⟨-, hcomplete⟩ | ⟨-, -, hunwinds⟩)
    · exact hcomplete.unwinds
    · exact hunwinds
  rw [or_iff_right (fun h => hrefused h.refused)]
  by_cases hgpio : o.GpioOk
  · rw [toyModuleInit_of_ok hrefused hgpio, allOrNothing_zero]
    show Ledger.Holds _ (_ :: _ :: _ :: _ :: _ :: chrdevNeeded) ↔ _
    rw [Ledger.holds_acquire (by decide), Ledger.holds_acquire (by decide),
      Ledger.holds_acquire (by decide), Ledger.holds_acquire (by decide),
      Ledger.holds_acquire (by decide), holds_opened, and_iff_right hgpio,
      or_iff_left (fun h => h.1 hgpio)]
  · rw [toyModuleInit_of_not_ok hrefused hgpio, allOrNothing_regError,
      or_iff_right (fun h => hgpio h.1), and_iff_right hgpio]

/-- The resources that the file operations, the interrupt handler and `kdt_module_exit` of
the button use, the last one first. -/
def kdtNeeded : List Resource :=
  [.irq, .thread, .gpio ButtonInterrupt.inputPin, .gpio ButtonInterrupt.outputPin] ++ chrdevNeeded

/-- `gpio_14_error` frees the input pin that `gpio_request` has not given. -/
theorem stray_gpio14Error {o : ChrdevCalls} {l : Ledger Resource}
    (h : .gpio ButtonInterrupt.inputPin ∉ l.own) : (gpio14Error o l).2.stray = true := by
  have hstray : (l.release (.gpio ButtonInterrupt.inputPin)).stray = true :=
    Ledger.stray_release.mpr (.inr h)
  unfold gpio14Error gpio15Error
  exact stray_regError (.inl (Ledger.stray_release.mpr (.inl hstray)))

theorem over_opened (o : ChrdevCalls) (before : Multiset Resource) :
    Ledger.Over before (o.opened (Ledger.start before)) :=
  ((((Ledger.over_start before).acquire _).acquireIf _ _).acquireIf _ _).acquireIf _ _

section

variable {o : KdtCalls} (hrefused : ¬o.chrdev.Refused)
include hrefused

open ButtonInterrupt

/-- A pin that cannot be set up ends at `reg_error` with the others freed, unless it is the
input pin that is refused. -/
theorem kdtModuleInit_of_unwound
    (h : ¬o.output.ok ∨ o.input.request = 0 ∧ o.input.direction ≠ 0) (l : Ledger Resource) :
    kdtModuleInit o l = regError o.chrdev (o.chrdev.opened l) := by
  rw [kdtModuleInit, chrdevInit_of_not_refused hrefused]
  by_cases hrequest : o.output.request = 0
  case neg => rw [if_pos hrequest]
  rw [if_neg (not_not.mpr hrequest)]
  by_cases hdirection : o.output.direction = 0
  case neg => rw [if_pos hdirection, gpio15Error, Ledger.release_acquire]
  obtain ⟨hin, hdir⟩ := h.resolve_left (not_not.mpr ⟨hrequest, hdirection⟩)
  rw [if_neg (not_not.mpr hdirection), if_neg (not_not.mpr hin), if_pos hdir, gpio14Error,
    Ledger.release_acquire, gpio15Error, Ledger.release_acquire]

theorem kdtModuleInit_of_input_refused (houtput : o.output.ok) (hinput : o.input.request ≠ 0)
    (l : Ledger Resource) :
    kdtModuleInit o l = gpio14Error o.chrdev ((o.chrdev.opened l).acquire (.gpio outputPin)) := by
  rw [kdtModuleInit, chrdevInit_of_not_refused hrefused, if_neg (not_not.mpr houtput.1),
    if_neg (not_not.mpr houtput.2), if_pos hinput]

theorem kdtModuleInit_of_irq_refused (houtput : o.output.ok) (hinput : o.input.ok)
    (hirq : o.irq ≠ 0) (l : Ledger Resource) :
    kdtModuleInit o l = (-1, ((o.chrdev.opened l).acquire (.gpio inputPin)).acquireIf
      (o.thread = .valid) .thread) := by
  rw [kdtModuleInit, chrdevInit_of_not_refused hrefused, if_neg (not_not.mpr houtput.1),
    if_neg (not_not.mpr houtput.2), if_neg (not_not.mpr hinput.1), if_neg (not_not.mpr hinput.2),
    if_pos hirq, Ledger.release_acquireIf_of_ne (by decide),
    Ledger.release_acquire_of_ne (by decide), Ledger.release_acquire]

theorem kdtModuleInit_of_ok (houtput : o.output.ok) (hinput : o.input.ok) (hirq : o.irq = 0)
    (l : Ledger Resource) :
    kdtModuleInit o l = (0, ((((o.chrdev.opened l).acquire (.gpio outputPin)).acquire
      (.gpio inputPin)).acquireIf (o.thread = .valid) .thread).acquire .irq) := by
  rw [kdtModuleInit, chrdevInit_of_not_refused hrefused, if_neg (not_not.mpr houtput.1),
    if_neg (not_not.mpr houtput.2), if_neg (not_not.mpr hinput.1), if_neg (not_not.mpr hinput.2),
    if_neg (not_not.mpr hirq)]

theorem kdtModuleExit_kdtModuleInit (houtput : o.output.ok) (hinput : o.input.ok)
    (hirq : o.irq = 0) (hcdev : o.chrdev.cdev = 0) (hunwinds : o.chrdev.Unwinds)
    (l : Ledger Resource) : kdtModuleExit o (kdtModuleInit o l).2 = l := by
  rw [kdtModuleInit_of_ok hrefused houtput hinput hirq, kdtModuleExit, Ledger.release_acquire,
    Ledger.releaseOr_acquireIf (.inr rfl), Ledger.release_acquire, Ledger.release_acquire,
    chrdevExit_opened hcdev hunwinds]

end

/-- `kdt_module_init` is all-or-nothing exactly when it stops cleanly at its beginning, when
everything succeeds, or when a call on the pins other than the request of the input fails
after a `cdev_add` that failed unnoticed. -/
theorem kdtModuleInit_allOrNothing_iff (o : KdtCalls) (before : Multiset Resource) :
    AllOrNothing kdtNeeded before (kdtModuleInit o (Ledger.start before)) ↔
      o.chrdev.RefusedCleanly ∨
      (¬o.output.ok ∨ o.input.request = 0 ∧ o.input.direction ≠ 0) ∧ o.chrdev.cdev ≠ 0 ∧
        o.chrdev.Unwinds ∨
      o.output.ok ∧ o.input.ok ∧ o.irq = 0 ∧ o.thread = .valid ∧ o.chrdev.Complete := by
  by_cases hrefused : o.chrdev.Refused
  · refine (allOrNothing_of_refused hrefused _ _).trans (hrefused.cleanly_or ?_).symm
    rintro (⟨-, -, hunwinds⟩ | ⟨-, -, -, -, hcomplete⟩)
    · exact hunwinds
    · exact hcomplete.unwinds
  rw [or_iff_right (fun h => hrefused h.refused)]
  by_cases hunwound : ¬o.output.ok ∨ o.input.request = 0 ∧ o.input.direction ≠ 0
  · have hno : ¬(o.output.ok ∧ o.input.ok ∧ o.irq = 0 ∧ o.thread = .valid ∧
        o.chrdev.Complete) := by
      rintro ⟨houtput, hinput, -⟩
      rcases hunwound with h | h
      · exact h houtput
      · exact h.2 hinput.2
    rw [kdtModuleInit_of_unwound hrefused hunwound, allOrNothing_regError, and_iff_right hunwound,
      or_iff_left hno]
  · have houtput : o.output.ok := not_not.mp (fun h => hunwound (.inl h))
    rw [or_iff_right (fun h => hunwound h.1), and_iff_right houtput]
    by_cases hrequest : o.input.request = 0
    · have hinput : o.input.ok := ⟨hrequest, not_not.mp (fun h => hunwound (.inr ⟨hrequest, h⟩))⟩
      by_cases hirq : o.irq = 0
      · rw [kdtModuleInit_of_ok hrefused houtput hinput hirq, allOrNothing_zero]
        have hthread : .thread ∉ (((o.chrdev.opened (Ledger.start before)).acquire
            (.gpio ButtonInterrupt.outputPin)).acquire (.gpio ButtonInterrupt.inputPin)).own := by
          simp [Ledger.mem_own_acquire, mem_own_opened]
        show Ledger.Holds _ (_ :: _ :: _ :: _ :: chrdevNeeded) ↔ _
        rw [Ledger.holds_acquire (by decide), Ledger.holds_acquireIf (by decide) hthread,
          Ledger.holds_acquire (by decide), Ledger.holds_acquire (by decide), holds_opened,
          and_iff_right hinput, and_iff_right hirq]
      · rw [kdtModuleInit_of_irq_refused hrefused houtput hinput hirq]
        refine iff_of_false ?_ (fun h => hirq h.2.1)
        exact not_allOrNothing_of_mem (((over_opened o.chrdev before).acquire _).acquireIf _ _)
          (Ledger.mem_own_acquireIf.mpr (.inr (Ledger.mem_own_acquire.mpr (.inl rfl))))
    · rw [kdtModuleInit_of_input_refused hrefused houtput hrequest]
      refine iff_of_false ?_ (fun h => hrequest h.1.1)
      have hnotMem : Resource.gpio ButtonInterrupt.inputPin ∉ ((o.chrdev.opened
          (Ledger.start before)).acquire (.gpio ButtonInterrupt.outputPin)).own := by
        rw [Ledger.mem_own_acquire, mem_own_opened]
        simp [ButtonInterrupt.inputPin, ButtonInterrupt.outputPin]
      exact not_allOrNothing_of_stray (stray_gpio14Error hnotMem)

/-- The resources that the device, the timer, the work item and `k_module_exit` of the sensor
use, the last one first. -/
def kNeeded : List Resource :=
  [.timer, .workqueue, .kobject, .kobjectMemory, .spiDevice] ++ chrdevNeeded

/-- The calls of `k_module_init` between `cdev_add` and the allocation of `toy_kobj`
succeed. -/
def KCalls.SpiOk (o : KCalls) : Prop :=
  o.node = true ∧ o.platform = true ∧ o.controller = true ∧ o.spiDevice = true ∧ o.setup = 0 ∧
    0 ≤ o.calib1 ∧ 0 ≤ o.calib2 ∧ 0 ≤ o.calib3

/-- All calls behind `cdev_add` succeed.  Without memory for `toy_kobj` there is nothing to
add. -/
def KCalls.SensorOk (o : KCalls) : Prop :=
  o.SpiOk ∧ (o.toyKobj = true → o.kobjectAdd = 0) ∧ o.workqueue = true

theorem spiError_acquire (o : KCalls) (l : Ledger Resource) :
    spiError o (l.acquire .spiDevice) = regError o.chrdev l := by
  rw [spiError, Ledger.release_acquire]

section

variable {o : KCalls} (hrefused : ¬o.chrdev.Refused)
include hrefused

theorem kModuleInit_of_not_spiOk (hspi : ¬o.SpiOk) (l : Ledger Resource) :
    kModuleInit o l = regError o.chrdev (o.chrdev.opened l) := by
  rw [kModuleInit, chrdevInit_of_not_refused hrefused]
  by_cases hnode : o.node = false
  case pos => rw [if_pos hnode]
  rw [if_neg hnode]
  by_cases hplatform : o.platform = false
  case pos => rw [if_pos hplatform]
  rw [if_neg hplatform]
  by_cases hcontroller : o.controller = false
  case pos => rw [if_pos hcontroller]
  rw [if_neg hcontroller]
  by_cases hdevice : o.spiDevice = false
  case pos => rw [if_pos hdevice]
  rw [if_neg hdevice]
  by_cases hsetup : o.setup = 0
  case neg => rw [if_pos hsetup, spiError_acquire]
  rw [if_neg (not_not.mpr hsetup)]
  by_cases hcalib1 : o.calib1 < 0
  case pos => rw [if_pos hcalib1, spiError_acquire]
  rw [if_neg hcalib1]
  by_cases hcalib2 : o.calib2 < 0
  case pos => rw [if_pos hcalib2, spiError_acquire]
  rw [if_neg hcalib2]
  by_cases hcalib3 : o.calib3 < 0
  case pos => rw [if_pos hcalib3, spiError_acquire]
  exfalso
  refine hspi ⟨?_, ?_, ?_, ?_, hsetup, Int.not_lt.mp hcalib1, Int.not_lt.mp hcalib2,
    Int.not_lt.mp hcalib3⟩
  all_goals rwa [← Bool.not_eq_false]

/-- With the sensor set up, what is left are the kobject and the work queue. -/
theorem kModuleInit_of_spiOk (hspi : o.SpiOk) (l : Ledger Resource) :
    kModuleInit o l =
      if o.toyKobj = true ∧ o.kobjectAdd ≠ 0 then
        spiError o (((((o.chrdev.opened l).acquire .spiDevice).acquire .kobjectMemory).acquire
          .kobject).release .kobject)
      else if o.workqueue = false then
        kobjectError o ((((o.chrdev.opened l).acquire .spiDevice).acquireIf (o.toyKobj = true)
          .kobjectMemory).acquireIf (o.toyKobj = true) .kobject)
      else (0, (((((o.chrdev.opened l).acquire .spiDevice).acquireIf (o.toyKobj = true)
        .kobjectMemory).acquireIf (o.toyKobj = true) .kobject).acquire .workqueue).acquire
        .timer) := by
  obtain ⟨hnode, hplatform, hcontroller, hdevice, hsetup, hcalib1, hcalib2, hcalib3⟩ := hspi
  rw [kModuleInit, chrdevInit_of_not_refused hrefused, if_neg (by simp [hnode]),
    if_neg (by simp [hplatform]), if_neg (by simp [hcontroller]), if_neg (by simp [hdevice]),
    if_neg (not_not.mpr hsetup), if_neg (Int.not_lt.mpr hcalib1), if_neg (Int.not_lt.mpr hcalib2),
    if_neg (Int.not_lt.mpr hcalib3)]

theorem kModuleInit_of_ok (hok : o.SensorOk) (l : Ledger Resource) :
    kModuleInit o l = (0, (((((o.chrdev.opened l).acquire .spiDevice).acquireIf
      (o.toyKobj = true) .kobjectMemory).acquireIf (o.toyKobj = true) .kobject).acquire
      .workqueue).acquire .timer) := by
  obtain ⟨hspi, hkobj, hwq⟩ := hok
  have hadd : ¬(o.toyKobj = true ∧ o.kobjectAdd ≠ 0) := fun h => h.2 (hkobj h.1)
  rw [kModuleInit_of_spiOk hrefused hspi, if_neg hadd, if_neg (by simp [hwq])]

theorem kModuleExit_kModuleInit (hok : o.SensorOk) (hcdev : o.chrdev.cdev = 0)
    (hunwinds : o.chrdev.Unwinds) (l : Ledger Resource) :
    kModuleExit o (kModuleInit o l).2 = l := by
  rw [kModuleInit_of_ok hrefused hok, kModuleExit, Ledger.release_acquire_of_ne (by decide),
    Ledger.release_acquire, Ledger.release_acquire, Ledger.releaseOr_acquireIf (.inr rfl),
    Ledger.releaseOr_acquireIf (.inr rfl), Ledger.release_acquire,
    chrdevExit_opened hcdev hunwinds]

/-- Once `toy_kobj` is allocated, every way to the labels keeps its memory. -/
theorem kModuleInit_keeps_memory (hspi : o.SpiOk) (hok : ¬o.SensorOk) (hkobj : o.toyKobj = true)
    (l : Ledger Resource) :
    kModuleInit o l = (-1, (regError o.chrdev (o.chrdev.opened l)).2.acquire .kobjectMemory) := by
  have hlabel : spiError o (((o.chrdev.opened l).acquire .spiDevice).acquire .kobjectMemory) =
      (-1, (regError o.chrdev (o.chrdev.opened l)).2.acquire .kobjectMemory) := by
    rw [spiError, Ledger.release_acquire_of_ne (by decide), Ledger.release_acquire,
      regError_acquire o.chrdev (by decide) (by decide) (by decide)]
  rw [kModuleInit_of_spiOk hrefused hspi]
  by_cases hadd : o.toyKobj = true ∧ o.kobjectAdd ≠ 0
  · rw [if_pos hadd, Ledger.release_acquire]
    exact hlabel
  · have hwq : o.workqueue = false := by
      by_contra hwq
      have hadded : o.toyKobj = true → o.kobjectAdd = 0 := fun h =>
        not_not.mp (fun hne => hadd ⟨h, hne⟩)
      exact hok ⟨hspi, hadded, by rwa [← Bool.not_eq_false]⟩
    rw [if_neg hadd, if_pos hwq, kobjectError, Ledger.releaseOr_acquireIf (.inl hkobj),
      Ledger.acquireIf_of_pos hkobj]
    exact hlabel

/-- Without memory for `toy_kobj`, a refused work queue comes to `kobject_put` of a null
pointer. -/
theorem kModuleInit_without_kobj (hspi : o.SpiOk) (hok : ¬o.SensorOk) (hkobj : o.toyKobj = false)
    (l : Ledger Resource) :
    kModuleInit o l = kobjectError o ((o.chrdev.opened l).acquire .spiDevice) := by
  have hnone : ¬o.toyKobj = true := by
    rw [hkobj]
    exact Bool.false_ne_true
  have hwq : o.workqueue = false := by
    by_contra hwq
    exact hok ⟨hspi, fun h => absurd h hnone, by rwa [← Bool.not_eq_false]⟩
  rw [kModuleInit_of_spiOk hrefused hspi, if_neg (fun h => hnone h.1), if_pos hwq,
    Ledger.acquireIf, if_neg hnone, Ledger.acquireIf, if_neg hnone]

end

theorem not_allOrNothing_memory (o : ChrdevCalls) (before : Multiset Resource) :
    ¬AllOrNothing kNeeded before
      (-1, (regError o (o.opened (Ledger.start before))).2.acquire .kobjectMemory) := by
  by_cases hunwinds : o.Unwinds
  · rw [regError_opened hunwinds]
    exact not_allOrNothing_of_mem (((Ledger.over_start before).acquireIf _ _).acquire _)
      (Ledger.mem_own_acquire.mpr (.inl rfl))
  · exact not_allOrNothing_of_stray (stray_regError (.inr hunwinds))

theorem allOrNothing_kobjectError {o : KCalls} (hkobj : o.toyKobj = false)
    (before : Multiset Resource) :
    AllOrNothing kNeeded before (kobjectError o ((o.chrdev.opened (Ledger.start before)).acquire
      .spiDevice)) ↔ o.chrdev.cdev ≠ 0 ∧ o.chrdev.Unwinds ∧ o.kobjectPut = true := by
  have hnone : ¬o.toyKobj = true := by
    rw [hkobj]
    exact Bool.false_ne_true
  by_cases hput : o.kobjectPut = true
  · rw [kobjectError, Ledger.releaseOr_of_harmless hnone hput, spiError_acquire,
      allOrNothing_regError, and_iff_left hput]
  · have hstray := @Ledger.stray_releaseOr Resource _ (o.toyKobj = true) _ o.kobjectPut .kobject
      ((o.chrdev.opened (Ledger.start before)).acquire .spiDevice)
      (.inr (not_or.mpr ⟨hnone, hput⟩))
    refine iff_of_false (not_allOrNothing_of_stray ?_) (fun h => hput h.2.2)
    exact stray_regError (.inl (Ledger.stray_release.mpr (.inl hstray)))

/-- The calls of `k_module_init` fail where the labels can undo what was done: before
`toy_kobj` is allocated, or without it. -/
def KCalls.FailsCleanly (o : KCalls) : Prop :=
  ¬o.SpiOk ∨ ¬o.SensorOk ∧ o.toyKobj = false ∧ o.kobjectPut = true

/-- `k_module_init` is all-or-nothing exactly when it stops cleanly at its beginning, when
everything succeeds, or when a later call fails after a `cdev_add` that failed unnoticed and
with no memory allocated for `toy_kobj`. -/
theorem kModuleInit_allOrNothing_iff (o : KCalls) (before : Multiset Resource) :
    AllOrNothing kNeeded before (kModuleInit o (Ledger.start before)) ↔
      o.chrdev.RefusedCleanly ∨ o.SensorOk ∧ o.toyKobj = true ∧ o.chrdev.Complete ∨
      o.FailsCleanly ∧ o.chrdev.cdev ≠ 0 ∧ o.chrdev.Unwinds := by
  by_cases hrefused : o.chrdev.Refused
  · refine (allOrNothing_of_refused hrefused _ _).trans (hrefused.cleanly_or ?_).symm
    rintro (⟨-, -, hcomplete⟩ | ⟨-, -, hunwinds⟩)
    · exact hcomplete.unwinds
    · exact hunwinds
  rw [or_iff_right (fun h => hrefused h.refused)]
  by_cases hspi : o.SpiOk
  case neg =>
    have hfails : o.FailsCleanly := .inl hspi
    rw [kModuleInit_of_not_spiOk hrefused hspi, allOrNothing_regError, and_iff_right hfails,
      or_iff_right (fun h => hspi h.1.1)]
  by_cases hok : o.SensorOk
  · have hfails : ¬o.FailsCleanly := by
      rintro (h | h)
      · exact h hspi
      · exact h.1 hok
    have hmemory : .kobjectMemory ∉ ((o.chrdev.opened (Ledger.start before)).acquire
        .spiDevice).own := by
      simp [Ledger.mem_own_acquire, mem_own_opened]
    have hkobject : .kobject ∉ (((o.chrdev.opened (Ledger.start before)).acquire
        .spiDevice).acquireIf (o.toyKobj = true) .kobjectMemory).own := by
      simp [Ledger.mem_own_acquireIf, Ledger.mem_own_acquire, mem_own_opened]
    rw [kModuleInit_of_ok hrefused hok, allOrNothing_zero, and_iff_right hok,
      or_iff_left (fun h => hfails h.1)]
    show Ledger.Holds _ (_ :: _ :: _ :: _ :: _ :: chrdevNeeded) ↔ _
    rw [Ledger.holds_acquire (by decide), Ledger.holds_acquire (by decide),
      Ledger.holds_acquireIf (by decide) hkobject, Ledger.holds_acquireIf (by decide) hmemory,
      Ledger.holds_acquire (by decide), holds_opened, ← and_assoc, and_self_iff]
  · rw [or_iff_right (fun h => hok h.1)]
    cases hkobj : o.toyKobj with
    | true =>
      rw [kModuleInit_keeps_memory hrefused hspi hok hkobj]
      refine iff_of_false (not_allOrNothing_memory o.chrdev before) ?_
      rintro ⟨h | h, -⟩
      · exact h hspi
      · exact Bool.false_ne_true (h.2.1.symm.trans hkobj)
    | false =>
      rw [kModuleInit_without_kobj hrefused hspi hok hkobj, allOrNothing_kobjectError hkobj]
      constructor
      · rintro ⟨hcdev, hunwinds, hput⟩
        exact ⟨.inr ⟨hok, hkobj, hput⟩, hcdev, hunwinds⟩
      · rintro ⟨h | h, hcdev, hunwinds⟩
        · exact absurd hspi h
        · exact ⟨hcdev, hunwinds, h.2.2⟩

/-- When the three functions are all-or-nothing, whatever was held before. -/
theorem module_init_allOrNothing_iff (before : Multiset Resource) :
    (∀ o : KCalls, AllOrNothing kNeeded before (kModuleInit o (Ledger.start before)) ↔
      o.chrdev.RefusedCleanly ∨ o.SensorOk ∧ o.toyKobj = true ∧ o.chrdev.Complete ∨
      o.FailsCleanly ∧ o.chrdev.cdev ≠ 0 ∧ o.chrdev.Unwinds) ∧
    (∀ o : ToyCalls, AllOrNothing toyNeeded before (toyModuleInit o (Ledger.start before)) ↔
      o.chrdev.RefusedCleanly ∨ o.GpioOk ∧ o.chrdev.Complete ∨
      ¬o.GpioOk ∧ o.chrdev.cdev ≠ 0 ∧ o.chrdev.Unwinds) ∧
    ∀ o : KdtCalls, AllOrNothing kdtNeeded before (kdtModuleInit o (Ledger.start before)) ↔
      o.chrdev.RefusedCleanly ∨
      (¬o.output.ok ∨ o.input.request = 0 ∧ o.input.direction ≠ 0) ∧ o.chrdev.cdev ≠ 0 ∧
        o.chrdev.Unwinds ∨
      o.output.ok ∧ o.input.ok ∧ o.irq = 0 ∧ o.thread = .valid ∧ o.chrdev.Complete :=
  ⟨fun o => kModuleInit_allOrNothing_iff o before, fun o => toyModuleInit_allOrNothing_iff o before,
    fun o => kdtModuleInit_allOrNothing_iff o before⟩

/-- All calls of the beginning succeed. -/
def chrdevOk : ChrdevCalls := ⟨0, .valid, .valid, 0, true, true⟩

/-- The first pin of the LEDs is in use. -/
def ledPinInUse : ToyCalls := ⟨chrdevOk, ⟨-16, 0⟩, ⟨0, 0⟩, ⟨0, 0⟩, ⟨0, 0⟩, ⟨0, 0⟩⟩

/-- The pin of the button is in use. -/
def buttonPinInUse : KdtCalls := ⟨chrdevOk, ⟨0, 0⟩, ⟨-16, 0⟩, .valid, 0⟩

/-- `cdev_add` fails unnoticed, and there is no work queue for the sensor. -/
def noWorkqueue : KCalls :=
  ⟨{ chrdevOk with cdev := -12 }, true, true, true, true, 0, 0, 0, 0, true, 0, false, true⟩

/-- A pin of the LEDs in use leaves the character device registered, a pin of the button that
another driver holds is taken from that driver, and without a work queue the memory of
`toy_kobj` is never freed. -/
theorem module_init_not_allOrNothing :
    ¬AllOrNothing toyNeeded 0 (toyModuleInit ledPinInUse (Ledger.start 0)) ∧
    (toyModuleInit ledPinInUse (Ledger.start 0)).2.held = {.cdev} ∧
    ¬AllOrNothing kdtNeeded {.gpio ButtonInterrupt.inputPin} (kdtModuleInit buttonPinInUse
      (Ledger.start {.gpio ButtonInterrupt.inputPin})) ∧
    (kdtModuleInit buttonPinInUse
      (Ledger.start {.gpio ButtonInterrupt.inputPin})).2.held = {.cdev} ∧
    ¬AllOrNothing kNeeded 0 (kModuleInit noWorkqueue (Ledger.start 0)) ∧
    (kModuleInit noWorkqueue (Ledger.start 0)).2.held = {.kobjectMemory} := by
  refine ⟨fun h => ?_, by decide, fun h => ?_, by decide, fun h => ?_, by decide⟩
  all_goals exact absurd (h.nothing (by decide)).1 (by decide)

end ModuleInit
end LinuxLab
