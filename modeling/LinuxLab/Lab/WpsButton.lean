import LinuxLab.Drivers.ButtonInterrupt
import LinuxLab.Lib.Exec

/-!
# From the button to WPS

A press of the button goes through three parts.  The interrupt handler of
`button_interrupt.c` sends `SIGUSR1` to the task that has read the device, the handler of
`system_server` sets `g_wps_requested`, and `button_watcher_thread` looks at the flag every
tenth of a second, clears it and forks `hostapd_cli`.

`SIGUSR1` is not queued: while one is pending, further ones are lost.  A press is not lost
by that, because one fork after it is all it asks for.  Nor is it lost when its signal comes
between the thread's test of the flag and the clearing: the fork is still to come.

`system_server` installs the handler before it reads the device.  But the driver never
forgets a task.  If it has the task of the process from a read before the process began, the
signal can come before the handler and meet its default action, which ends the process.  The
driver's first state is therefore any state.

The message queues and the other threads of `system_server` are left out.
-/

namespace LinuxLab
namespace WpsButton

open Lib ButtonInterrupt

/-- Where `system_server` is in its start-up, and then its watcher thread. -/
inductive Pc where
  | sigaction
  | register
  | testing
  | clearing
  | forking
  | sleeping
deriving DecidableEq, Repr

structure State where
  driver : ButtonDriver
  -- `system_server` itself, as the driver knows it.
  self : Task
  handlerInstalled : Bool
  pending : Bool
  wpsRequested : Bool
  pc : Pc
  killed : Bool

inductive Action where
  | press
  | deliver
  | sigaction
  /-- The read of the device, unless it cannot be opened. -/
  | register (opened : Bool)
  /-- Another process reads the device and gets the signals from then on. -/
  | otherReads (task : Task)
  | test
  | clear
  | fork (ok : Bool)
  | wake
deriving DecidableEq, Repr

def start (self : Task) (driver : ButtonDriver) : State :=
  ⟨driver, self, false, false, false, .sigaction, false⟩

/-- The read of four bytes into `tmp`, of which the driver copies one. -/
def readTmp (task : Task) (driver : ButtonDriver) : ButtonDriver :=
  (kdtDriverRead task 4 (.full (by decide : 1 ≤ 4)) driver).state

/-- `kdt_gpio_irq_signal_handler`, and the signal if it is for this process. -/
def press (s : State) : State :=
  { s with
    driver := (kdtGpioIrqSignalHandler s.driver).2
    pending := s.pending || (kdtGpioIrqSignalHandler s.driver).1 == some s.self }

/-- The pending signal meets `wps_signal_handler`, or the default action. -/
def deliver (s : State) : State :=
  if s.handlerInstalled then { s with pending := false, wpsRequested := true }
  else { s with pending := false, killed := true }

def step (s : State) (a : Action) : Option State :=
  if s.killed then none
  else
    match a with
    | .press => some (press s)
    | .deliver => if s.pending then some (deliver s) else none
    | .sigaction =>
      if s.pc = .sigaction then some { s with handlerInstalled := true, pc := .register } else none
    | .register opened =>
      if s.pc = .register then
        let driver := if opened then readTmp s.self s.driver else s.driver
        some { s with driver := driver, pc := .testing }
      else none
    | .otherReads task =>
      if task ≠ s.self then some { s with driver := readTmp task s.driver } else none
    | .test =>
      if s.pc = .testing then
        some { s with pc := if s.wpsRequested then .clearing else .sleeping }
      else none
    | .clear =>
      if s.pc = .clearing then some { s with wpsRequested := false, pc := .forking } else none
    | .fork _ => if s.pc = .forking then some { s with pc := .sleeping } else none
    | .wake => if s.pc = .sleeping then some { s with pc := .testing } else none

/-! ## What a step can do -/

theorem userSpaceTask_readTmp (task : Task) (driver : ButtonDriver) :
    (readTmp task driver).userSpaceTask = some task := by
  rw [readTmp, userSpaceTask_read, if_pos ⟨by decide, by decide⟩]

/-- What holds in every state, when `stale` says that the driver had the task of the process
before the process began.  Without that, no signal comes until the handler is there. -/
structure Inv (stale : Prop) (s : State) : Prop where
  installed : s.handlerInstalled = true ↔ s.pc ≠ .sigaction
  requested : s.pc = .clearing → s.wpsRequested = true
  unknown : ¬stale → s.pc = .sigaction →
    s.driver.userSpaceTask ≠ some s.self ∧ s.pending = false
  killed : s.killed = true → stale

/-- The request is on its way to the next fork. -/
def Demand (s : State) : Prop :=
  s.pending = true ∨ s.wpsRequested = true ∨ s.pc = .forking

/-- How many forks are still on their way. -/
def due (s : State) : Nat :=
  s.pending.toNat + s.wpsRequested.toNat + (decide (s.pc = .forking)).toNat

theorem start_inv (self : Task) (driver : ButtonDriver) :
    Inv (driver.userSpaceTask = some self) (start self driver) where
  installed := iff_of_false Bool.false_ne_true (not_not.mpr rfl)
  requested := fun hpc => Pc.noConfusion hpc
  unknown := fun hnew _ => ⟨hnew, rfl⟩
  killed := fun hkilled => absurd hkilled Bool.false_ne_true

/-- What a step of a living process does. -/
inductive Taken (s : State) : Action → State → Prop where
  | press : Taken s .press (press s)
  | deliver (hpending : s.pending = true) : Taken s .deliver (deliver s)
  | sigaction (hpc : s.pc = .sigaction) :
      Taken s .sigaction { s with handlerInstalled := true, pc := .register }
  | register (opened : Bool) (hpc : s.pc = .register) :
      Taken s (.register opened) { s with
        driver := if opened then readTmp s.self s.driver else s.driver
        pc := .testing }
  | otherReads (task : Task) (htask : task ≠ s.self) :
      Taken s (.otherReads task) { s with driver := readTmp task s.driver }
  | found (hpc : s.pc = .testing) (hrequested : s.wpsRequested = true) :
      Taken s .test { s with pc := .clearing }
  | idle (hpc : s.pc = .testing) (hrequested : s.wpsRequested = false) :
      Taken s .test { s with pc := .sleeping }
  | clear (hpc : s.pc = .clearing) :
      Taken s .clear { s with wpsRequested := false, pc := .forking }
  | fork (ok : Bool) (hpc : s.pc = .forking) : Taken s (.fork ok) { s with pc := .sleeping }
  | wake (hpc : s.pc = .sleeping) : Taken s .wake { s with pc := .testing }

/-- A process that was ended takes no step. -/
theorem alive_of_step {s t : State} {a : Action} (h : step s a = some t) : s.killed = false := by
  cases hkilled : s.killed with
  | false => rfl
  | true =>
    unfold step at h
    rw [if_pos hkilled] at h
    exact absurd h.symm (Option.some_ne_none t)

theorem taken_of_step {s t : State} {a : Action} (h : step s a = some t) : Taken s a t := by
  have hnot : ¬s.killed = true := by
    rw [alive_of_step h]
    exact Bool.false_ne_true
  unfold step at h
  rw [if_neg hnot] at h
  cases a with
  | press =>
    obtain rfl := Option.some.inj h
    exact .press
  | deliver =>
    obtain ⟨hpending, rfl⟩ := Option.ite_some_none_eq_some.mp h
    exact .deliver hpending
  | sigaction =>
    obtain ⟨hpc, rfl⟩ := Option.ite_some_none_eq_some.mp h
    exact .sigaction hpc
  | register opened =>
    obtain ⟨hpc, rfl⟩ := Option.ite_some_none_eq_some.mp h
    exact .register opened hpc
  | otherReads task =>
    obtain ⟨htask, rfl⟩ := Option.ite_some_none_eq_some.mp h
    exact .otherReads task htask
  | test =>
    obtain ⟨hpc, rfl⟩ := Option.ite_some_none_eq_some.mp h
    by_cases hrequested : s.wpsRequested = true
    · rw [if_pos hrequested]
      exact .found hpc hrequested
    · rw [if_neg hrequested]
      exact .idle hpc (Bool.eq_false_iff.mpr hrequested)
  | clear =>
    obtain ⟨hpc, rfl⟩ := Option.ite_some_none_eq_some.mp h
    exact .clear hpc
  | fork ok =>
    obtain ⟨hpc, rfl⟩ := Option.ite_some_none_eq_some.mp h
    exact .fork ok hpc
  | wake =>
    obtain ⟨hpc, rfl⟩ := Option.ite_some_none_eq_some.mp h
    exact .wake hpc

theorem deliver_of_installed {s : State} (h : s.handlerInstalled = true) :
    deliver s = { s with pending := false, wpsRequested := true } := if_pos h

theorem deliver_of_not_installed {s : State} (h : ¬s.handlerInstalled = true) :
    deliver s = { s with pending := false, killed := true } := if_neg h

section Steps

variable {stale : Prop} {s t : State} {a : Action}

/-- The thread goes to a place behind the start-up. -/
theorem Inv.goto (h : Inv stale s) (hpc : s.pc ≠ .sigaction) (hpc' : t.pc ≠ .sigaction)
    (hinstalled : t.handlerInstalled = s.handlerInstalled)
    (hrequested : t.pc = .clearing → t.wpsRequested = true) (hkilled : t.killed = s.killed) :
    Inv stale t where
  installed := by
    rw [hinstalled, h.installed]
    exact iff_of_true hpc hpc'
  requested := hrequested
  unknown := fun _ heq => absurd heq hpc'
  killed := fun htrue => h.killed (hkilled ▸ htrue)

theorem step_inv (h : Inv stale s) (hstep : step s a = some t) : Inv stale t := by
  cases taken_of_step hstep with
  | press =>
    refine ⟨h.installed, h.requested, fun hnew hpc => ?_, h.killed⟩
    obtain ⟨htask, hpending⟩ := h.unknown hnew hpc
    refine ⟨htask, ?_⟩
    show (s.pending || s.driver.userSpaceTask == some s.self) = false
    rw [hpending, Bool.false_or, beq_eq_false_iff_ne]
    exact htask
  | deliver hpending =>
    by_cases hinstalled : s.handlerInstalled = true
    · rw [deliver_of_installed hinstalled]
      exact ⟨h.installed, fun _ => rfl, fun hnew hpc => ⟨(h.unknown hnew hpc).1, rfl⟩, h.killed⟩
    · rw [deliver_of_not_installed hinstalled]
      have hpc : s.pc = .sigaction := not_not.mp (fun hne => hinstalled (h.installed.mpr hne))
      refine ⟨h.installed, h.requested, fun hnew hpc => ⟨(h.unknown hnew hpc).1, rfl⟩, fun _ => ?_⟩
      -- A signal before the handler means that the driver knew the process.
      by_contra hnew
      rw [(h.unknown hnew hpc).2] at hpending
      exact Bool.false_ne_true hpending
  | sigaction hpc =>
    exact ⟨iff_of_true rfl Pc.noConfusion, fun heq => Pc.noConfusion heq,
      fun _ heq => Pc.noConfusion heq, h.killed⟩
  | register opened hpc =>
    exact h.goto (hpc ▸ Pc.noConfusion) Pc.noConfusion rfl (fun heq => Pc.noConfusion heq) rfl
  | otherReads task htask =>
    refine ⟨h.installed, h.requested, fun hnew hpc => ⟨?_, (h.unknown hnew hpc).2⟩, h.killed⟩
    rw [userSpaceTask_readTmp]
    exact fun heq => htask (Option.some.inj heq)
  | found hpc hrequested =>
    exact h.goto (hpc ▸ Pc.noConfusion) Pc.noConfusion rfl (fun _ => hrequested) rfl
  | idle hpc hrequested =>
    exact h.goto (hpc ▸ Pc.noConfusion) Pc.noConfusion rfl (fun heq => Pc.noConfusion heq) rfl
  | clear hpc =>
    exact h.goto (hpc ▸ Pc.noConfusion) Pc.noConfusion rfl (fun heq => Pc.noConfusion heq) rfl
  | fork ok hpc =>
    exact h.goto (hpc ▸ Pc.noConfusion) Pc.noConfusion rfl (fun heq => Pc.noConfusion heq) rfl
  | wake hpc =>
    exact h.goto (hpc ▸ Pc.noConfusion) Pc.noConfusion rfl (fun heq => Pc.noConfusion heq) rfl

end Steps

/-! ## Whole runs -/

def isPress : Action → Bool
  | .press => true
  | _ => false

def isFork : Action → Bool
  | .fork _ => true
  | _ => false

/-- A press brings at most one fork on its way, and a fork uses one up. -/
theorem step_due {stale : Prop} {s t : State} {a : Action} (h : Inv stale s)
    (hstep : step s a = some t) : due t + [a].countP isFork ≤ due s + [a].countP isPress := by
  cases taken_of_step hstep with
  | press =>
    have hone : (press s).pending.toNat ≤ 1 := Bool.toNat_le _
    show (press s).pending.toNat + s.wpsRequested.toNat + (decide (s.pc = .forking)).toNat + 0 ≤
      s.pending.toNat + s.wpsRequested.toNat + (decide (s.pc = .forking)).toNat + 1
    omega
  | deliver hpending =>
    have hpaid : (deliver s).wpsRequested.toNat ≤ s.wpsRequested.toNat + 1 := by
      have hone : (deliver s).wpsRequested.toNat ≤ 1 := Bool.toNat_le _
      omega
    have hnone : (deliver s).pending = false ∧ (deliver s).pc = s.pc := by
      unfold deliver
      split <;> exact ⟨rfl, rfl⟩
    rw [due, due, hnone.1, hnone.2, hpending]
    show 0 + _ + _ + 0 ≤ 1 + _ + _ + 0
    omega
  | sigaction hpc => simp [due, hpc, isFork, isPress]
  | register opened hpc => simp [due, hpc, isFork, isPress]
  | otherReads task htask => simp [due, isFork, isPress]
  | found hpc hrequested => simp [due, hpc, isFork, isPress]
  | idle hpc hrequested => simp [due, hpc, isFork, isPress]
  | clear hpc => simp [due, hpc, h.requested hpc, isFork, isPress]
  | fork ok hpc => simp [due, hpc, isFork, isPress]
  | wake hpc => simp [due, hpc, isFork, isPress]

/-- Outside a fork the request is with the signal or with the flag. -/
theorem Demand.waiting {s : State} (h : Demand s) {pc : Pc} (hpc : s.pc = pc)
    (hne : pc ≠ .forking) : s.pending = true ∨ s.wpsRequested = true :=
  h.imp_right (fun hrest => hrest.resolve_right (hpc ▸ hne))

/-- Without a fork a request stays on its way, unless the process is ended. -/
theorem step_demand {s t : State} {a : Action} (ha : isFork a = false)
    (hdemand : Demand s ∨ s.killed = true) (hstep : step s a = some t) :
    Demand t ∨ t.killed = true := by
  have hdemand : Demand s := hdemand.resolve_right (fun hkilled =>
    Bool.false_ne_true ((alive_of_step hstep).symm.trans hkilled))
  cases taken_of_step hstep with
  | press =>
    refine .inl (hdemand.imp_left (fun hpending => ?_))
    show (s.pending || _) = true
    rw [hpending, Bool.true_or]
  | deliver hpending =>
    by_cases hinstalled : s.handlerInstalled = true
    · rw [deliver_of_installed hinstalled]
      exact .inl (.inr (.inl rfl))
    · rw [deliver_of_not_installed hinstalled]
      exact .inr rfl
  | sigaction hpc => exact .inl ((hdemand.waiting hpc Pc.noConfusion).imp_right .inl)
  | register opened hpc => exact .inl ((hdemand.waiting hpc Pc.noConfusion).imp_right .inl)
  | otherReads task htask => exact .inl hdemand
  | found hpc hrequested => exact .inl (.inr (.inl hrequested))
  | idle hpc hrequested =>
    rcases hdemand.waiting hpc Pc.noConfusion with hpending | hflag
    · exact .inl (.inl hpending)
    · rw [hrequested] at hflag
      exact absurd hflag Bool.false_ne_true
  | clear hpc => exact .inl (.inr (.inr rfl))
  | fork ok hpc => exact absurd ha.symm Bool.false_ne_true
  | wake hpc => exact .inl ((hdemand.waiting hpc Pc.noConfusion).imp_right .inl)

/-- What a run has done: whether it is past `sigaction`, how it ended the process, and how many
forks its presses can still bring. -/
structure Recorded (front : List Action) (s : State) : Prop where
  waiting : s.pc = .sigaction ↔ .sigaction ∉ front
  ended : s.killed = true → ∃ before, front = before ++ [.deliver] ∧ .sigaction ∉ before
  forks : due s + front.countP isFork ≤ front.countP isPress

section Runs

variable {self : Task} {driver : ButtonDriver} {acts front back : List Action} {s t mid : State}
  {a : Action}

/-- A step behind the start-up, or one that stays in its place, leaves the record of
`sigaction` alone. -/
theorem waiting_step (h : Recorded front s) (ha : a ≠ .sigaction)
    (hpc : t.pc = .sigaction ↔ s.pc = .sigaction) :
    t.pc = .sigaction ↔ .sigaction ∉ front ++ [a] := by
  rw [hpc, h.waiting, List.mem_append, List.mem_singleton, or_iff_left ha.symm]

theorem recorded_step {stale : Prop} (hI : Inv stale s) (h : Recorded front s)
    (hstep : step s a = some t) : Recorded (front ++ [a]) t := by
  have halive := alive_of_step hstep
  have hforks : due t + (front ++ [a]).countP isFork ≤ (front ++ [a]).countP isPress := by
    have hdue := step_due hI hstep
    have hle := h.forks
    rw [List.countP_append, List.countP_append]
    omega
  have hended : t.killed = s.killed → t.killed = true →
      ∃ before, front ++ [a] = before ++ [.deliver] ∧ .sigaction ∉ before := by
    intro hsame hkilled
    exact absurd (halive.symm.trans (hsame.symm.trans hkilled)) Bool.false_ne_true
  have hmoved : ∀ {pc : Pc}, s.pc = pc → pc ≠ .sigaction → t.pc ≠ .sigaction →
      (t.pc = .sigaction ↔ s.pc = .sigaction) :=
    fun hpc hne hne' => iff_of_false hne' (hpc ▸ hne)
  cases taken_of_step hstep with
  | press => exact ⟨waiting_step h Action.noConfusion Iff.rfl, hended rfl, hforks⟩
  | deliver hpending =>
    have hpc : (deliver s).pc = s.pc := by
      unfold deliver
      split <;> rfl
    refine ⟨waiting_step h Action.noConfusion (by rw [hpc]), fun hkilled => ?_, hforks⟩
    refine ⟨front, rfl, h.waiting.mp (not_not.mp (fun hne => ?_))⟩
    rw [deliver_of_installed (hI.installed.mpr hne)] at hkilled
    exact Bool.false_ne_true (halive.symm.trans hkilled)
  | sigaction hpc =>
    refine ⟨iff_of_false Pc.noConfusion (fun hnot => hnot ?_), hended rfl, hforks⟩
    exact List.mem_append_right front List.mem_cons_self
  | register opened hpc =>
    exact ⟨waiting_step h Action.noConfusion (hmoved hpc Pc.noConfusion Pc.noConfusion),
      hended rfl, hforks⟩
  | otherReads task htask =>
    exact ⟨waiting_step h Action.noConfusion Iff.rfl, hended rfl, hforks⟩
  | found hpc hrequested =>
    exact ⟨waiting_step h Action.noConfusion (hmoved hpc Pc.noConfusion Pc.noConfusion),
      hended rfl, hforks⟩
  | idle hpc hrequested =>
    exact ⟨waiting_step h Action.noConfusion (hmoved hpc Pc.noConfusion Pc.noConfusion),
      hended rfl, hforks⟩
  | clear hpc =>
    exact ⟨waiting_step h Action.noConfusion (hmoved hpc Pc.noConfusion Pc.noConfusion),
      hended rfl, hforks⟩
  | fork ok hpc =>
    exact ⟨waiting_step h Action.noConfusion (hmoved hpc Pc.noConfusion Pc.noConfusion),
      hended rfl, hforks⟩
  | wake hpc =>
    exact ⟨waiting_step h Action.noConfusion (hmoved hpc Pc.noConfusion Pc.noConfusion),
      hended rfl, hforks⟩

theorem recorded_run (hrun : exec step (start self driver) acts = some s) :
    Inv (driver.userSpaceTask = some self) s ∧ Recorded acts s := by
  have hstart : Recorded [] (start self driver) :=
    ⟨iff_of_true rfl List.not_mem_nil, fun h => absurd h Bool.false_ne_true, Nat.le_refl 0⟩
  exact exec_history (I := fun front s => Inv (driver.userSpaceTask = some self) s ∧
      Recorded front s)
    (fun _ _ _ _ (_ : True) hI hstep => ⟨step_inv hI.1 hstep, recorded_step hI.1 hI.2 hstep⟩)
    ⟨start_inv self driver, hstart⟩ (fun _ _ => trivial) hrun

/-- In every run, whatever the driver was before, the signal of the button ends the process
exactly when it is delivered before the handler is there.  That takes a driver that had the
task of the process from before.  There are at most as many forks as presses. -/
theorem forks_le_presses (hrun : exec step (start self driver) acts = some s) :
    (s.killed = true ↔ ∃ front, acts = front ++ [.deliver] ∧ .sigaction ∉ front) ∧
      (s.killed = true → driver.userSpaceTask = some self) ∧
      acts.countP isFork ≤ acts.countP isPress := by
  obtain ⟨hI, hrecorded⟩ := recorded_run hrun
  refine ⟨⟨hrecorded.ended, ?_⟩, hI.killed, Nat.le_trans (Nat.le_add_left _ _) hrecorded.forks⟩
  rintro ⟨front, rfl, hnone⟩
  obtain ⟨mid, hmid, hlast⟩ := exists_exec_of_append hrun
  obtain ⟨t, hstep, hend⟩ := exists_step_of_exec hlast
  obtain rfl := Option.some.inj hend
  obtain ⟨hmidI, hmidRecorded⟩ := recorded_run hmid
  have hpc : mid.pc = .sigaction := hmidRecorded.waiting.mpr hnone
  have hinstalled : ¬mid.handlerInstalled = true := fun h => hmidI.installed.mp h hpc
  cases taken_of_step hstep with
  | deliver hpending => rw [deliver_of_not_installed hinstalled]

/-- A press that the driver sends on to the process is followed by a fork, in every run that
leaves the process alive and ends with nothing on its way, also when its signal was merged
with an earlier one or came between the test and the clearing of the flag. -/
theorem press_followed_by_fork (hregistered : mid.driver.userSpaceTask = some mid.self)
    (hback : exec step mid (.press :: back) = some s) (halive : s.killed = false)
    (hquiet : ¬Demand s) : ∃ ok, Action.fork ok ∈ back := by
  obtain ⟨t, ht, hrest⟩ := exists_step_of_exec hback
  have hpressed : Demand t ∨ t.killed = true := by
    cases taken_of_step ht with
    | press =>
      refine .inl (.inl ?_)
      show (mid.pending || mid.driver.userSpaceTask == some mid.self) = true
      rw [hregistered, beq_self_eq_true, Bool.or_true]
  by_contra hnone
  have hnoFork : ∀ a ∈ back, isFork a = false := by
    intro a ha
    cases a with
    | fork ok => exact absurd ⟨ok, ha⟩ hnone
    | _ => rfl
  have halong : Along step (fun _ a => isFork a = false) t back :=
    along_of_forall (fun a ha _ => hnoFork a ha) t
  rcases exec_invariant_along (fun s a t => step_demand) hpressed halong hrest with h | h
  · exact hquiet h
  · exact Bool.false_ne_true (halive.symm.trans h)

end Runs

/-- The driver as it is loaded. -/
def loaded : ButtonDriver := ⟨false, 0, none, []⟩

/-- A driver that has the task of a process that is not there yet. -/
def staleDriver : ButtonDriver := { loaded with userSpaceTask := some 7 }

/-- The process starts, a first press is seen by the thread, and before the flag is cleared
there is a second one. -/
def pressTwice : List Action :=
  [.press, .sigaction, .register true, .press, .deliver, .test, .press, .deliver, .clear,
    .fork true]

theorem forks_le_presses_pressTwice :
    (∃ s, exec step (start 7 loaded) pressTwice = some s ∧ s.killed = false ∧
      pressTwice.countP isFork ≤ pressTwice.countP isPress) ∧
    ∃ s, exec step (start 7 staleDriver) [.press, .deliver] = some s ∧ s.killed = true := by
  constructor
  · obtain ⟨s, hrun⟩ : ∃ s, exec step (start 7 loaded) pressTwice = some s := ⟨_, rfl⟩
    obtain ⟨-, hstale, hforks⟩ := forks_le_presses hrun
    refine ⟨s, hrun, ?_, hforks⟩
    rw [← Bool.not_eq_true]
    exact fun hkilled => Option.some_ne_none 7 (hstale hkilled).symm
  · obtain ⟨s, hrun⟩ : ∃ s, exec step (start 7 staleDriver) [.press, .deliver] = some s :=
      ⟨_, rfl⟩
    refine ⟨s, hrun, (forks_le_presses hrun).1.mpr ⟨[.press], rfl, ?_⟩⟩
    decide

/-- The thread has seen the first press and has not cleared the flag. -/
def betweenTestAndClear : State :=
  ⟨⟨false, 1, some 7, []⟩, 7, true, false, true, .clearing, false⟩

theorem press_followed_by_fork_betweenTestAndClear :
    exec step (start 7 loaded) (pressTwice.take 6) = some betweenTestAndClear ∧
      ∃ ok, Action.fork ok ∈ [Action.deliver, .clear, .fork true] := by
  have hregistered : betweenTestAndClear.driver.userSpaceTask =
      some betweenTestAndClear.self := rfl
  have hback : exec step betweenTestAndClear [.press, .deliver, .clear, .fork true] =
      some ⟨⟨false, 1, some 7, []⟩, 7, true, false, false, .sleeping, false⟩ := rfl
  refine ⟨rfl, press_followed_by_fork hregistered hback rfl ?_⟩
  rintro (hpending | hflag | hfork)
  · exact Bool.false_ne_true hpending
  · exact Bool.false_ne_true hflag
  · exact Pc.noConfusion hfork

end WpsButton
end LinuxLab
