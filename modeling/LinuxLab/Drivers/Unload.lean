import LinuxLab.Lib.Exec

/-!
# Unloading sensor_spi

The steps of `k_module_exit`, firings of `sensor_timer_callback` and executions of
`workqueue_fn`, in any order.  A started timer may fire until `hrtimer_cancel` returns, and
`destroy_workqueue` returns when no work is queued or running.  The workqueue goes before
the timer, so between the two a firing queues work on a workqueue that is gone.
-/

namespace LinuxLab
namespace Unload

open Lib

/-- The next call of `k_module_exit`. -/
inductive ExitPc where
  | destroyWorkqueue
  | hrtimerCancel
  | kobjectPut
  | spiUnregisterDevice
  | returned
deriving DecidableEq, Repr

/-- What is there of the driver, the state of its work item, and whether work was ever
queued on the workqueue after it had been destroyed. -/
structure State where
  pc : ExitPc
  workqueue : Bool
  timer : Bool
  toyKobj : Bool
  bmp280Dev : Bool
  pending : Bool
  running : Bool
  queuedOnDestroyed : Bool
deriving DecidableEq, Repr

inductive Action where
  | fire
  | workStart
  | workEnd
  | exit
deriving DecidableEq, Repr

/-- The driver after `k_module_init`. -/
def loaded : State := ⟨.destroyWorkqueue, true, true, true, true, false, false, false⟩

/-- The next call of `k_module_exit`, when it returns. -/
def exitStep (s : State) : Option State :=
  match s.pc with
  | .destroyWorkqueue =>
    if s.pending = false ∧ s.running = false then
      some { s with pc := .hrtimerCancel, workqueue := false }
    else none
  | .hrtimerCancel => some { s with pc := .kobjectPut, timer := false }
  | .kobjectPut => some { s with pc := .spiUnregisterDevice, toyKobj := false }
  | .spiUnregisterDevice => some { s with pc := .returned, bmp280Dev := false }
  | .returned => none

def step (s : State) : Action → Option State
  | .fire =>
    if s.timer = true then
      some { s with pending := true, queuedOnDestroyed := s.queuedOnDestroyed || !s.workqueue }
    else none
  | .workStart =>
    if s.pending = true ∧ s.running = false then some { s with pending := false, running := true }
    else none
  | .workEnd => if s.running = true then some { s with running := false } else none
  | .exit => exitStep s

/-- No work was queued on a destroyed workqueue, and the work item runs only while the
device and the kobject it uses are there. -/
def Safe (s : State) : Prop :=
  s.queuedOnDestroyed = false ∧ (s.running = true → s.bmp280Dev = true ∧ s.toyKobj = true)

/-- The timer does not fire between the returns of `destroy_workqueue` and
`hrtimer_cancel`. -/
def OutsideWindow (s : State) (a : Action) : Prop := a = .fire → s.pc ≠ .hrtimerCancel

/-- What `k_module_exit` has taken down at each of its calls.  Until work is queued on the
destroyed workqueue there is none once it is destroyed. -/
structure Invariant (s : State) : Prop where
  workqueue : s.workqueue = true ↔ s.pc = .destroyWorkqueue
  timer : s.timer = true ↔ s.pc = .destroyWorkqueue ∨ s.pc = .hrtimerCancel
  toyKobj : s.pc = .destroyWorkqueue → s.toyKobj = true
  bmp280Dev : s.pc = .destroyWorkqueue → s.bmp280Dev = true
  idle : s.queuedOnDestroyed = false → s.pc ≠ .destroyWorkqueue →
    s.pending = false ∧ s.running = false

theorem invariant_loaded : Invariant loaded where
  workqueue := by decide
  timer := by decide
  toyKobj := fun _ => rfl
  bmp280Dev := fun _ => rfl
  idle := fun _ h => absurd rfl h

theorem exitStep_cases {s t : State} (h : exitStep s = some t) :
    (s.pc = .destroyWorkqueue ∧ s.pending = false ∧ s.running = false ∧
      t = { s with pc := .hrtimerCancel, workqueue := false }) ∨
    (s.pc = .hrtimerCancel ∧ t = { s with pc := .kobjectPut, timer := false }) ∨
    (s.pc = .kobjectPut ∧ t = { s with pc := .spiUnregisterDevice, toyKobj := false }) ∨
    (s.pc = .spiUnregisterDevice ∧ t = { s with pc := .returned, bmp280Dev := false }) := by
  unfold exitStep at h
  split at h
  · next hpc =>
    obtain ⟨⟨hpending, hrunning⟩, rfl⟩ := Option.ite_some_none_eq_some.mp h
    exact .inl ⟨hpc, hpending, hrunning, rfl⟩
  · next hpc =>
    cases h
    exact .inr (.inl ⟨hpc, rfl⟩)
  · next hpc =>
    cases h
    exact .inr (.inr (.inl ⟨hpc, rfl⟩))
  · next hpc =>
    cases h
    exact .inr (.inr (.inr ⟨hpc, rfl⟩))
  · cases h

theorem invariant_exitStep {s t : State} (hI : Invariant s) (h : exitStep s = some t) :
    Invariant t := by
  rcases exitStep_cases h with ⟨hpc, hpending, hrunning, rfl⟩ | ⟨hpc, rfl⟩ | ⟨hpc, rfl⟩ | ⟨hpc, rfl⟩
  · exact ⟨by simp, by simp [hI.timer, hpc], nofun, nofun, fun _ _ => ⟨hpending, hrunning⟩⟩
  · have hidle := fun hq => hI.idle hq (by simp [hpc])
    exact ⟨by simp [hI.workqueue, hpc], by simp, nofun, nofun, fun hq _ => hidle hq⟩
  · have hidle := fun hq => hI.idle hq (by simp [hpc])
    exact ⟨by simp [hI.workqueue, hpc], by simp [hI.timer, hpc], nofun, nofun,
      fun hq _ => hidle hq⟩
  · have hidle := fun hq => hI.idle hq (by simp [hpc])
    exact ⟨by simp [hI.workqueue, hpc], by simp [hI.timer, hpc], nofun, nofun,
      fun hq _ => hidle hq⟩

/-- Work is queued, starts and ends without a step of `k_module_exit`. -/
theorem invariant_step {s t : State} {a : Action} (hI : Invariant s) (h : step s a = some t) :
    Invariant t := by
  cases a with
  | fire =>
    obtain ⟨-, rfl⟩ := Option.ite_some_none_eq_some.mp h
    refine ⟨hI.workqueue, hI.timer, hI.toyKobj, hI.bmp280Dev, fun hq hpc => ?_⟩
    have hgone : s.workqueue = false := Bool.eq_false_iff.mpr (fun h => hpc (hI.workqueue.mp h))
    have hqueued : (s.queuedOnDestroyed || !s.workqueue) = true := by
      rw [hgone, Bool.not_false, Bool.or_true]
    exact absurd hq (by simp [hqueued])
  | workStart =>
    obtain ⟨⟨hpending, -⟩, rfl⟩ := Option.ite_some_none_eq_some.mp h
    refine ⟨hI.workqueue, hI.timer, hI.toyKobj, hI.bmp280Dev, fun hq hpc => ?_⟩
    exact absurd hpending (by simp [(hI.idle hq hpc).1])
  | workEnd =>
    obtain ⟨-, rfl⟩ := Option.ite_some_none_eq_some.mp h
    exact ⟨hI.workqueue, hI.timer, hI.toyKobj, hI.bmp280Dev,
      fun hq hpc => ⟨(hI.idle hq hpc).1, rfl⟩⟩
  | exit => exact invariant_exitStep hI h

theorem safe_exitStep {s t : State} (hI : Invariant s) (hs : Safe s) (h : exitStep s = some t) :
    Safe t := by
  rcases exitStep_cases h with ⟨-, -, -, rfl⟩ | ⟨-, rfl⟩ | ⟨hpc, rfl⟩ | ⟨hpc, rfl⟩
  · exact hs
  · exact hs
  · have hidle := (hI.idle hs.1 (by simp [hpc])).2
    exact ⟨hs.1, fun hrunning => absurd hrunning (by simp [hidle])⟩
  · have hidle := (hI.idle hs.1 (by simp [hpc])).2
    exact ⟨hs.1, fun hrunning => absurd hrunning (by simp [hidle])⟩

theorem safe_step_iff {s t : State} {a : Action} (hI : Invariant s) (hs : Safe s)
    (h : step s a = some t) : Safe t ↔ OutsideWindow s a := by
  cases a with
  | fire =>
    obtain ⟨htimer, rfl⟩ := Option.ite_some_none_eq_some.mp h
    have hpc := hI.timer.mp htimer
    constructor
    · rintro ⟨hq, -⟩ -
      have hworkqueue : s.workqueue = true := by
        have : (s.queuedOnDestroyed || !s.workqueue) = false := hq
        simpa [hs.1] using this
      rw [hI.workqueue.mp hworkqueue]
      decide
    · intro hwindow
      have hworkqueue := hI.workqueue.mpr (hpc.resolve_right (hwindow rfl))
      refine ⟨?_, hs.2⟩
      show (s.queuedOnDestroyed || !s.workqueue) = false
      rw [hs.1, hworkqueue]
      rfl
  | workStart =>
    obtain ⟨⟨hpending, -⟩, rfl⟩ := Option.ite_some_none_eq_some.mp h
    have hpc : s.pc = .destroyWorkqueue := by
      by_contra hpc
      exact absurd hpending (by simp [(hI.idle hs.1 hpc).1])
    exact iff_of_true ⟨hs.1, fun _ => ⟨hI.bmp280Dev hpc, hI.toyKobj hpc⟩⟩ nofun
  | workEnd =>
    obtain ⟨-, rfl⟩ := Option.ite_some_none_eq_some.mp h
    exact iff_of_true ⟨hs.1, nofun⟩ nofun
  | exit => exact iff_of_true (safe_exitStep hI hs h) nofun

/-- Unloading is safe in every state of a run exactly when the timer does not fire in the
window. -/
theorem unload_safe_iff {actions : List Action} {s : State}
    (hrun : exec step loaded actions = some s) :
    Everywhere step Safe loaded actions ↔ Along step OutsideWindow loaded actions :=
  everywhere_iff_along (fun _ _ _ _ hI h => invariant_step hI h)
    (fun _ _ _ _ hI hs h => safe_step_iff hI hs h) invariant_loaded ⟨rfl, nofun⟩ hrun

/-- A tick that is worked off before the driver is unloaded. -/
theorem unload_safe_after_tick :
    Everywhere step Safe loaded [.fire, .workStart, .workEnd, .exit, .exit, .exit, .exit] := by
  have hrun : exec step loaded [.fire, .workStart, .workEnd, .exit, .exit, .exit, .exit] =
      some ⟨.returned, false, false, false, false, false, false, false⟩ := rfl
  have htick : OutsideWindow loaded .fire := fun _ => by decide
  exact (unload_safe_iff hrun).mpr (along_cons rfl htick (along_cons rfl nofun (along_cons rfl nofun
    (along_cons rfl nofun (along_cons rfl nofun (along_cons rfl nofun (along_cons rfl nofun
      trivial)))))))

/-- One firing in the window queues work on the destroyed workqueue, and the work item then
runs after the device is gone. -/
theorem unload_unsafe :
    ∃ s, exec step loaded [.exit, .fire, .exit, .exit, .exit, .workStart] = some s ∧
      s.queuedOnDestroyed = true ∧ s.running = true ∧ s.bmp280Dev = false ∧
      ¬Everywhere step Safe loaded [.exit, .fire, .exit, .exit, .exit, .workStart] := by
  refine ⟨_, rfl, rfl, rfl, rfl, fun h => ?_⟩
  exact absurd (h [.exit, .fire] [.exit, .exit, .exit, .workStart] _ rfl rfl).1 (by decide)

end Unload
end LinuxLab
