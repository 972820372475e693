import LinuxLab.Drivers.ButtonInterrupt
import LinuxLab.Lib.Exec

/-!
# The exit request of the button thread

`kdt_wait_kthread` waits until the flag is not 0, tests it against 2 and clears it, in three
steps.  Interrupts and reads set the flag to 1, and `kdt_module_exit` sets it to 2, after it
has freed the interrupt.  The module stays while a process has the device open, and a module
that is being removed is not opened.  When the flag is set to 2 between the thread's test
and its clearing, the request is lost.
-/

namespace LinuxLab
namespace ExitRequest

open Lib ButtonInterrupt

/-- Where the thread stands in its loop. -/
inductive ThreadPc where
  | waiting
  | awake
  | tested
  | returned
deriving DecidableEq, Repr

/-- How far `kdt_module_exit` has come. -/
inductive ExitPc where
  | loaded
  | irqFreed
  | flagSet
deriving DecidableEq, Repr

structure State where
  driver : ButtonDriver
  thread : ThreadPc
  exit : ExitPc
  openFiles : Nat

inductive Action where
  | openFile
  | closeFile
  | read (current : Task) (room count : Nat) (u : UserCopy 2 room 1)
  | irq
  | threadWake
  | threadTest
  | threadClear
  | freeIrq
  | setFlag

def setWaitQueueFlag (flag : Nat) (s : State) : State :=
  { s with driver := { s.driver with waitQueueFlag := flag } }

def step (s : State) : Action → Option State
  | .openFile => if s.exit = .loaded then some { s with openFiles := s.openFiles + 1 } else none
  | .closeFile => if 0 < s.openFiles then some { s with openFiles := s.openFiles - 1 } else none
  | .read current _ count u =>
    if 0 < s.openFiles then
      some { s with driver := (kdtDriverRead current count u s.driver).state }
    else none
  | .irq =>
    if s.exit = .loaded then some { s with driver := (kdtGpioIrqSignalHandler s.driver).2 }
    else none
  | .threadWake =>
    if s.thread = .waiting ∧ s.driver.waitQueueFlag ≠ 0 then some { s with thread := .awake }
    else none
  | .threadTest =>
    if s.thread = .awake then
      some { s with thread := if s.driver.waitQueueFlag = 2 then .returned else .tested }
    else none
  | .threadClear =>
    if s.thread = .tested then some (setWaitQueueFlag 0 { s with thread := .waiting }) else none
  | .freeIrq =>
    if s.exit = .loaded ∧ s.openFiles = 0 then some { s with exit := .irqFreed } else none
  | .setFlag =>
    if s.exit = .irqFreed then some (setWaitQueueFlag 2 { s with exit := .flagSet }) else none

/-- The module after `kdt_module_init`, with its thread before the first wait. -/
def start : State := ⟨⟨false, 0, none, []⟩, .waiting, .loaded, 0⟩

/-- Once `kdt_module_exit` has set the flag to 2 it stays so until the thread returns. -/
def RequestKept (s : State) : Prop :=
  s.exit = .flagSet → s.thread ≠ .returned → s.driver.waitQueueFlag = 2

/-- `kdt_module_exit` does not set the flag between the thread's test and its clearing. -/
def OutsideWindow (s : State) (a : Action) : Prop := a = .setFlag → s.thread ≠ .tested

instance decidableOutsideWindow (s : State) : ∀ a, Decidable (OutsideWindow s a)
  | .setFlag => decidable_of_iff (s.thread ≠ .tested) ⟨fun h _ => h, fun h => h rfl⟩
  | .openFile | .closeFile | .read .. | .irq | .threadWake | .threadTest | .threadClear
  | .freeIrq => isTrue nofun

/-- A module that is being removed is not open. -/
def Closed (s : State) : Prop := s.exit ≠ .loaded → s.openFiles = 0

theorem closed_step {s t : State} {a : Action} (hclosed : Closed s) (h : step s a = some t) :
    Closed t := by
  cases a with
  | openFile =>
    obtain ⟨hloaded, rfl⟩ := Option.ite_some_none_eq_some.mp h
    exact fun hne => absurd hloaded hne
  | closeFile =>
    obtain ⟨-, rfl⟩ := Option.ite_some_none_eq_some.mp h
    intro hne
    show s.openFiles - 1 = 0
    rw [hclosed hne]
  | read current room count u =>
    obtain ⟨-, rfl⟩ := Option.ite_some_none_eq_some.mp h
    exact hclosed
  | irq =>
    obtain ⟨-, rfl⟩ := Option.ite_some_none_eq_some.mp h
    exact hclosed
  | threadWake =>
    obtain ⟨-, rfl⟩ := Option.ite_some_none_eq_some.mp h
    exact hclosed
  | threadTest =>
    obtain ⟨-, rfl⟩ := Option.ite_some_none_eq_some.mp h
    exact hclosed
  | threadClear =>
    obtain ⟨-, rfl⟩ := Option.ite_some_none_eq_some.mp h
    exact hclosed
  | freeIrq =>
    obtain ⟨⟨-, hfiles⟩, rfl⟩ := Option.ite_some_none_eq_some.mp h
    exact fun _ => hfiles
  | setFlag =>
    obtain ⟨hfreed, rfl⟩ := Option.ite_some_none_eq_some.mp h
    exact fun _ => hclosed (by rw [hfreed]; decide)

/-- Once the flag has been set to 2, only the thread takes a step that matters. -/
theorem not_loaded_of_flagSet {s : State} (hset : s.exit = .flagSet) : s.exit ≠ .loaded := by
  rw [hset]
  decide

/-- A request that is not lost finds the thread before its test. -/
structure Invariant (s : State) : Prop where
  closed : Closed s
  kept : RequestKept s
  notTested : s.exit = .flagSet → s.thread ≠ .tested

theorem invariant_start : Invariant start := ⟨fun _ => rfl, nofun, nofun⟩

theorem invariant_step {s t : State} {a : Action} (hwindow : OutsideWindow s a)
    (hI : Invariant s) (h : step s a = some t) : Invariant t := by
  have hclosed := closed_step hI.closed h
  cases a with
  | openFile =>
    obtain ⟨-, rfl⟩ := Option.ite_some_none_eq_some.mp h
    exact ⟨hclosed, hI.kept, hI.notTested⟩
  | closeFile =>
    obtain ⟨-, rfl⟩ := Option.ite_some_none_eq_some.mp h
    exact ⟨hclosed, hI.kept, hI.notTested⟩
  | read current room count u =>
    obtain ⟨hopen, rfl⟩ := Option.ite_some_none_eq_some.mp h
    refine ⟨hclosed, fun hset => ?_, hI.notTested⟩
    exact absurd (hI.closed (not_loaded_of_flagSet hset)) (by omega)
  | irq =>
    obtain ⟨hloaded, rfl⟩ := Option.ite_some_none_eq_some.mp h
    exact ⟨hclosed, fun hset => absurd hloaded (not_loaded_of_flagSet hset), hI.notTested⟩
  | threadWake =>
    obtain ⟨hwake, rfl⟩ := Option.ite_some_none_eq_some.mp h
    refine ⟨hclosed, fun hset _ => hI.kept hset ?_, fun _ => nofun⟩
    rw [hwake.1]
    decide
  | threadTest =>
    obtain ⟨hawake, rfl⟩ := Option.ite_some_none_eq_some.mp h
    have hflag : s.exit = .flagSet → s.driver.waitQueueFlag = 2 := fun hset =>
      hI.kept hset (by rw [hawake]; decide)
    refine ⟨hclosed, fun hset _ => hflag hset, fun hset => ?_⟩
    show (if s.driver.waitQueueFlag = 2 then ThreadPc.returned else .tested) ≠ .tested
    rw [if_pos (hflag hset)]
    decide
  | threadClear =>
    obtain ⟨htested, rfl⟩ := Option.ite_some_none_eq_some.mp h
    exact ⟨hclosed, fun hset => absurd htested (hI.notTested hset), fun _ => nofun⟩
  | freeIrq =>
    obtain ⟨-, rfl⟩ := Option.ite_some_none_eq_some.mp h
    exact ⟨hclosed, nofun, nofun⟩
  | setFlag =>
    obtain ⟨-, rfl⟩ := Option.ite_some_none_eq_some.mp h
    exact ⟨hclosed, fun _ _ => rfl, fun _ => hwindow rfl⟩

/-- In a run in which the flag is never set to 2 between the thread's test and its clearing,
the request is kept in every state. -/
theorem exit_request_kept {actions : List Action}
    (hwindow : Along step OutsideWindow start actions) :
    Everywhere step RequestKept start actions := by
  have hI := everywhere_of_along (fun s a t => invariant_step) invariant_start hwindow
  exact hI.mono (fun s hs => hs.kept)

/-- A read and an interrupt wake the thread before the request does, and it returns. -/
def pressedBefore : List Action :=
  [.openFile, .read 7 1 1 byteCopied, .threadWake, .threadTest, .threadClear,
    .closeFile, .irq, .threadWake, .threadTest, .threadClear, .freeIrq, .setFlag, .threadWake,
    .threadTest]

theorem exit_request_kept_pressedBefore :
    (∃ s, exec step start pressedBefore = some s ∧ s.thread = .returned) ∧
      Everywhere step RequestKept start pressedBefore :=
  ⟨⟨_, rfl, rfl⟩, exit_request_kept (by decide)⟩

/-! ## The lost request -/

/-- The thread is about to clear the request, or waits with the flag cleared. -/
structure Lost (s : State) : Prop where
  flagSet : s.exit = .flagSet
  closed : s.openFiles = 0
  stuck : s.thread = .tested ∨ s.thread = .waiting ∧ s.driver.waitQueueFlag = 0

theorem lost_step {s t : State} {a : Action} (hL : Lost s) (h : step s a = some t) : Lost t := by
  obtain ⟨hset, hfiles, hstuck⟩ := hL
  have hloaded := not_loaded_of_flagSet hset
  cases a with
  | openFile =>
    obtain ⟨hexit, rfl⟩ := Option.ite_some_none_eq_some.mp h
    exact absurd hexit hloaded
  | closeFile =>
    obtain ⟨hopen, rfl⟩ := Option.ite_some_none_eq_some.mp h
    omega
  | read current room count u =>
    obtain ⟨hopen, rfl⟩ := Option.ite_some_none_eq_some.mp h
    omega
  | irq =>
    obtain ⟨hexit, rfl⟩ := Option.ite_some_none_eq_some.mp h
    exact absurd hexit hloaded
  | threadWake =>
    obtain ⟨⟨hwaiting, hflag⟩, rfl⟩ := Option.ite_some_none_eq_some.mp h
    rcases hstuck with htested | ⟨-, hzero⟩
    · exact absurd (htested.symm.trans hwaiting) (by decide)
    · exact absurd hzero hflag
  | threadTest =>
    obtain ⟨hawake, rfl⟩ := Option.ite_some_none_eq_some.mp h
    rcases hstuck with htested | ⟨hwaiting, -⟩
    · exact absurd (htested.symm.trans hawake) (by decide)
    · exact absurd (hwaiting.symm.trans hawake) (by decide)
  | threadClear =>
    obtain ⟨-, rfl⟩ := Option.ite_some_none_eq_some.mp h
    exact ⟨hset, hfiles, .inr ⟨rfl, rfl⟩⟩
  | freeIrq =>
    obtain ⟨⟨hexit, -⟩, rfl⟩ := Option.ite_some_none_eq_some.mp h
    exact absurd hexit hloaded
  | setFlag =>
    obtain ⟨hfreed, rfl⟩ := Option.ite_some_none_eq_some.mp h
    exact absurd (hset.symm.trans hfreed) (by decide)

/-- A request made between the test and the clearing is lost for good: whatever follows, the
thread does not return. -/
theorem request_in_window_lost {front back : List Action} {s t u : State}
    (hfront : exec step start front = some s) (htested : s.thread = .tested)
    (hset : step s .setFlag = some t) (hback : exec step t back = some u) :
    u.thread ≠ .returned := by
  have hclosed : Closed s := exec_invariant (fun _ _ _ => closed_step) (fun _ => rfl) hfront
  have hlost : Lost t := by
    obtain ⟨hfreed, rfl⟩ := Option.ite_some_none_eq_some.mp hset
    exact ⟨rfl, hclosed (by rw [hfreed]; decide), .inl htested⟩
  have hu : Lost u := exec_invariant (fun _ _ _ => lost_step) hlost hback
  intro hreturned
  rcases hu.stuck with h | ⟨h, -⟩
  · exact absurd (h.symm.trans hreturned) (by decide)
  · exact absurd (h.symm.trans hreturned) (by decide)

/-- One interrupt wakes the thread, and the request comes after its test. -/
theorem exit_request_lost :
    ∃ s, exec step start [.irq, .threadWake, .threadTest, .freeIrq, .setFlag, .threadClear] =
      some s ∧ s.exit = .flagSet ∧ s.thread = .waiting ∧ s.driver.waitQueueFlag = 0 ∧
      ¬Everywhere step RequestKept start
        [.irq, .threadWake, .threadTest, .freeIrq, .setFlag, .threadClear] := by
  refine ⟨_, rfl, rfl, rfl, rfl, fun h => ?_⟩
  have hzero := h _ [] _ (List.append_nil _).symm rfl rfl (by decide)
  exact absurd hzero (by decide)

end ExitRequest
end LinuxLab
