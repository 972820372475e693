import LinuxLab.Drivers.ButtonInterrupt
import LinuxLab.Lib.Exec

/-!
# The registered task

A read of the button device registers the task that reads, and from then on the interrupt
handler sends its signal there.  Nothing takes the registration back: `kdt_driver_close`
does nothing, so that a process may read once and close the device, and the exit of a task
is not noticed.  So the handler signals the last task that has read, whether it is still
there or not.
-/

namespace LinuxLab
namespace Registrant

open Lib ButtonInterrupt

/-- What processes and the button do. -/
inductive Event where
  | openFile (task : Task)
  | read (task : Task) (room count : Nat) (u : UserCopy 2 room 1)
  | closeFile (task : Task)
  | exit (task : Task)
  | irq

/-- `openFiles` has the task of each open file of the device. -/
structure State where
  driver : ButtonDriver
  openFiles : List Task
  exited : List Task

def start : State := ⟨⟨false, 0, none, []⟩, [], []⟩

/-- A task reads a device that it has open, and does nothing after its exit, which closes
its files. -/
def step (s : State) : Event → Option State
  | .openFile task =>
    if task ∉ s.exited then some { s with openFiles := task :: s.openFiles } else none
  | .read task _ count u =>
    if task ∈ s.openFiles then
      some { s with driver := (kdtDriverRead task count u s.driver).state }
    else none
  | .closeFile task =>
    if task ∈ s.openFiles then some { s with openFiles := s.openFiles.erase task } else none
  | .exit task =>
    if task ∉ s.exited then
      some { s with openFiles := s.openFiles.filter (· ≠ task), exited := task :: s.exited }
    else none
  | .irq => some { s with driver := (kdtGpioIrqSignalHandler s.driver).2 }

/-- The task that an event registers: a read of at least one byte whose copy succeeds. -/
def registers : Event → Option Task
  | .read task room count _ => if 0 < count ∧ 0 < room then some task else none
  | _ => none

/-- The task of the last such read. -/
def lastReader (events : List Event) : Option Task := (events.filterMap registers).getLast?

/-- The handler, called after the events, signals nobody or a task that has registered and
has not exited. -/
def SignalsLive (events : List Event) (s : State) : Prop :=
  ∀ task, (kdtGpioIrqSignalHandler s.driver).1 = some task →
    (∃ e ∈ events, registers e = some task) ∧ task ∉ s.exited

/-- The handler does so at every interrupt among the events. -/
def AlwaysSignalsLive (events : List Event) : Prop :=
  ∀ front back s, events = front ++ .irq :: back → exec step start front = some s →
    SignalsLive front s

theorem lastReader_concat (front : List Event) (e : Event) :
    lastReader (front ++ [e]) = (registers e).or (lastReader front) := by
  unfold lastReader
  rw [List.filterMap_append]
  cases h : registers e with
  | none => rw [List.filterMap_cons_none h, List.filterMap_nil, List.append_nil, Option.none_or]
  | some task =>
    rw [List.filterMap_cons_some h, List.filterMap_nil, List.getLast?_concat, Option.some_or]

theorem exists_of_lastReader {events : List Event} {task : Task}
    (h : lastReader events = some task) : ∃ e ∈ events, registers e = some task :=
  List.mem_filterMap.mp (List.mem_of_getLast? h)

/-- What the driver and the tasks remember of the events so far. -/
structure Remembers (events : List Event) (s : State) : Prop where
  reader : s.driver.userSpaceTask = lastReader events
  exited : ∀ task, task ∈ s.exited ↔ .exit task ∈ events

theorem remembers_start : Remembers [] start := ⟨rfl, fun task => by simp [start]⟩

/-- An event that registers nobody and is no exit. -/
theorem Remembers.other {front : List Event} {s : State} (h : Remembers front s) {e : Event}
    (hregisters : registers e = none) (hexit : ∀ task, Event.exit task ≠ e) :
    s.driver.userSpaceTask = lastReader (front ++ [e]) ∧
      ∀ task, task ∈ s.exited ↔ .exit task ∈ front ++ [e] := by
  refine ⟨?_, fun task => ?_⟩
  · rw [lastReader_concat, hregisters, Option.none_or, h.reader]
  · rw [h.exited, List.mem_append, List.mem_singleton, or_iff_left (hexit task)]

theorem remembers_step {front : List Event} {s t : State} {e : Event} (hs : Remembers front s)
    (h : step s e = some t) : Remembers (front ++ [e]) t := by
  cases e with
  | openFile task =>
    obtain ⟨-, rfl⟩ := Option.ite_some_none_eq_some.mp h
    obtain ⟨hreader, hexited⟩ := hs.other (e := .openFile task) rfl nofun
    exact ⟨hreader, hexited⟩
  | read task room count u =>
    obtain ⟨-, rfl⟩ := Option.ite_some_none_eq_some.mp h
    refine ⟨?_, fun other => ?_⟩
    · rw [lastReader_concat, ← hs.reader]
      show (kdtDriverRead task count u s.driver).state.userSpaceTask = _
      rw [userSpaceTask_read, registers]
      split <;> rfl
    · rw [List.mem_append, List.mem_singleton, or_iff_left (by simp)]
      exact hs.exited other
  | closeFile task =>
    obtain ⟨-, rfl⟩ := Option.ite_some_none_eq_some.mp h
    obtain ⟨hreader, hexited⟩ := hs.other (e := .closeFile task) rfl nofun
    exact ⟨hreader, hexited⟩
  | exit task =>
    obtain ⟨-, rfl⟩ := Option.ite_some_none_eq_some.mp h
    refine ⟨?_, fun other => ?_⟩
    · rw [lastReader_concat]
      exact hs.reader
    · show other ∈ task :: s.exited ↔ _
      rw [List.mem_cons, List.mem_append, List.mem_singleton, hs.exited, Event.exit.injEq, or_comm]
  | irq =>
    cases h
    obtain ⟨hreader, hexited⟩ := hs.other (e := .irq) rfl nofun
    exact ⟨hreader, hexited⟩

theorem remembers_run {events : List Event} {s : State}
    (hrun : exec step start events = some s) : Remembers events s :=
  exec_history (fun _ _ _ _ (_ : True) => remembers_step) remembers_start (fun _ _ => trivial) hrun

theorem signalsLive_iff {events : List Event} {s : State}
    (hrun : exec step start events = some s) :
    SignalsLive events s ↔ ∀ task, lastReader events = some task → .exit task ∉ events := by
  have hs := remembers_run hrun
  constructor
  · intro h task hreader
    rw [← hs.exited]
    exact (h task (hs.reader.trans hreader)).2
  · intro h task hsignal
    have hreader : lastReader events = some task := hs.reader.symm.trans hsignal
    refine ⟨exists_of_lastReader hreader, ?_⟩
    rw [hs.exited]
    exact h task hreader

/-- At every interrupt the signal goes to a live registrant exactly when no interrupt comes
after the exit of the task that has read last. -/
theorem signals_live_registrant_iff {events : List Event} {u : State}
    (hrun : exec step start events = some u) :
    AlwaysSignalsLive events ↔ ∀ front back, events = front ++ .irq :: back →
      ∀ task, lastReader front = some task → .exit task ∉ front := by
  constructor
  · intro h front back hsplit
    subst hsplit
    obtain ⟨s, hs, -⟩ := exists_exec_of_append hrun
    exact (signalsLive_iff hs).mp (h front back s rfl hs)
  · intro h front back s hsplit hs
    exact (signalsLive_iff hs).mpr (h front back hsplit)

/-- A read of one byte that is copied. -/
def readByte (task : Task) : Event := .read task 1 1 byteCopied

/-- A process that reads once and closes the device is signalled as long as it lives. -/
theorem signals_live_registrant_once :
    AlwaysSignalsLive [.openFile 7, readByte 7, .closeFile 7, .irq] := by
  refine (signals_live_registrant_iff rfl).mpr (fun front back hsplit task _ hexit => ?_)
  have hmem : Event.exit task ∈ [Event.openFile 7, readByte 7, .closeFile 7, .irq] :=
    hsplit ▸ List.mem_append_left _ hexit
  simp [readByte] at hmem

/-- After the exit of the task that has read, the handler signals a task that is gone. -/
theorem signals_exited_task :
    ∃ s, exec step start [.openFile 7, readByte 7, .closeFile 7, .exit 7] = some s ∧
      (kdtGpioIrqSignalHandler s.driver).1 = some 7 ∧ 7 ∈ s.exited ∧
      ¬SignalsLive [.openFile 7, readByte 7, .closeFile 7, .exit 7] s := by
  refine ⟨_, rfl, rfl, List.mem_cons_self, fun h => ?_⟩
  exact (h 7 rfl).2 List.mem_cons_self

end Registrant
end LinuxLab
