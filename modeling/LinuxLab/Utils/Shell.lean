import LinuxLab.Lib.Exec

/-!
# The sh command

`toy_shell` of `input.c` forks a child and waits for it in a loop, until the status that
`waitpid` has stored says that the child has exited or was killed.  The process has inherited
`signalHandler` of `main.c`, which reaps every child that has terminated and may run in
another thread.  When it reaps the child of `toy_shell` first, `waitpid` fails there and
stores nothing, and the loop looks at what was in the variable before.
-/

namespace LinuxLab
namespace Shell

open Lib

/-! ## The status word -/

def wTermsig (status : BitVec 32) : BitVec 32 := status &&& 0x7f#32

def wIfExited (status : BitVec 32) : Bool := wTermsig status == 0#32

/-- The sum of the low seven bits and 1, as a `signed char` shifted right, is positive. -/
def wIfSignaled (status : BitVec 32) : Bool :=
  BitVec.slt 0#8 (((wTermsig status + 1#32).setWidth 8).sshiftRight 1)

/-- The condition of the loop. -/
def keepsWaiting (status : BitVec 32) : Bool := !wIfExited status && !wIfSignaled status

/-- How a child ends: with an exit code, or by one of the 64 signals. -/
inductive Termination where
  | exited (code : BitVec 32)
  | killed (signal : Fin 64) (core : Bool)
deriving DecidableEq, Repr

/-- The status that `waitpid` stores for a child that has ended. -/
def Termination.status : Termination → BitVec 32
  | .exited code => (code &&& 0xff#32) <<< (8 : Nat)
  | .killed signal core => BitVec.ofNat 32 (signal.val + 1) ||| if core then 0x80#32 else 0#32

/-- The status that `waitpid` stores for a stopped child. -/
def stopStatus (signal : BitVec 32) : BitVec 32 := signal <<< (8 : Nat) ||| 0x7f#32

theorem wTermsig_shiftLeft (x : BitVec 32) : wTermsig (x <<< (8 : Nat)) = 0#32 := by
  apply BitVec.eq_of_toNat_eq
  rw [wTermsig, BitVec.toNat_and, BitVec.toNat_shiftLeft]
  apply (Nat.and_two_pow_sub_one_eq_mod _ 7).trans
  rw [Nat.shiftLeft_eq]
  show _ = 0
  omega

theorem keepsWaiting_stopStatus (signal : BitVec 32) : keepsWaiting (stopStatus signal) = true := by
  have hlow : wTermsig (stopStatus signal) = 0x7f#32 := by
    have hshift := wTermsig_shiftLeft signal
    rw [wTermsig] at hshift
    rw [wTermsig, stopStatus, BitVec.and_comm, BitVec.and_or_distrib_left, BitVec.and_comm, hshift]
    decide
  rw [keepsWaiting, wIfExited, wIfSignaled, hlow]
  decide

/-- No child that has ended keeps the loop waiting. -/
theorem keepsWaiting_status (t : Termination) : keepsWaiting t.status = false := by
  cases t with
  | exited code =>
    rw [keepsWaiting, wIfExited, Termination.status, wTermsig_shiftLeft]
    rfl
  | killed signal core =>
    revert signal core
    decide

/-! ## The child, the loop and the handler -/

/-- A stop is reported to `waitpid` once. -/
inductive Child where
  | running
  | stopped (signal : BitVec 32) (reported : Bool)
  | zombie (termination : Termination)
  | reaped
deriving DecidableEq, Repr

/-- Where `toy_shell` is in its loop. -/
inductive Pc where
  | waiting
  | testing
  | returned
deriving DecidableEq, Repr

/-- `waits` counts the calls of `waitpid` in the loop that have returned since the child has
terminated. -/
structure State where
  child : Child
  status : BitVec 32
  pc : Pc
  waits : Nat
deriving DecidableEq, Repr

inductive Action where
  | stop (signal : BitVec 32)
  | cont
  | terminate (termination : Termination)
  | handler
  | loop
deriving DecidableEq, Repr

/-- After `fork`, with what the variable `status` happens to have. -/
def forked (status : BitVec 32) : State := ⟨.running, status, .waiting, 0⟩

/-- The next step of `toy_shell`.  `waitpid` blocks while the child runs, and a child that is
no more makes it fail. -/
def loopStep (s : State) : Option State :=
  match s.pc with
  | .waiting =>
    match s.child with
    | .running => none
    | .stopped _ true => none
    | .stopped signal false =>
      some { s with child := .stopped signal true, status := stopStatus signal, pc := .testing }
    | .zombie termination =>
      some ⟨.reaped, termination.status, .testing, s.waits + 1⟩
    | .reaped => some { s with pc := .testing, waits := s.waits + 1 }
  | .testing =>
    some { s with pc := if keepsWaiting s.status = true then .waiting else .returned }
  | .returned => none

/-- The child after a run of `signalHandler`, which does not ask for stopped children. -/
def signalHandler : Child → Child
  | .zombie _ => .reaped
  | child => child

def step (s : State) : Action → Option State
  | .stop signal =>
    match s.child with
    | .running => some { s with child := .stopped signal false }
    | _ => none
  | .cont =>
    match s.child with
    | .stopped _ _ => some { s with child := .running }
    | _ => none
  | .terminate termination =>
    match s.child with
    | .running | .stopped _ _ => some { s with child := .zombie termination }
    | _ => none
  | .handler => some { s with child := signalHandler s.child }
  | .loop => loopStep s

def Child.terminated : Child → Bool
  | .running | .stopped _ _ => false
  | .zombie _ | .reaped => true

/-- The loop by itself comes to its end, with at most one call of `waitpid` since the child
has terminated. -/
def Returns (s : State) : Prop :=
  ∃ n t, exec step s (List.replicate n .loop) = some t ∧ t.pc = .returned ∧ t.waits ≤ 1

def ComesBack (s : State) : Prop := s.child.terminated = true → Returns s

/-- The handler does not reap the child while the status in the loop is that of a stop. -/
def ReapsInTime (s : State) (a : Action) : Prop :=
  a = .handler → ∀ termination, s.child = .zombie termination → keepsWaiting s.status = false

/-! ## Invariant -/

/-- Until the child is reaped the loop goes on, and what `waitpid` has stored is a stop. -/
structure Invariant (s : State) : Prop where
  waits : s.child ≠ .reaped → s.waits = 0
  pc : s.child ≠ .reaped → s.pc ≠ .returned
  stop : s.child ≠ .reaped → s.pc = .testing → keepsWaiting s.status = true

theorem not_reaped_of_zombie {child : Child} {termination : Termination}
    (h : child = .zombie termination) : child ≠ .reaped := by
  rw [h]
  exact nofun

theorem invariant_forked (status : BitVec 32) : Invariant (forked status) :=
  ⟨fun _ => rfl, fun _ => nofun, fun _ => nofun⟩

/-- A child that is not reaped changes without a step of `toy_shell`. -/
theorem Invariant.child {s : State} (hI : Invariant s) {child : Child}
    (h : child ≠ .reaped → s.child ≠ .reaped) : Invariant { s with child := child } :=
  ⟨fun hc => hI.waits (h hc), fun hc => hI.pc (h hc), fun hc => hI.stop (h hc)⟩

theorem loopStep_cases {s t : State} (h : loopStep s = some t) :
    (s.pc = .waiting ∧ ∃ signal, s.child = .stopped signal false ∧ t = { s with
      child := .stopped signal true, status := stopStatus signal, pc := .testing }) ∨
    (s.pc = .waiting ∧ ∃ termination, s.child = .zombie termination ∧
      t = ⟨.reaped, termination.status, .testing, s.waits + 1⟩) ∨
    (s.pc = .waiting ∧ s.child = .reaped ∧ t = { s with pc := .testing, waits := s.waits + 1 }) ∨
    (s.pc = .testing ∧
      t = { s with pc := if keepsWaiting s.status = true then .waiting else .returned }) := by
  unfold loopStep at h
  split at h
  · next hpc =>
    split at h
    · cases h
    · cases h
    · next signal hchild =>
      cases h
      exact .inl ⟨hpc, signal, hchild, rfl⟩
    · next termination hchild =>
      cases h
      exact .inr (.inl ⟨hpc, termination, hchild, rfl⟩)
    · next hchild =>
      cases h
      exact .inr (.inr (.inl ⟨hpc, hchild, rfl⟩))
  · next hpc =>
    cases h
    exact .inr (.inr (.inr ⟨hpc, rfl⟩))
  · cases h

theorem invariant_loopStep {s t : State} (hI : Invariant s) (h : loopStep s = some t) :
    Invariant t := by
  rcases loopStep_cases h with ⟨-, signal, hchild, rfl⟩ | ⟨-, termination, -, rfl⟩ |
    ⟨-, hchild, rfl⟩ | ⟨hpc, rfl⟩
  · have hnot : s.child ≠ .reaped := by
      rw [hchild]
      exact nofun
    exact ⟨fun _ => hI.waits hnot, fun _ => nofun, fun _ _ => keepsWaiting_stopStatus signal⟩
  · exact ⟨fun hc => absurd rfl hc, fun hc => absurd rfl hc, fun hc => absurd rfl hc⟩
  · exact ⟨fun hc => absurd hchild hc, fun hc => absurd hchild hc, fun hc => absurd hchild hc⟩
  · refine ⟨hI.waits, fun hc => ?_, fun hc => ?_⟩
    · show (if keepsWaiting s.status = true then Pc.waiting else .returned) ≠ _
      rw [if_pos (hI.stop hc hpc)]
      exact nofun
    · show (if keepsWaiting s.status = true then Pc.waiting else .returned) = _ → _
      rw [if_pos (hI.stop hc hpc)]
      exact nofun

/-- A step is one of the child, which goes on or terminates, of the handler or of the loop. -/
theorem step_cases {s t : State} {a : Action} (h : step s a = some t) :
    (a ≠ .handler ∧ s.child.terminated = false ∧
      ∃ child, t = { s with child := child } ∧ child ≠ .reaped) ∨
    (a = .handler ∧ t = { s with child := signalHandler s.child }) ∨
    (a = .loop ∧ loopStep s = some t) := by
  cases a with
  | stop signal =>
    dsimp only [step] at h
    split at h
    · next hchild =>
      cases h
      exact .inl ⟨nofun, hchild ▸ rfl, _, rfl, nofun⟩
    · cases h
  | cont =>
    dsimp only [step] at h
    split at h
    · next hchild =>
      cases h
      exact .inl ⟨nofun, hchild ▸ rfl, _, rfl, nofun⟩
    · cases h
  | terminate termination =>
    dsimp only [step] at h
    split at h
    · next hchild =>
      cases h
      exact .inl ⟨nofun, hchild ▸ rfl, _, rfl, nofun⟩
    · next hchild =>
      cases h
      exact .inl ⟨nofun, hchild ▸ rfl, _, rfl, nofun⟩
    · cases h
  | handler =>
    cases h
    exact .inr (.inl ⟨rfl, rfl⟩)
  | loop => exact .inr (.inr ⟨rfl, h⟩)

theorem invariant_step {s t : State} {a : Action} (hI : Invariant s) (h : step s a = some t) :
    Invariant t := by
  rcases step_cases h with ⟨-, hgoes, child, rfl, -⟩ | ⟨-, rfl⟩ | ⟨-, hloop⟩
  · apply hI.child
    intro _ hreaped
    rw [hreaped] at hgoes
    exact absurd hgoes (by decide)
  · apply hI.child
    intro hc hreaped
    rw [hreaped] at hc
    exact hc rfl
  · exact invariant_loopStep hI hloop

/-! ## Coming back -/

theorem returns_of_loopStep {s t : State} (h : loopStep s = some t) (ht : Returns t) :
    Returns s := by
  obtain ⟨n, u, hrun, hu⟩ := ht
  exact ⟨n + 1, u, exec_cons h hrun, hu⟩

theorem returns_testing {s : State} (hpc : s.pc = .testing)
    (hstatus : keepsWaiting s.status = false) (hwaits : s.waits ≤ 1) : Returns s := by
  have hstep : loopStep s = some { s with pc := .returned } := by
    rw [loopStep, hpc, hstatus]
    rfl
  exact returns_of_loopStep hstep ⟨0, _, rfl, rfl, hwaits⟩

theorem returns_waiting_zombie {s : State} {termination : Termination} (hpc : s.pc = .waiting)
    (hchild : s.child = .zombie termination) (hwaits : s.waits = 0) : Returns s := by
  have hstep : loopStep s = some ⟨.reaped, termination.status, .testing, s.waits + 1⟩ := by
    rw [loopStep, hpc, hchild]
  apply returns_of_loopStep hstep
  exact returns_testing rfl (keepsWaiting_status termination) (by show s.waits + 1 ≤ 1; omega)

theorem returns_waiting_reaped {s : State} (hpc : s.pc = .waiting) (hchild : s.child = .reaped)
    (hstatus : keepsWaiting s.status = false) (hwaits : s.waits = 0) : Returns s := by
  have hstep : loopStep s = some { s with pc := .testing, waits := s.waits + 1 } := by
    rw [loopStep, hpc, hchild]
  apply returns_of_loopStep hstep
  exact returns_testing rfl hstatus (by show s.waits + 1 ≤ 1; omega)

/-- A child that is a zombie ends the loop, from wherever the loop is. -/
theorem returns_zombie {s : State} {termination : Termination} (hI : Invariant s)
    (hchild : s.child = .zombie termination) : Returns s := by
  have hnot := not_reaped_of_zombie hchild
  have hwaits := hI.waits hnot
  cases hpc : s.pc with
  | waiting => exact returns_waiting_zombie hpc hchild hwaits
  | testing =>
    have hstep : loopStep s = some { s with pc := .waiting } := by
      rw [loopStep, hpc, hI.stop hnot hpc]
      rfl
    exact returns_of_loopStep hstep (returns_waiting_zombie rfl hchild hwaits)
  | returned => exact absurd hpc (hI.pc hnot)

theorem comesBack_of_not_reaped {s : State} (hI : Invariant s) (hnot : s.child ≠ .reaped) :
    ComesBack s := by
  intro hterminated
  cases hchild : s.child with
  | running =>
    rw [hchild] at hterminated
    cases hterminated
  | stopped signal reported =>
    rw [hchild] at hterminated
    cases hterminated
  | zombie termination => exact returns_zombie hI hchild
  | reaped => exact absurd hchild hnot

/-- The child is reaped, and the loop will not see it. -/
def Stuck (s : State) : Prop :=
  s.child = .reaped ∧ keepsWaiting s.status = true ∧ s.pc ≠ .returned

theorem stuck_step {s t : State} {a : Action} (hs : Stuck s) (h : step s a = some t) : Stuck t := by
  obtain ⟨hchild, hstatus, hpc⟩ := hs
  rcases step_cases h with ⟨-, hgoes, -⟩ | ⟨-, rfl⟩ | ⟨-, hloop⟩
  · rw [hchild] at hgoes
    cases hgoes
  · exact ⟨by rw [hchild]; rfl, hstatus, hpc⟩
  · rcases loopStep_cases hloop with ⟨-, signal, hstopped, -⟩ | ⟨-, termination, hzombie, -⟩ |
      ⟨-, -, rfl⟩ | ⟨-, rfl⟩
    · cases hchild.symm.trans hstopped
    · cases hchild.symm.trans hzombie
    · exact ⟨hchild, hstatus, nofun⟩
    · refine ⟨hchild, hstatus, ?_⟩
      show (if keepsWaiting s.status = true then Pc.waiting else .returned) ≠ _
      rw [if_pos hstatus]
      exact nofun

/-- It never returns, whatever happens. -/
theorem stuck_run {s t : State} {actions : List Action} (hs : Stuck s)
    (hrun : exec step s actions = some t) : t.pc ≠ .returned :=
  (exec_invariant (fun _ _ _ => stuck_step) hs hrun).2.2

theorem not_comesBack_of_stuck {s : State} (hs : Stuck s) : ¬ComesBack s := by
  intro h
  obtain ⟨n, t, hrun, hpc, -⟩ := h (by rw [hs.1]; rfl)
  exact stuck_run hs hrun hpc

/-- The loop terminates no child. -/
theorem terminated_of_loopStep {s t : State} (h : loopStep s = some t)
    (ht : t.child.terminated = true) : s.child.terminated = true := by
  rcases loopStep_cases h with ⟨-, signal, -, rfl⟩ | ⟨-, termination, hchild, -⟩ |
    ⟨-, hchild, -⟩ | ⟨-, rfl⟩
  · cases ht
  · rw [hchild]
    rfl
  · rw [hchild]
    rfl
  · exact ht

theorem returns_after_loopStep {s t : State} (hs : Returns s) (h : loopStep s = some t) :
    Returns t := by
  obtain ⟨n, u, hrun, hpc, hwaits⟩ := hs
  cases n with
  | zero =>
    cases hrun
    rw [loopStep, hpc] at h
    cases h
  | succ n =>
    obtain ⟨v, hv, hrest⟩ := exists_step_of_exec hrun
    cases h.symm.trans hv
    exact ⟨n, u, hrest, hpc, hwaits⟩

/-- A run of the handler that reaps the child. -/
theorem comesBack_reaped_iff {s : State} {termination : Termination} (hI : Invariant s)
    (hchild : s.child = .zombie termination) :
    ComesBack { s with child := .reaped } ↔ keepsWaiting s.status = false := by
  have hnot := not_reaped_of_zombie hchild
  have hpc := hI.pc hnot
  constructor
  · intro hback
    by_contra hstatus
    have hstuck : Stuck { s with child := .reaped } :=
      ⟨rfl, Bool.ne_false_iff.mp hstatus, hpc⟩
    exact not_comesBack_of_stuck hstuck hback
  · intro hstatus _
    have hwaiting : s.pc = .waiting := by
      cases hat : s.pc with
      | waiting => rfl
      | testing => exact absurd (hI.stop hnot hat) (by rw [hstatus]; decide)
      | returned => exact absurd hat hpc
    exact returns_waiting_reaped hwaiting rfl hstatus (hI.waits hnot)

theorem comesBack_handler_iff {s : State} (hI : Invariant s) (hs : ComesBack s) :
    ComesBack { s with child := signalHandler s.child } ↔ ReapsInTime s .handler := by
  by_cases hzombie : ∃ termination, s.child = .zombie termination
  · obtain ⟨termination, hchild⟩ := hzombie
    have hreaps : signalHandler s.child = .reaped := by
      rw [hchild]
      rfl
    rw [hreaps, comesBack_reaped_iff hI hchild]
    exact ⟨fun hstatus _ _ _ => hstatus, fun h => h rfl termination hchild⟩
  · have hsame : signalHandler s.child = s.child := by
      cases hchild : s.child with
      | zombie termination => exact absurd ⟨termination, hchild⟩ hzombie
      | _ => rfl
    rw [hsame]
    exact iff_of_true hs (fun _ termination hchild => absurd ⟨termination, hchild⟩ hzombie)

theorem comesBack_step_iff {s t : State} {a : Action} (hI : Invariant s) (hs : ComesBack s)
    (h : step s a = some t) : ComesBack t ↔ ReapsInTime s a := by
  rcases step_cases h with ⟨ha, -, child, rfl, hchild⟩ | ⟨rfl, rfl⟩ | ⟨rfl, hloop⟩
  · have hback := comesBack_of_not_reaped (invariant_step hI h) hchild
    exact iff_of_true hback (fun hhandler => absurd hhandler ha)
  · exact comesBack_handler_iff hI hs
  · refine iff_of_true (fun hterminated => ?_) nofun
    exact returns_after_loopStep (hs (terminated_of_loopStep hloop hterminated)) hloop

/-- In every state of a run in which the child has terminated, the loop comes to its end after
at most one call of `waitpid`, exactly when the handler never reaps the child while the loop
has the status of a stop. -/
theorem shell_comes_back_iff {status : BitVec 32} {actions : List Action} {s : State}
    (hrun : exec step (forked status) actions = some s) :
    Everywhere step ComesBack (forked status) actions ↔
      Along step ReapsInTime (forked status) actions :=
  everywhere_iff_along (fun _ _ _ _ hI h => invariant_step hI h)
    (fun _ _ _ _ hI hs h => comesBack_step_iff hI hs h) (invariant_forked status) nofun hrun

/-- The child is stopped, goes on and exits; the handler finds it reaped. -/
theorem shell_comes_back_after_stop :
    Everywhere step ComesBack (forked 0x7f#32)
      [.stop 20#32, .loop, .loop, .cont, .terminate (.exited 3#32), .loop, .handler, .loop] := by
  have hrun : exec step (forked 0x7f#32)
      [.stop 20#32, .loop, .loop, .cont, .terminate (.exited 3#32), .loop, .handler, .loop] =
        some ⟨.reaped, 0x300#32, .returned, 1⟩ := by decide
  exact (shell_comes_back_iff hrun).mpr (along_cons rfl nofun (along_cons rfl nofun
    (along_cons rfl nofun (along_cons rfl nofun (along_cons rfl nofun (along_cons rfl nofun
      (along_cons rfl (fun _ _ => nofun) (along_cons rfl nofun trivial))))))))

/-- With the low bits of a stop in the variable from the start, the child exits and the handler
reaps it: `waitpid` fails again and again. -/
theorem shell_never_comes_back :
    ∃ s, exec step (forked 0x7f#32)
        [.terminate (.exited 0#32), .handler, .loop, .loop, .loop, .loop] = some s ∧
      s.waits = 2 ∧ s.pc = .waiting ∧
      (∀ actions t, exec step s actions = some t → t.pc ≠ .returned) ∧
      ¬Everywhere step ComesBack (forked 0x7f#32)
        [.terminate (.exited 0#32), .handler, .loop, .loop, .loop, .loop] := by
  have hstuck : Stuck ⟨.reaped, 0x7f#32, .waiting, 2⟩ := ⟨rfl, by decide, nofun⟩
  refine ⟨_, rfl, rfl, rfl, fun _ _ => stuck_run hstuck, fun h => ?_⟩
  exact not_comesBack_of_stuck hstuck (h _ [] _ (List.append_nil _).symm rfl)

end Shell
end LinuxLab
