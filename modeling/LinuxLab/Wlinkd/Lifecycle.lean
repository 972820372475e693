import LinuxLab.Lib.Exec

/-!
# wlinkd from start to exit

`main` of `wlinkd` acquires two netlink sockets, the listening socket of the IPC if it was
asked for, and a timer, starts the TCP server, runs its loop until a signal clears
`g_running`, and gives them back.  A signal can come at any point.  What the handlers of a
pass do is elsewhere, and so is what the TCP server does.

Of the ways out one is not like the others: without a timer `main` returns -1 at once, and
keeps the sockets.  That the thread of the TCP server could not be made is not noticed:
`pthread_detach` then gets an identifier that was never set, which is undefined.  The call may
come back, and `main` goes on without the server, or it does not.
-/

namespace LinuxLab
namespace Wlinkd
namespace Lifecycle

open Lib

inductive Resource where
  | reqSock
  | eventSock
  | ipcServer
  | timerFd
deriving DecidableEq, Repr

inductive Pc where
  /-- The calls of `wlan_nl80211_init` that can fail. -/
  | nametoindex
  | allocReq
  | connectReq
  | resolve
  | allocEvent
  | connectEvent
  | ipcInit
  | timerfdCreate
  | pthreadCreate
  /-- The identifier is set if the thread was made. -/
  | pthreadDetach (made : Bool)
  /-- `pthread_detach` without an identifier has not come back. -/
  | undefined
  /-- `while (g_running)`. -/
  | test
  | polling
  | handling
  | closing
  | returned (code : Int)
deriving DecidableEq, Repr

structure State where
  pc : Pc
  -- The option `-s`.
  ipc : Bool
  running : Bool
  held : Resource → Bool
  -- Resources given back that were not held.
  stray : List Resource

inductive Action where
  /-- The next call of the start-up, and whether it succeeds or, without an identifier, comes
  back. -/
  | call (ok : Bool)
  | test
  /-- `poll` returns: with descriptors that are ready, interrupted, or with another error. -/
  | ready
  | interrupted
  | pollFails
  | handled
  | close
  /-- `shutdown_handler`. -/
  | signal
deriving DecidableEq, Repr

def start (ipc : Bool) : State := ⟨.nametoindex, ipc, true, fun _ => false, []⟩

def State.acquire (r : Resource) (s : State) : State :=
  { s with held := Function.update s.held r true }

def State.release (r : Resource) (s : State) : State :=
  if s.held r then { s with held := Function.update s.held r false }
  else { s with stray := s.stray ++ [r] }

/-- Release behind a test of the pointer. -/
def State.releaseIfHeld (r : Resource) (s : State) : State :=
  if s.held r then s.release r else s

/-- `wlan_libnl_close`, which is all that `wlan_core_close` has to do with resources. -/
def wlanLibnlClose (s : State) : State := (s.releaseIfHeld .eventSock).releaseIfHeld .reqSock

def State.goto (pc : Pc) (s : State) : State := { s with pc := pc }

/-- The calls of the start-up in order.  After a failure of `wlan_core_init` or `ipc_init`
`main` returns 1.  The answers of the two calls on threads are not looked at. -/
def call (ok : Bool) (s : State) : Option State :=
  match s.pc with
  | .nametoindex => some (if ok then s.goto .allocReq else s.goto (.returned 1))
  | .allocReq =>
    some (if ok then (s.acquire .reqSock).goto .connectReq else s.goto (.returned 1))
  | .connectReq => some (if ok then s.goto .resolve else (wlanLibnlClose s).goto (.returned 1))
  | .resolve => some (if ok then s.goto .allocEvent else (wlanLibnlClose s).goto (.returned 1))
  | .allocEvent =>
    some (if ok then (s.acquire .eventSock).goto .connectEvent
      else (wlanLibnlClose s).goto (.returned 1))
  | .connectEvent =>
    some (if ok then s.goto (if s.ipc then .ipcInit else .timerfdCreate)
      else (wlanLibnlClose s).goto (.returned 1))
  | .ipcInit =>
    some (if ok then (s.acquire .ipcServer).goto .timerfdCreate
      else (wlanLibnlClose s).goto (.returned 1))
  | .timerfdCreate =>
    some (if ok then (s.acquire .timerFd).goto .pthreadCreate else s.goto (.returned (-1)))
  | .pthreadCreate => some (s.goto (.pthreadDetach ok))
  | .pthreadDetach made => some (s.goto (if made || ok then .test else .undefined))
  | _ => none

/-- After the loop. -/
def close (s : State) : State :=
  let s := s.release .timerFd
  let s := if s.ipc then s.release .ipcServer else s
  (wlanLibnlClose s).goto (.returned 0)

def step (s : State) : Action → Option State
  | .call ok => call ok s
  | .test =>
    if s.pc = .test then some (s.goto (if s.running then .polling else .closing)) else none
  | .ready => if s.pc = .polling then some (s.goto .handling) else none
  | .interrupted => if s.pc = .polling then some (s.goto .test) else none
  | .pollFails => if s.pc = .polling then some (s.goto .closing) else none
  | .handled => if s.pc = .handling then some (s.goto .test) else none
  | .close => if s.pc = .closing then some (close s) else none
  | .signal => some { s with running := false }

/-! ## What is held where -/

/-- The resources that are held when `main` is at a place. -/
def owns (ipc : Bool) : Pc → List Resource
  | .nametoindex | .allocReq => []
  | .connectReq | .resolve | .allocEvent => [.reqSock]
  | .connectEvent | .ipcInit => [.reqSock, .eventSock]
  | .timerfdCreate | .returned (.negSucc _) =>
    [.reqSock, .eventSock] ++ if ipc then [.ipcServer] else []
  | .returned (.ofNat _) => []
  | _ => [.reqSock, .eventSock, .timerFd] ++ if ipc then [.ipcServer] else []

structure Inv (ipc : Bool) (s : State) : Prop where
  option : s.ipc = ipc
  held : s.held = fun r => decide (r ∈ owns ipc s.pc)
  stray : s.stray = []
  ipcInit : s.pc = .ipcInit → ipc = true

theorem start_inv (ipc : Bool) : Inv ipc (start ipc) :=
  ⟨rfl, rfl, rfl, fun h => Pc.noConfusion h⟩

/-- The state at a place, when everything is in order. -/
def orderly (ipc running : Bool) (pc : Pc) : State :=
  ⟨pc, ipc, running, fun r => decide (r ∈ owns ipc pc), []⟩

theorem Inv.eq_orderly {ipc : Bool} {s : State} (h : Inv ipc s) :
    s = orderly ipc s.running s.pc := by
  obtain ⟨pc, ipc', running, held, stray⟩ := s
  have hoption : ipc' = ipc := h.option
  have hheld : held = fun r => decide (r ∈ owns ipc pc) := h.held
  have hstray : stray = [] := h.stray
  rw [hoption, hheld, hstray]
  rfl

/-- A step between places that hold the same. -/
theorem goto_inv {ipc running : Bool} {pc pc' : Pc} (hsame : owns ipc pc' = owns ipc pc)
    (hinit : pc' = .ipcInit → ipc = true) : Inv ipc ((orderly ipc running pc).goto pc') := by
  refine ⟨rfl, ?_, rfl, hinit⟩
  show (fun r => decide (r ∈ owns ipc pc)) = fun r => decide (r ∈ owns ipc pc')
  rw [hsame]

theorem call_inv {ipc running ok : Bool} {pc : Pc} {t : State}
    (hinit : pc = .ipcInit → ipc = true) (h : call ok (orderly ipc running pc) = some t) :
    Inv ipc t := by
  cases pc with
  | nametoindex | allocReq | connectReq | resolve | allocEvent | timerfdCreate =>
    obtain rfl := Option.some.inj h
    cases ok <;> cases ipc <;>
      exact ⟨rfl, funext (fun r => by cases r <;> rfl), rfl, fun h => Pc.noConfusion h⟩
  | pthreadCreate =>
    obtain rfl := Option.some.inj h
    exact goto_inv rfl (fun h => Pc.noConfusion h)
  | pthreadDetach made =>
    obtain rfl := Option.some.inj h
    cases made <;> cases ok <;> exact goto_inv rfl (fun h => Pc.noConfusion h)
  | connectEvent =>
    obtain rfl := Option.some.inj h
    cases ok <;> cases ipc
    case true.true => exact ⟨rfl, rfl, rfl, fun _ => rfl⟩
    all_goals
      exact ⟨rfl, funext (fun r => by cases r <;> rfl), rfl, fun h => Pc.noConfusion h⟩
  | ipcInit =>
    obtain rfl := hinit rfl
    obtain rfl := Option.some.inj h
    cases ok <;>
      exact ⟨rfl, funext (fun r => by cases r <;> rfl), rfl, fun h => Pc.noConfusion h⟩
  | _ => exact absurd h.symm (Option.some_ne_none t)

theorem close_inv {ipc running : Bool} : Inv ipc (close (orderly ipc running .closing)) := by
  cases ipc <;>
    exact ⟨rfl, funext (fun r => by cases r <;> rfl), rfl, fun h => Pc.noConfusion h⟩

theorem step_inv {ipc : Bool} {s t : State} {a : Action} (h : Inv ipc s)
    (hstep : step s a = some t) : Inv ipc t := by
  have hinit := h.ipcInit
  rw [h.eq_orderly] at hstep
  generalize s.running = running at hstep
  generalize s.pc = pc at hstep hinit
  cases a with
  | call ok => exact call_inv hinit hstep
  | test =>
    obtain ⟨hpc, rfl⟩ := Option.ite_some_none_eq_some.mp hstep
    obtain rfl : pc = .test := hpc
    cases running <;> exact goto_inv rfl (fun h => Pc.noConfusion h)
  | ready =>
    obtain ⟨hpc, rfl⟩ := Option.ite_some_none_eq_some.mp hstep
    obtain rfl : pc = .polling := hpc
    exact goto_inv rfl (fun h => Pc.noConfusion h)
  | interrupted =>
    obtain ⟨hpc, rfl⟩ := Option.ite_some_none_eq_some.mp hstep
    obtain rfl : pc = .polling := hpc
    exact goto_inv rfl (fun h => Pc.noConfusion h)
  | pollFails =>
    obtain ⟨hpc, rfl⟩ := Option.ite_some_none_eq_some.mp hstep
    obtain rfl : pc = .polling := hpc
    exact goto_inv rfl (fun h => Pc.noConfusion h)
  | handled =>
    obtain ⟨hpc, rfl⟩ := Option.ite_some_none_eq_some.mp hstep
    obtain rfl : pc = .handling := hpc
    exact goto_inv rfl (fun h => Pc.noConfusion h)
  | close =>
    obtain ⟨hpc, rfl⟩ := Option.ite_some_none_eq_some.mp hstep
    obtain rfl : pc = .closing := hpc
    exact close_inv
  | signal =>
    obtain rfl := Option.some.inj hstep
    exact ⟨rfl, rfl, rfl, hinit⟩

/-! ## Whole runs -/

section Runs

variable {ipc : Bool} {acts front back : List Action} {s mid : State}

theorem run_inv (hrun : exec step (start ipc) acts = some s) : Inv ipc s :=
  exec_invariant (fun _ _ _ h hstep => step_inv h hstep) (start_inv ipc) hrun

/-- `main` has returned below 0. -/
def Pc.abandoned : Pc → Bool
  | .returned code => decide (code < 0)
  | _ => false

theorem abandoned_iff {code : Int} (hreturned : s.pc = .returned code) :
    s.pc.abandoned = true ↔ code < 0 := by
  rw [hreturned]
  exact decide_eq_true_iff

/-- `timerfd_create` fails in this step. -/
def TimerFails (s : State) (a : Action) : Prop := s.pc = .timerfdCreate ∧ a = .call false

theorem call_abandoned {ok : Bool} {s t : State} (hstep : call ok s = some t) :
    t.pc.abandoned = true ↔ TimerFails s (.call ok) := by
  obtain ⟨pc, ipc, running, held, stray⟩ := s
  cases pc with
  | timerfdCreate =>
    obtain rfl := Option.some.inj hstep
    cases ok with
    | true => exact iff_of_false Bool.false_ne_true (fun h => Action.noConfusion h.2 (by decide))
    | false => exact iff_of_true rfl ⟨rfl, rfl⟩
  | nametoindex | allocReq | connectReq | resolve | allocEvent | connectEvent | ipcInit
  | pthreadCreate =>
    obtain rfl := Option.some.inj hstep
    refine iff_of_false ?_ (fun h => Pc.noConfusion h.1)
    cases ok <;> cases ipc <;> exact Bool.false_ne_true
  | pthreadDetach made =>
    obtain rfl := Option.some.inj hstep
    refine iff_of_false ?_ (fun h => Pc.noConfusion h.1)
    cases made <;> cases ok <;> exact Bool.false_ne_true
  | _ => exact absurd hstep.symm (Option.some_ne_none t)

/-- `main` returns below 0 in the step in which `timerfd_create` fails, and in no other. -/
theorem step_abandoned {s t : State} {a : Action} (hstep : step s a = some t) :
    t.pc.abandoned = true ↔ s.pc.abandoned = true ∨ TimerFails s a := by
  -- From where `main` is in its loop no step leads to a return below 0.
  have hloop : a ≠ .call false → s.pc.abandoned = false → t.pc.abandoned = false →
      (t.pc.abandoned = true ↔ s.pc.abandoned = true ∨ TimerFails s a) := by
    intro ha hs ht
    rw [hs, ht]
    refine iff_of_false Bool.false_ne_true ?_
    rintro (h | h)
    · exact Bool.false_ne_true h
    · exact ha h.2
  cases a with
  | call ok =>
    have hbusy : s.pc.abandoned = false := by
      obtain ⟨pc, ipc, running, held, stray⟩ := s
      cases pc with
      | returned code => exact absurd hstep.symm (Option.some_ne_none t)
      | _ => rfl
    rw [call_abandoned hstep, hbusy, or_iff_right Bool.false_ne_true]
  | test =>
    obtain ⟨hpc, rfl⟩ := Option.ite_some_none_eq_some.mp hstep
    refine hloop Action.noConfusion (hpc ▸ rfl) ?_
    cases hrunning : s.running <;> rw [State.goto, hrunning] <;> rfl
  | ready =>
    obtain ⟨hpc, rfl⟩ := Option.ite_some_none_eq_some.mp hstep
    exact hloop Action.noConfusion (hpc ▸ rfl) rfl
  | interrupted =>
    obtain ⟨hpc, rfl⟩ := Option.ite_some_none_eq_some.mp hstep
    exact hloop Action.noConfusion (hpc ▸ rfl) rfl
  | pollFails =>
    obtain ⟨hpc, rfl⟩ := Option.ite_some_none_eq_some.mp hstep
    exact hloop Action.noConfusion (hpc ▸ rfl) rfl
  | handled =>
    obtain ⟨hpc, rfl⟩ := Option.ite_some_none_eq_some.mp hstep
    exact hloop Action.noConfusion (hpc ▸ rfl) rfl
  | close =>
    obtain ⟨hpc, rfl⟩ := Option.ite_some_none_eq_some.mp hstep
    exact hloop Action.noConfusion (hpc ▸ rfl) rfl
  | signal =>
    obtain rfl := Option.some.inj hstep
    exact (or_iff_left (fun h => Action.noConfusion h.2)).symm

theorem run_abandoned {s t : State} (hrun : exec step s acts = some t) :
    t.pc.abandoned = true ↔ s.pc.abandoned = true ∨ ∃ front a back mid,
      acts = front ++ a :: back ∧ exec step s front = some mid ∧ TimerFails mid a := by
  induction acts generalizing s with
  | nil =>
    rw [exec_nil, Option.some.injEq] at hrun
    rw [hrun]
    refine (or_iff_left ?_).symm
    rintro ⟨front, a, back, mid, hsplit, -⟩
    exact List.append_ne_nil_of_right_ne_nil front (List.cons_ne_nil a back) hsplit.symm
  | cons a acts ih =>
    obtain ⟨u, hu, hrest⟩ := exists_step_of_exec hrun
    rw [ih hrest, step_abandoned hu, or_assoc]
    refine or_congr_right ⟨?_, ?_⟩
    · rintro (hfails | ⟨front, b, back, mid, rfl, hmid, hfails⟩)
      · exact ⟨[], a, acts, s, rfl, rfl, hfails⟩
      · exact ⟨a :: front, b, back, mid, rfl, exec_cons hu hmid, hfails⟩
    · rintro ⟨front, b, back, mid, hsplit, hmid, hfails⟩
      cases front with
      | nil =>
        obtain ⟨rfl, -⟩ := List.cons.inj hsplit
        obtain rfl := Option.some.inj hmid
        exact .inl hfails
      | cons c front =>
        obtain ⟨rfl, rfl⟩ := List.cons.inj hsplit
        obtain ⟨v, hv, hvmid⟩ := exists_step_of_exec hmid
        obtain rfl := Option.some.inj (hu.symm.trans hv)
        exact .inr ⟨front, b, back, mid, rfl, hvmid, hfails⟩

/-- In every state of every run nothing has been given back that was not held.  When `main`
returns it holds nothing, unless it returns below 0, which it does if `timerfd_create` failed
and in no other case, and then it keeps the sockets. -/
theorem main_returns_resources (hrun : exec step (start ipc) acts = some s) :
    s.stray = [] ∧ ∀ code, s.pc = .returned code →
      (0 ≤ code → ∀ r, s.held r = false) ∧
        (code < 0 ↔ ∃ front back mid, acts = front ++ .call false :: back ∧
          exec step (start ipc) front = some mid ∧ mid.pc = .timerfdCreate) ∧
        (code < 0 → ∀ r, s.held r = true ↔
          r = .reqSock ∨ r = .eventSock ∨ r = .ipcServer ∧ ipc = true) := by
  have h := run_inv hrun
  refine ⟨h.stray, fun code hreturned => ⟨fun hcode r => ?_, ?_, fun hcode r => ?_⟩⟩
  · rw [h.held, hreturned]
    obtain ⟨n, rfl⟩ := Int.eq_ofNat_of_zero_le hcode
    rfl
  · rw [← abandoned_iff hreturned, run_abandoned hrun]
    refine (or_iff_right Bool.false_ne_true).trans ⟨?_, ?_⟩
    · rintro ⟨front, a, back, mid, hsplit, hmid, hpc, rfl⟩
      exact ⟨front, back, mid, hsplit, hmid, hpc⟩
    · rintro ⟨front, back, mid, hsplit, hmid, hpc⟩
      exact ⟨front, .call false, back, mid, hsplit, hmid, hpc, rfl⟩
  · rw [h.held, hreturned]
    obtain ⟨n, rfl⟩ := Int.eq_negSucc_of_lt_zero hcode
    cases ipc <;> cases r <;> simp [owns]

def isPass : Action → Bool
  | .ready => true
  | _ => false

/-- The passes that can still come once the flag is cleared. -/
def left (s : State) : Nat := if s.pc = .polling then 1 else 0

theorem left_of_ne {s : State} (h : s.pc ≠ .polling) : left s = 0 := if_neg h

/-- The start-up does not touch the flag and does not lead into `poll`. -/
theorem call_left {ipc ok : Bool} {s t : State} (h : Inv ipc s) (hstep : call ok s = some t) :
    t.running = s.running ∧ t.pc ≠ .polling := by
  rw [h.eq_orderly] at hstep
  generalize s.running = running at hstep ⊢
  generalize s.pc = pc at hstep
  cases pc with
  | nametoindex | allocReq | connectReq | resolve | allocEvent | connectEvent | ipcInit
  | timerfdCreate | pthreadCreate =>
    obtain rfl := Option.some.inj hstep
    cases ok <;> cases ipc <;> exact ⟨rfl, fun h => Pc.noConfusion h⟩
  | pthreadDetach made =>
    obtain rfl := Option.some.inj hstep
    cases made <;> cases ok <;> exact ⟨rfl, fun h => Pc.noConfusion h⟩
  | _ => exact absurd hstep.symm (Option.some_ne_none t)

theorem close_left {ipc : Bool} {s : State} (h : Inv ipc s) (hpc : s.pc = .closing) :
    (close s).running = s.running ∧ (close s).pc ≠ .polling := by
  rw [h.eq_orderly, hpc]
  cases ipc <;> exact ⟨rfl, fun h => Pc.noConfusion h⟩

/-- Once the flag is cleared, only the `poll` that `main` is in can still lead to a pass. -/
theorem step_left {s t : State} {a : Action} (h : Inv ipc s) (hstopped : s.running = false)
    (hstep : step s a = some t) :
    t.running = false ∧ left t + [a].countP isPass ≤ left s := by
  cases a with
  | call ok =>
    obtain ⟨hrunning, hpc⟩ := call_left h hstep
    rw [left_of_ne hpc]
    exact ⟨hrunning.trans hstopped, Nat.zero_le _⟩
  | test =>
    obtain ⟨-, rfl⟩ := Option.ite_some_none_eq_some.mp hstep
    have hpc : (s.goto (if s.running then .polling else .closing)).pc ≠ .polling := by
      rw [hstopped]
      exact fun h => Pc.noConfusion h
    rw [left_of_ne hpc]
    exact ⟨hstopped, Nat.zero_le _⟩
  | ready =>
    obtain ⟨hpc, rfl⟩ := Option.ite_some_none_eq_some.mp hstep
    have hpoll : left s = 1 := if_pos hpc
    rw [hpoll]
    exact ⟨hstopped, Nat.le_refl 1⟩
  | interrupted =>
    obtain ⟨-, rfl⟩ := Option.ite_some_none_eq_some.mp hstep
    exact ⟨hstopped, Nat.zero_le _⟩
  | pollFails =>
    obtain ⟨-, rfl⟩ := Option.ite_some_none_eq_some.mp hstep
    exact ⟨hstopped, Nat.zero_le _⟩
  | handled =>
    obtain ⟨-, rfl⟩ := Option.ite_some_none_eq_some.mp hstep
    exact ⟨hstopped, Nat.zero_le _⟩
  | close =>
    obtain ⟨hpc, rfl⟩ := Option.ite_some_none_eq_some.mp hstep
    obtain ⟨hrunning, hpc⟩ := close_left h hpc
    rw [left_of_ne hpc]
    exact ⟨hrunning.trans hstopped, Nat.zero_le _⟩
  | signal =>
    obtain rfl := Option.some.inj hstep
    exact ⟨rfl, Nat.le_refl _⟩

theorem passes_le_left {s t : State} (h : Inv ipc s) (hstopped : s.running = false)
    (hrun : exec step s acts = some t) : acts.countP isPass ≤ left s := by
  induction acts generalizing s with
  | nil => exact Nat.zero_le _
  | cons a acts ih =>
    obtain ⟨u, hu, hrest⟩ := exists_step_of_exec hrun
    obtain ⟨hrunning, hleft⟩ := step_left h hstopped hu
    have hacts := ih (step_inv h hu) hrunning hrest
    have hsplit : (a :: acts).countP isPass = [a].countP isPass + acts.countP isPass := by
      rw [← List.countP_append, List.singleton_append]
    omega

/-- After a signal the loop makes at most one more pass, whenever the signal comes. -/
theorem one_pass_after_signal (hfront : exec step (start ipc) front = some mid)
    (hback : exec step mid (.signal :: back) = some s) : back.countP isPass ≤ 1 := by
  obtain ⟨t, ht, hrest⟩ := exists_step_of_exec hback
  have hstopped : t.running = false := by
    obtain rfl := Option.some.inj ht
    rfl
  have hle := passes_le_left (step_inv (run_inv hfront) ht) hstopped hrest
  refine Nat.le_trans hle ?_
  rw [left]
  split
  · exact Nat.le_refl 1
  · exact Nat.zero_le 1

end Runs

/-- With the option `-s`, as far as `poll`. -/
def serving : List Action := List.replicate 10 (.call true) ++ [.test]

theorem one_pass_after_signal_serving :
    ∃ mid s, exec step (start true) serving = some mid ∧
      exec step mid [.signal, .ready, .handled, .test, .close] = some s ∧
      [Action.ready, .handled, .test, .close].countP isPass ≤ 1 := by
  obtain ⟨mid, hmid⟩ : ∃ mid, exec step (start true) serving = some mid := ⟨_, rfl⟩
  obtain ⟨s, hs⟩ : ∃ s, exec step mid [.signal, .ready, .handled, .test, .close] = some s := by
    obtain rfl := Option.some.inj hmid
    exact ⟨_, rfl⟩
  exact ⟨mid, s, hmid, hs, one_pass_after_signal hmid hs⟩

/-- With the option `-s`, and no timer. -/
def noTimer : List Action := List.replicate 7 (.call true) ++ [.call false]

theorem main_returns_resources_noTimer :
    ∃ s, exec step (start true) noTimer = some s ∧ s.pc = .returned (-1) ∧
      s.held .ipcServer = true := by
  obtain ⟨s, hrun⟩ : ∃ s, exec step (start true) noTimer = some s := ⟨_, rfl⟩
  have hpc : s.pc = .returned (-1) := by
    obtain rfl := Option.some.inj hrun
    rfl
  obtain ⟨-, -, hheld⟩ := (main_returns_resources hrun).2 (-1) hpc
  exact ⟨s, hrun, hpc, (hheld (by decide) .ipcServer).mpr (.inr (.inr ⟨rfl, rfl⟩))⟩

end Lifecycle
end Wlinkd
end LinuxLab
