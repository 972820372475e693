import Mathlib.Logic.Function.Basic
import LinuxLab.Lib.CString
import LinuxLab.Lib.Exec

/-!
# tcp_server: the management port

`client_handler` runs once for each TCP client, in a thread of its own, beside the
main thread that calls `tcp_server_push_event`.  They share the event buffer and
its sequence counter.  A step of the model is a section under the lock, or what a
thread does on its own between two sections.  A wait on the condition variable ends
one section, and the wake-up starts the next one; a wake-up may have any cause.

Two things are written down beside the program's variables, and nothing reads them:
all events pushed so far, and for each client its monitor sessions with the events
taken in each.
-/

namespace LinuxLab
namespace Wlinkd

open Lib

def tcpServerBuf : Nat := 1024

/-- What the lock protects, and the events pushed so far, oldest first. -/
structure TcpShared where
  gSeq : UInt64
  gPushEvent : CString
  pushed : List CString
deriving DecidableEq, Repr

/-- One stay in monitor mode: the number of events pushed before it, and the events
taken.  Each comes with the number of events pushed when it was taken. -/
structure Session where
  entered : Nat
  taken : List (Nat × CString)
deriving DecidableEq, Repr

/-- Where a thread is in the monitor loop. -/
inductive MonitorPc where
  | top
  | waiting
  | sending (resp : CString)
  | polling
deriving DecidableEq, Repr

inductive ClientState where
  | closed
  -- In `recv` for the next command.
  | command
  -- In the monitor loop, with the local `last_seq`.
  | monitor (pc : MonitorPc) (lastSeq : UInt64) (session : Session)
deriving DecidableEq, Repr

/-- A client: its thread, the sessions it has left, and the texts passed to `send`. -/
structure Client where
  state : ClientState
  past : List Session
  sent : List CString
deriving DecidableEq, Repr

/-- The answer of `recv` with `MSG_DONTWAIT`. -/
inductive PollAnswer where
  | data
  | closed
  | again
  | failed
deriving DecidableEq, Repr

/-- What a client's thread does next, with what the system answers it. -/
inductive ClientAction where
  | accept
  -- `recv` of a command, `none` when it fails or the client is gone.  `status` is
  -- the text of `wlan_core_build_status` at that time.
  | command (req : Option CString) (status : CString)
  | lock
  | wake (timedOut : Bool)
  | send (ok : Bool)
  | poll (answer : PollAnswer)
deriving DecidableEq, Repr

inductive TcpStep (ι : Type) where
  | push (arg bssid : CString)
  | client (i : ι) (a : ClientAction)
deriving DecidableEq, Repr

structure TcpServer (ι : Type) where
  shared : TcpShared
  clients : ι → Client

def Session.take (n : Nat) (event : CString) (ses : Session) : Session :=
  { ses with taken := ses.taken ++ [(n, event)] }

namespace Client

/-- The session that is going on, with the local `last_seq`. -/
def current (c : Client) : Option (UInt64 × Session) :=
  match c.state with
  | .monitor _ lastSeq ses => some (lastSeq, ses)
  | _ => none

def sessions (c : Client) : List Session := c.past ++ (c.current.map Prod.snd).toList

end Client

namespace TcpServer

/-- `tcp_server_push_event`. -/
def pushEvent (arg bssid : CString) (g : TcpShared) : TcpShared :=
  let event := snprintf (tcpServerBuf - 1) (arg ++ ' ' :: bssid)
  { gSeq := g.gSeq + 1, gPushEvent := event, pushed := g.pushed ++ [event] }

def commandText (req : CString) : CString :=
  req.takeWhile (fun c => c ≠ '\x00' ∧ c ≠ '\r' ∧ c ≠ '\n')

/-- The rest of the section after the wait: take a new event, or go on to poll. -/
def takeEvent (g : TcpShared) (lastSeq : UInt64) (ses : Session) : ClientState :=
  if g.gSeq ≠ lastSeq then
    let buf := strncpy g.gPushEvent (tcpServerBuf - 1)
    let resp := snprintf (tcpServerBuf * 2) ("event: ".toList ++ buf ++ ['\n'])
    .monitor (.sending resp) g.gSeq (ses.take g.pushed.length buf)
  else .monitor .polling lastSeq ses

/-- The command loop of `client_handler`, for one request. -/
def handleCommand (g : TcpShared) (req status : CString) (c : Client) : Client :=
  let text := commandText req
  if text = "status".toList then { c with sent := c.sent ++ [status] }
  else if text = "monitor".toList then
    { c with
      state := .monitor .top g.gSeq { entered := g.pushed.length, taken := [] },
      sent := c.sent ++ ["Now monitoring (press Enter to stop)\n".toList] }
  else if text = "exit".toList then
    { c with state := .closed, sent := c.sent ++ ["Bye\n\x00".toList] }
  else
    { c with sent := c.sent ++
        [snprintf (tcpServerBuf * 2) ("unknown cmmand: ".toList ++ text ++ ['\n'])] }

def leaveMonitor (ses : Session) (c : Client) : Client :=
  { c with state := .command, past := c.past ++ [ses] }

/-- One step of `client_handler`. -/
def clientStep (g : TcpShared) (c : Client) (a : ClientAction) : Option Client :=
  match c.state, a with
  | .closed, .accept => some { c with state := .command }
  | .command, .command none _ => some { c with state := .closed }
  | .command, .command (some req) status => some (handleCommand g req status c)
  | .monitor .top lastSeq ses, .lock =>
    if g.gSeq = lastSeq then some { c with state := .monitor .waiting lastSeq ses }
    else some { c with state := takeEvent g lastSeq ses }
  | .monitor .waiting lastSeq ses, .wake timedOut =>
    if timedOut = false ∧ g.gSeq = lastSeq then some c
    else some { c with state := takeEvent g lastSeq ses }
  | .monitor (.sending resp) lastSeq ses, .send ok =>
    let c := { c with sent := c.sent ++ [resp] }
    if ok then some { c with state := .monitor .polling lastSeq ses }
    else some (leaveMonitor ses c)
  | .monitor .polling lastSeq ses, .poll answer =>
    match answer with
    | .data => some (leaveMonitor ses { c with sent := c.sent ++ ["Monitoring bye\n\x00".toList] })
    | .again => some { c with state := .monitor .top lastSeq ses }
    | .closed | .failed => some (leaveMonitor ses c)
  | _, _ => none

variable {ι : Type} [DecidableEq ι]

def init : TcpServer ι :=
  { shared := { gSeq := 0, gPushEvent := [], pushed := [] },
    clients := fun _ => { state := .closed, past := [], sent := [] } }

def step (s : TcpServer ι) : TcpStep ι → Option (TcpServer ι)
  | .push arg bssid => some { s with shared := pushEvent arg bssid s.shared }
  | .client i a =>
    (clientStep s.shared (s.clients i) a).map
      (fun c => { s with clients := Function.update s.clients i c })

/-! ## What a step can do -/

/-- What a step of a client can do to its sessions. -/
inductive ClientChange (g : TcpShared) (c c' : Client) : Prop where
  | same (hcurrent : c'.current = c.current) (hpast : c'.past = c.past)
  | enter (hcommand : c.current = none)
      (hcurrent : c'.current = some (g.gSeq, { entered := g.pushed.length, taken := [] }))
      (hpast : c'.past = c.past)
  | take {lastSeq : UInt64} {ses : Session} (hmonitor : c.current = some (lastSeq, ses))
      (hnew : g.gSeq ≠ lastSeq)
      (hcurrent : c'.current = some (g.gSeq,
        ses.take g.pushed.length (strncpy g.gPushEvent (tcpServerBuf - 1))))
      (hpast : c'.past = c.past)
  | leave {lastSeq : UInt64} {ses : Session} (hmonitor : c.current = some (lastSeq, ses))
      (hcurrent : c'.current = none) (hpast : c'.past = c.past ++ [ses])

theorem current_inj {c : Client} {lastSeq lastSeq' : UInt64} {ses ses' : Session}
    (h : c.current = some (lastSeq, ses)) (h' : c.current = some (lastSeq', ses')) :
    lastSeq = lastSeq' ∧ ses = ses' :=
  Prod.mk.inj (Option.some.inj (h.symm.trans h'))

theorem clientChange_takeEvent {g : TcpShared} {c : Client} {lastSeq : UInt64} {ses : Session}
    (h : c.current = some (lastSeq, ses)) :
    ClientChange g c { c with state := takeEvent g lastSeq ses } := by
  by_cases hseq : g.gSeq = lastSeq
  · exact .same (by rw [h]; simp [Client.current, takeEvent, hseq]) rfl
  · exact .take h hseq (by simp [Client.current, takeEvent, hseq]) rfl

theorem clientChange_handleCommand {g : TcpShared} {c : Client} (req status : CString)
    (h : c.state = .command) : ClientChange g c (handleCommand g req status c) := by
  have hcurrent : c.current = none := by simp [Client.current, h]
  rw [handleCommand]
  by_cases hstatus : commandText req = "status".toList
  · rw [if_pos hstatus]
    exact .same rfl rfl
  · by_cases hmonitor : commandText req = "monitor".toList
    · rw [if_neg hstatus, if_pos hmonitor]
      exact .enter hcurrent rfl rfl
    · by_cases hexit : commandText req = "exit".toList
      · rw [if_neg hstatus, if_neg hmonitor, if_pos hexit]
        exact .same hcurrent.symm rfl
      · rw [if_neg hstatus, if_neg hmonitor, if_neg hexit]
        exact .same rfl rfl

theorem clientStep_change {g : TcpShared} {c c' : Client} {a : ClientAction}
    (h : clientStep g c a = some c') : ClientChange g c c' := by
  unfold clientStep at h
  split at h
  next hstate =>
    obtain rfl := Option.some.inj h
    exact .same (by simp [Client.current, hstate]) rfl
  next hstate =>
    obtain rfl := Option.some.inj h
    exact .same (by simp [Client.current, hstate]) rfl
  next req status hstate =>
    obtain rfl := Option.some.inj h
    exact clientChange_handleCommand req status hstate
  next lastSeq ses hstate =>
    have hcurrent : c.current = some (lastSeq, ses) := by simp [Client.current, hstate]
    split at h
    · obtain rfl := Option.some.inj h
      exact .same hcurrent.symm rfl
    · obtain rfl := Option.some.inj h
      exact clientChange_takeEvent hcurrent
  next lastSeq ses timedOut hstate =>
    have hcurrent : c.current = some (lastSeq, ses) := by simp [Client.current, hstate]
    split at h
    · obtain rfl := Option.some.inj h
      exact .same rfl rfl
    · obtain rfl := Option.some.inj h
      exact clientChange_takeEvent hcurrent
  next resp lastSeq ses ok hstate =>
    have hcurrent : c.current = some (lastSeq, ses) := by simp [Client.current, hstate]
    dsimp only at h
    split at h
    · obtain rfl := Option.some.inj h
      exact .same hcurrent.symm rfl
    · obtain rfl := Option.some.inj h
      exact .leave hcurrent rfl rfl
  next lastSeq ses answer hstate =>
    have hcurrent : c.current = some (lastSeq, ses) := by simp [Client.current, hstate]
    cases answer with
    | data =>
      obtain rfl := Option.some.inj h
      exact .leave hcurrent rfl rfl
    | again =>
      obtain rfl := Option.some.inj h
      exact .same hcurrent.symm rfl
    | closed =>
      obtain rfl := Option.some.inj h
      exact .leave hcurrent rfl rfl
    | failed =>
      obtain rfl := Option.some.inj h
      exact .leave hcurrent rfl rfl
  next => cases h

/-- Seen from one client, a step is a push, a step of its own, or nothing. -/
inductive StepFor (i : ι) (s : TcpServer ι) (x : TcpStep ι) (s' : TcpServer ι) : Prop where
  | push {arg bssid : CString} (hx : x = .push arg bssid)
      (hshared : s'.shared = pushEvent arg bssid s.shared) (hclient : s'.clients i = s.clients i)
  | own {a : ClientAction} (hx : x = .client i a) (hshared : s'.shared = s.shared)
      (hclient : clientStep s.shared (s.clients i) a = some (s'.clients i))
  | other {j : ι} {a : ClientAction} (hx : x = .client j a) (hne : j ≠ i)
      (hshared : s'.shared = s.shared) (hclient : s'.clients i = s.clients i)

theorem stepFor_of_step {s s' : TcpServer ι} {x : TcpStep ι} (i : ι) (h : step s x = some s') :
    StepFor i s x s' := by
  cases x with
  | push arg bssid =>
    obtain rfl := Option.some.inj h
    exact .push rfl rfl rfl
  | client j a =>
    obtain ⟨c, hc, rfl⟩ := Option.map_eq_some_iff.mp h
    by_cases hj : j = i
    · subst hj
      have hself : Function.update s.clients j c j = c := Function.update_self j c s.clients
      exact .own rfl rfl (hc.trans (congrArg some hself.symm))
    · exact .other rfl hj rfl (Function.update_of_ne (Ne.symm hj) _ _)

end TcpServer
end Wlinkd
end LinuxLab
