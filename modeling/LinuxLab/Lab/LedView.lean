import LinuxLab.Core.LedWatcher
import LinuxLab.Wlinkd.Occupancy

/-!
# The LEDs, the daemon and the watcher together

Three parties act on the LEDs: the daemon writes the device once when it starts,
pushes events to its subscribers afterwards, and the watcher writes the events it
receives.  The model interleaves the start-up of `main.c`, the passes of its poll
loop, the single pushes of a pass, the handling of `SUBSCRIBE`, and the steps of
`led_watcher_thread`.  Each message is received whole and no send fails.

A subscriber is told what happens from then on and not what is the case, so the
LEDs follow the station list if the list is empty when the subscription is taken.
-/

namespace LinuxLab
namespace LedView

open Relation Lib LedGpio Wlinkd WlanUtils WlanNl80211 LinuxLab.Core

/-- How far `main` has come. -/
inductive Phase where
  | starting
  | coreReady
  | listening
  | running
deriving DecidableEq, Repr

/-- Where `led_watcher_thread` is.  In `requested` and `answered` it waits for the
reply, which the daemon has sent in `answered`. -/
inductive Watcher where
  | idle
  | connected
  | requested
  | answered
  | watching
  | writing (text : CString)
deriving DecidableEq, Repr

/-- Both processes, the socket between them and the LED device.  `outbox` has the
events that the pass of the main loop that is going on has still to push. -/
structure Lab where
  daemon : Daemon
  phase : Phase
  outbox : List StaEvent
  registered : Bool
  watcher : Watcher
  queue : List CString
  led : LedDriver
deriving DecidableEq, Repr

inductive LabStep where
  -- `wlan_core_init`, with the refresh in it.
  | coreInit (r : RefreshInput)
  | ipcInit
  | ledOff
  -- A pass of the poll loop that handles an event or the timer.
  | mainPass (x : MainStep)
  -- One call of `ipc_push_event`.
  | ipcPushEvent
  -- A pass that handles the request of the watcher.  `full` says that eight other
  -- clients are registered.
  | ipcHandler (full : Bool)
  | connect
  | sendSubscribe
  | recvReply (stale : CString)
  | recvEvent
  | writeLed
deriving DecidableEq, Repr

def errFull : CString := "ERR full\n".toList

def newMessages (d d' : Daemon) : List StaEvent :=
  ipcMessages (d'.mgr.out.drop d.mgr.out.length)

def start (d : Daemon) (led : LedDriver) : Lab :=
  { daemon := d, phase := .starting, outbox := [], registered := false, watcher := .idle,
    queue := [], led := led }

/-! ## The daemon -/

def coreInit (r : RefreshInput) (s : Lab) : Option Lab :=
  if s.phase = .starting then
    (refresh r s.daemon).map
      (fun d => { s with daemon := d, phase := .coreReady, outbox := newMessages s.daemon d })
  else none

def ipcInit (s : Lab) : Option Lab :=
  if s.phase = .coreReady ∧ s.outbox = [] then some { s with phase := .listening } else none

def ledOff (s : Lab) : Option Lab :=
  if s.phase = .listening then
    some { s with phase := .running, led := writeText "sta_leave".toList s.led }
  else none

def mainPass (x : MainStep) (s : Lab) : Option Lab :=
  if s.phase = .running ∧ s.outbox = [] then
    (mainStep s.daemon x).map (fun d => { s with daemon := d, outbox := newMessages s.daemon d })
  else none

def ipcPushEvent (s : Lab) : Option Lab :=
  match s.outbox with
  | [] => none
  | e :: rest =>
    some { s with outbox := rest,
                  queue := if s.registered then s.queue ++ [e.line] else s.queue }

/-- `ipc_handler` for the watcher's `SUBSCRIBE`. -/
def ipcHandler (full : Bool) (s : Lab) : Option Lab :=
  if s.phase = .running ∧ s.outbox = [] ∧ s.watcher = .requested then
    if full then some { s with watcher := .answered, queue := s.queue ++ [errFull] }
    else some { s with registered := true, watcher := .answered,
                       queue := s.queue ++ [LedWatcher.okReply] }
  else none

/-! ## The watcher -/

def connect (s : Lab) : Option Lab :=
  if s.watcher = .idle ∧ (s.phase = .listening ∨ s.phase = .running) then
    some { s with watcher := .connected }
  else none

def sendSubscribe (s : Lab) : Option Lab :=
  if s.watcher = .connected then some { s with watcher := .requested } else none

/-- The reply is read; without `OK` the thread closes the connection and starts over. -/
def recvReply (stale : CString) (s : Lab) : Option Lab :=
  match s.watcher, s.queue with
  | .answered, first :: rest =>
    if LedWatcher.subscribed stale first then some { s with watcher := .watching, queue := rest }
    else some { s with watcher := .idle, queue := [] }
  | _, _ => none

def recvEvent (s : Lab) : Option Lab :=
  match s.watcher, s.queue with
  | .watching, buf :: rest =>
    match LedWatcher.command buf with
    | some text => some { s with watcher := .writing text, queue := rest }
    | none => some { s with queue := rest }
  | _, _ => none

def writeLed (s : Lab) : Option Lab :=
  match s.watcher with
  | .writing text =>
    some { s with watcher := .watching, led := writeText text s.led }
  | _ => none

def labStep (s : Lab) : LabStep → Option Lab
  | .coreInit r => coreInit r s
  | .ipcInit => ipcInit s
  | .ledOff => ledOff s
  | .mainPass x => mainPass x s
  | .ipcPushEvent => ipcPushEvent s
  | .ipcHandler full => ipcHandler full s
  | .connect => connect s
  | .sendSubscribe => sendSubscribe s
  | .recvReply stale => recvReply stale s
  | .recvEvent => recvEvent s
  | .writeLed => writeLed s

def EmptyWhenTaken (s : Lab) : LabStep → Prop
  | .ipcHandler false => s.daemon.mgr.head = []
  | _ => True

/-! ## The invariant -/

/-- A watcher that is not registered, and what waits for it in the socket. -/
inductive Outside : Watcher → List CString → Prop where
  | idle : Outside .idle []
  | connected : Outside .connected []
  | requested : Outside .requested []
  | refused : Outside .answered [errFull]

/-- A watcher that is registered, what it has to read before the events, and the event
it has read and not yet written. -/
inductive Inside : Watcher → List CString → List StaEvent → Prop where
  | answered : Inside .answered [LedWatcher.okReply] []
  | watching : Inside .watching [] []
  | writing (e : StaEvent) : Inside (.writing e.text) [] [e]

theorem Outside.queue_eq_nil {w : Watcher} {q : List CString} (h : Outside w q)
    (hw : w ≠ .answered) : q = [] := by
  cases h with
  | refused => exact absurd rfl hw
  | _ => rfl

/-- Before the subscription the LEDs are off.  From then on the events in flight lead
from the LEDs as they are to the LEDs that show the list. -/
inductive View (s : Lab) : Prop where
  | apart (hreg : s.registered = false) (hout : Outside s.watcher s.queue)
      (hoff : s.phase = .running → AllOff s.led)
  | joined (hreg : s.registered = true) (hphase : s.phase = .running) {reply : List CString}
      {wait : List StaEvent} (events : List StaEvent) (hin : Inside s.watcher reply wait)
      (hqueue : s.queue = reply ++ events.map StaEvent.line)
      (hshows : Shows (writeEvents (wait ++ events ++ s.outbox) s.led) s.daemon.mgr.head)

theorem shows_newMessages {d d' : Daemon} {led : LedDriver} (h : Tracks d.mgr d'.mgr)
    (hshows : Shows led d.mgr.head) : Shows (writeEvents (newMessages d d') led) d'.mgr.head := by
  obtain ⟨new, hout, hstep⟩ := h
  rw [newMessages, hout, List.drop_left]
  exact hstep led hshows

theorem write_text (led : LedDriver) (e : StaEvent) :
    writeText e.text led = writeEvent led e := by
  cases e <;> rfl

theorem command_line (e : StaEvent) : LedWatcher.command e.line = some e.text :=
  LedWatcher.command_eq_some (u := []) ⟨[], rfl⟩ (by simp [StaEvent.line])

theorem subscribed_okReply (stale : CString) :
    LedWatcher.subscribed stale LedWatcher.okReply = true := rfl

theorem not_subscribed_errFull (stale : CString) :
    LedWatcher.subscribed stale errFull = false := rfl

/-! ## What the daemon's steps keep -/

theorem view_coreInit {s s' : Lab} {r : RefreshInput} (h : View s)
    (hstep : coreInit r s = some s') : View s' := by
  rw [coreInit] at hstep
  obtain ⟨hphase, hstep⟩ := Option.ite_none_right_eq_some.mp hstep
  obtain ⟨d, -, rfl⟩ := Option.map_eq_some_iff.mp hstep
  cases h with
  | apart hreg hout => exact .apart hreg hout (fun he => by cases he)
  | joined _ hrunning => cases hphase.symm.trans hrunning

theorem view_ipcInit {s s' : Lab} (h : View s) (hstep : ipcInit s = some s') :
    View s' := by
  rw [ipcInit] at hstep
  obtain ⟨⟨hphase, -⟩, rfl⟩ := Option.ite_some_none_eq_some.mp hstep
  cases h with
  | apart hreg hout => exact .apart hreg hout (fun he => by cases he)
  | joined _ hrunning => cases hphase.symm.trans hrunning

theorem view_ledOff {s s' : Lab} (h : View s) (hstep : ledOff s = some s') :
    View s' := by
  rw [ledOff] at hstep
  obtain ⟨hphase, rfl⟩ := Option.ite_some_none_eq_some.mp hstep
  cases h with
  | apart hreg hout => exact .apart hreg hout (fun _ => allOff_write_leave rfl s.led)
  | joined _ hrunning => cases hphase.symm.trans hrunning

theorem view_mainPass {s s' : Lab} {x : MainStep} (h : View s)
    (hstep : mainPass x s = some s') : View s' := by
  rw [mainPass] at hstep
  obtain ⟨⟨-, houtbox⟩, hstep⟩ := Option.ite_none_right_eq_some.mp hstep
  obtain ⟨d, hmain, rfl⟩ := Option.map_eq_some_iff.mp hstep
  cases h with
  | apart hreg hout hoff => exact .apart hreg hout hoff
  | joined hreg hphase events hin hqueue hshows =>
    refine .joined hreg hphase events hin hqueue ?_
    rw [houtbox, List.append_nil] at hshows
    rw [writeEvents_append]
    exact shows_newMessages (tracks_mainStep hmain) hshows

theorem view_ipcPushEvent {s s' : Lab} (h : View s) (hstep : ipcPushEvent s = some s') :
    View s' := by
  rw [ipcPushEvent] at hstep
  cases houtbox : s.outbox with
  | nil => simp [houtbox] at hstep
  | cons e rest =>
    rw [houtbox] at hstep
    obtain rfl := Option.some.inj hstep
    cases h with
    | apart hreg hout hoff => exact .apart hreg (by simpa [hreg] using hout) hoff
    | joined hreg hphase events hin hqueue hshows =>
      refine .joined hreg hphase (events ++ [e]) hin ?_ ?_
      · simp [hreg, hqueue]
      · rw [houtbox] at hshows
        simpa using hshows

/-- The subscription is taken: the LEDs are off and the list is empty. -/
theorem view_ipcHandler {s s' : Lab} {full : Bool} (hok : EmptyWhenTaken s (.ipcHandler full))
    (h : View s) (hstep : ipcHandler full s = some s') : View s' := by
  rw [ipcHandler] at hstep
  obtain ⟨⟨hphase, houtbox, hwatcher⟩, hstep⟩ := Option.ite_none_right_eq_some.mp hstep
  cases h with
  | joined _ _ _ hin =>
    rw [hwatcher] at hin
    cases hin
  | apart hreg hout hoff =>
    have hqueue : s.queue = [] := hout.queue_eq_nil (by simp [hwatcher])
    cases full with
    | true =>
      obtain rfl := Option.some.inj hstep
      refine .apart hreg ?_ hoff
      rw [hqueue]
      exact .refused
    | false =>
      obtain rfl := Option.some.inj hstep
      refine .joined rfl hphase [] .answered (by rw [hqueue]; rfl) ?_
      rw [houtbox]
      exact ⟨fun hne => absurd hok hne, fun _ => hoff hphase⟩

/-! ## What the watcher's steps keep -/

theorem view_connect {s s' : Lab} (h : View s) (hstep : connect s = some s') :
    View s' := by
  rw [connect] at hstep
  obtain ⟨⟨hwatcher, -⟩, rfl⟩ := Option.ite_some_none_eq_some.mp hstep
  cases h with
  | apart hreg hout hoff =>
    refine .apart hreg ?_ hoff
    rw [hout.queue_eq_nil (by simp [hwatcher])]
    exact .connected
  | joined _ _ _ hin =>
    rw [hwatcher] at hin
    cases hin

theorem view_sendSubscribe {s s' : Lab} (h : View s)
    (hstep : sendSubscribe s = some s') : View s' := by
  rw [sendSubscribe] at hstep
  obtain ⟨hwatcher, rfl⟩ := Option.ite_some_none_eq_some.mp hstep
  cases h with
  | apart hreg hout hoff =>
    refine .apart hreg ?_ hoff
    rw [hout.queue_eq_nil (by simp [hwatcher])]
    exact .requested
  | joined _ _ _ hin =>
    rw [hwatcher] at hin
    cases hin

theorem view_recvReply {s s' : Lab} {stale : CString} (h : View s)
    (hstep : recvReply stale s = some s') : View s' := by
  unfold recvReply at hstep
  split at hstep
  next first rest hwatcher hq =>
    cases h with
    | apart hreg hout hoff =>
      rw [hwatcher, hq] at hout
      cases hout
      rw [not_subscribed_errFull, if_neg (by decide)] at hstep
      obtain rfl := Option.some.inj hstep
      exact .apart hreg .idle hoff
    | joined hreg hphase events hin hqueue hshows =>
      rw [hwatcher] at hin
      cases hin
      obtain ⟨rfl, rfl⟩ := List.cons.inj (hq.symm.trans hqueue)
      rw [subscribed_okReply, if_pos rfl] at hstep
      obtain rfl := Option.some.inj hstep
      exact .joined hreg hphase events .watching rfl hshows
  next => cases hstep

theorem view_recvEvent {s s' : Lab} (h : View s) (hstep : recvEvent s = some s') :
    View s' := by
  unfold recvEvent at hstep
  split at hstep
  next buf rest hwatcher hq =>
    cases h with
    | apart _ hout =>
      rw [hwatcher] at hout
      cases hout
    | joined hreg hphase events hin hqueue hshows =>
      rw [hwatcher] at hin
      cases hin
      cases events with
      | nil => cases hq.symm.trans hqueue
      | cons e events =>
        obtain ⟨rfl, rfl⟩ := List.cons.inj (hq.symm.trans hqueue)
        rw [command_line] at hstep
        obtain rfl := Option.some.inj hstep
        exact .joined hreg hphase events (.writing e) rfl hshows
  next => cases hstep

theorem view_writeLed {s s' : Lab} (h : View s) (hstep : writeLed s = some s') :
    View s' := by
  unfold writeLed at hstep
  split at hstep
  next text hwatcher =>
    obtain rfl := Option.some.inj hstep
    cases h with
    | apart _ hout =>
      rw [hwatcher] at hout
      cases hout
    | joined hreg hphase events hin hqueue hshows =>
      rw [hwatcher] at hin
      cases hin with
      | writing e =>
        refine .joined hreg hphase events .watching hqueue ?_
        rw [write_text]
        exact hshows
  next => cases hstep

theorem view_labStep {s s' : Lab} {x : LabStep} (hok : EmptyWhenTaken s x) (h : View s)
    (hstep : labStep s x = some s') : View s' := by
  cases x with
  | coreInit r => exact view_coreInit h hstep
  | ipcInit => exact view_ipcInit h hstep
  | ledOff => exact view_ledOff h hstep
  | mainPass x => exact view_mainPass h hstep
  | ipcPushEvent => exact view_ipcPushEvent h hstep
  | ipcHandler full => exact view_ipcHandler hok h hstep
  | connect => exact view_connect h hstep
  | sendSubscribe => exact view_sendSubscribe h hstep
  | recvReply stale => exact view_recvReply h hstep
  | recvEvent => exact view_recvEvent h hstep
  | writeLed => exact view_writeLed h hstep

/-- In every run in which the watcher's subscription is taken while no station is
tracked, whenever the watcher is subscribed, the daemon is between two passes of its
loop and no event is in flight, all four LEDs are on if there is a station and all
four are off if there is none. -/
theorem led_view_converges {d : Daemon} {led : LedDriver} {xs : List LabStep} {s : Lab}
    (hempty : Along labStep EmptyWhenTaken (start d led) xs)
    (hrun : exec labStep (start d led) xs = some s) (hwatching : s.watcher = .watching)
    (hqueue : s.queue = []) (houtbox : s.outbox = []) :
    (AllOn s.led ↔ s.daemon.mgr.head ≠ []) ∧ (AllOff s.led ↔ s.daemon.mgr.head = []) := by
  have hview : View s := exec_invariant_along (I := View)
    (fun s x s' hok h hstep => view_labStep hok h hstep)
    (.apart rfl .idle (fun he => by cases he)) hempty hrun
  cases hview with
  | apart _ hout =>
    rw [hwatching] at hout
    cases hout
  | joined _ _ events hin hq hshows =>
    rw [hwatching] at hin
    cases hin
    have hevents : events = [] := List.map_eq_nil_iff.mp (hq.symm.trans hqueue)
    rw [hevents, houtbox] at hshows
    have hled : Shows s.led s.daemon.mgr.head := hshows
    refine ⟨⟨fun hon hnil => ?_, hled.1⟩, ⟨fun hoff => ?_, hled.2⟩⟩
    · exact not_allOn_of_allOff (hled.2 hnil) hon
    · exact Classical.byContradiction (fun hne => not_allOn_of_allOff hoff (hled.1 hne))

def dark : LedDriver :=
  { left1 := false, left2 := false, right1 := false, right2 := false, waitQueueFlag := .wait }

/-- The watcher subscribes while nobody is there, and a station joins afterwards. -/
def lateStation : List LabStep :=
  [.coreInit (apRefresh 3 [] 0), .ipcInit, .ledOff, .connect, .sendSubscribe] ++
    [.ipcHandler false, .recvReply [],
      .mainPass (.event (Env.at 7) (stationMsg .newStation 3 (localMac 1))), .ipcPushEvent,
      .recvEvent, .writeLed]

theorem emptyWhenTaken_lateStation :
    Along labStep EmptyWhenTaken (start (boot "wlan0".toList 3 28) dark) lateStation := by
  refine along_append (along_of_forall (by simp [EmptyWhenTaken]) _) (fun s hs => ?_)
  refine ⟨?_, fun t _ => along_of_forall (by simp [EmptyWhenTaken]) t⟩
  obtain rfl := Option.some.inj hs
  rfl

theorem led_view_converges_lateStation :
    ∃ s, exec labStep (start (boot "wlan0".toList 3 28) dark) lateStation = some s ∧
      s.daemon.mgr.head ≠ [] ∧ AllOn s.led := by
  obtain ⟨s, hrun⟩ :
      ∃ s, exec labStep (start (boot "wlan0".toList 3 28) dark) lateStation = some s := ⟨_, rfl⟩
  obtain ⟨hwatching, hqueue, houtbox, hhead⟩ : s.watcher = .watching ∧ s.queue = [] ∧
      s.outbox = [] ∧ s.daemon.mgr.head ≠ [] := by
    obtain rfl := Option.some.inj hrun
    exact ⟨rfl, rfl, rfl, List.cons_ne_nil _ _⟩
  have hview := led_view_converges emptyWhenTaken_lateStation hrun hwatching hqueue houtbox
  exact ⟨s, hrun, hhead, hview.1.mpr hhead⟩

/-- A station is associated when the daemon starts, and the watcher subscribes after
that. -/
def earlyStation : List LabStep :=
  [.coreInit (apRefresh 3 [(Env.at 5, stationMsg .newStation 3 (localMac 1))] 0), .ipcPushEvent,
    .ipcInit, .ledOff, .connect, .sendSubscribe, .ipcHandler false, .recvReply []]

theorem end_earlyStation :
    (exec labStep (start (boot "wlan0".toList 3 28) dark) earlyStation).map
        (fun s => (s.watcher, s.queue, s.outbox, s.daemon.mgr.bssids, s.led)) =
      some (.watching, [], [], [bssidText (localMac 1)], dark) := rfl

/-- The station's `sta_join` went to nobody, and the subscription does not make up for
it: the LEDs are off while the station is tracked. -/
theorem not_led_view_converges :
    ∃ s, exec labStep (start (boot "wlan0".toList 3 28) dark) earlyStation = some s ∧
      s.watcher = .watching ∧ s.queue = [] ∧ s.outbox = [] ∧ s.daemon.mgr.head ≠ [] ∧
      AllOff s.led ∧ ¬(AllOn s.led ↔ s.daemon.mgr.head ≠ []) := by
  obtain ⟨s, hrun, hend⟩ := Option.map_eq_some_iff.mp end_earlyStation
  simp only [Prod.mk.injEq] at hend
  obtain ⟨hwatching, hqueue, houtbox, hbssids, hled⟩ := hend
  have hhead : s.daemon.mgr.head ≠ [] := ne_nil_of_mem_bssids (hbssids ▸ List.mem_singleton_self _)
  have hoff : AllOff s.led := hled ▸ ⟨rfl, rfl, rfl, rfl⟩
  exact ⟨s, hrun, hwatching, hqueue, houtbox, hhead, hoff,
    fun hiff => not_allOn_of_allOff hoff (hiff.mpr hhead)⟩

end LedView
end LinuxLab
