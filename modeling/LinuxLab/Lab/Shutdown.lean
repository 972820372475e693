import LinuxLab.Lab.LedView

/-!
# The shutdown of the daemon and the LEDs

When the daemon ends it writes `sta_leave` to the LED device itself, closes the
connections of its subscribers and exits.  Meanwhile the watcher goes on with what it
has.  The model interleaves the passes of the daemon's loop, its single pushes and the
calls at the end of `main` with the calls of `led_watcher_thread`.  The socket between
them holds bytes: a call of `recv` takes any number of them.

The write of a `traffic` command sleeps between its changes of the LEDs, and the
driver has no lock, so each change is a step.  The other commands are one step.

The LEDs stay off exactly if, when the daemon writes the device, no command that
lights them is on its way.
-/

namespace LinuxLab
namespace Shutdown

open Lib LedGpio Wlinkd WlanNl80211 LinuxLab.Core

/-- How far `main` has come.  In `dark` it has written the LED device, in `closed` it
has closed the sockets. -/
inductive Phase where
  | running
  | stopping
  | dark
  | closed
  | exited
deriving DecidableEq, Repr

/-- The changes of the LEDs that are left in a `traffic` command, by the first of
them. -/
inductive Blink where
  | leftOff
  | leftOn
  | rightOn
deriving DecidableEq, Repr

/-- Where `led_watcher_thread` is.  In `readable` its `poll` has returned with data. -/
inductive Watcher where
  | idle
  | requested
  | answered
  | polling
  | readable
  | holding (text : CString)
  | opened (text : CString)
  | blinking (next : Blink)
deriving DecidableEq, Repr

/-- Both processes, the bytes between them and the LED device.  `registered` says that
the daemon's end of the connection is open.  `applied` has the commands that
`toy_driver_write` has carried out, and nothing reads it. -/
structure Lab where
  daemon : Daemon
  phase : Phase
  outbox : List StaEvent
  registered : Bool
  watcher : Watcher
  stream : CString
  led : LedDriver
  applied : List CString
deriving DecidableEq, Repr

inductive LabStep where
  | mainPass (x : MainStep)
  -- One call of `ipc_push_event`, and whether its `send` succeeds.
  | ipcPushEvent (ok : Bool)
  | ipcHandler (full : Bool)
  | stop
  | ledOff
  | ipcClose
  | wlanCoreClose
  -- `connect` and `send` of the watcher.
  | subscribe
  -- `recv` of the watcher, with the number of bytes; 0 for a call that fails or finds
  -- the connection closed.
  | recvReply (n : Nat) (stale : CString)
  | poll
  | recv (n : Nat)
  | openLed (ok : Bool)
  | writeLed
  | blink
deriving DecidableEq, Repr

/-- The daemon has come to its loop, and nobody is subscribed. -/
def start (d : Daemon) (led : LedDriver) : Lab :=
  { daemon := d, phase := .running, outbox := [], registered := false, watcher := .idle,
    stream := [], led := led, applied := [] }

/-! ## The daemon -/

def mainPass (x : MainStep) (s : Lab) : Option Lab :=
  if s.phase = .running ∧ s.outbox = [] then
    (mainStep s.daemon x).map
      (fun d => { s with daemon := d, outbox := LedView.newMessages s.daemon d })
  else none

/-- A subscriber whose `send` fails is closed. -/
def ipcPushEvent (ok : Bool) (s : Lab) : Option Lab :=
  match s.outbox with
  | [] => none
  | e :: rest =>
    if s.registered then
      if ok then some { s with outbox := rest, stream := s.stream ++ e.line }
      else some { s with outbox := rest, registered := false }
    else some { s with outbox := rest }

def ipcHandler (full : Bool) (s : Lab) : Option Lab :=
  if s.phase = .running ∧ s.outbox = [] ∧ s.watcher = .requested then
    if full then some { s with watcher := .answered, stream := LedView.errFull }
    else some { s with registered := true, watcher := .answered, stream := LedWatcher.okReply }
  else none

/-- The loop ends when `g_running` is 0, between two passes. -/
def stop (s : Lab) : Option Lab :=
  if s.phase = .running ∧ s.outbox = [] then some { s with phase := .stopping } else none

def ledOff (s : Lab) : Option Lab :=
  if s.phase = .stopping then
    some { s with phase := .dark, led := writeText "sta_leave".toList s.led,
                  applied := s.applied ++ ["sta_leave".toList] }
  else none

def ipcClose (s : Lab) : Option Lab :=
  if s.phase = .dark then some { s with phase := .closed, registered := false } else none

/-- `wlan_core_close` sends nothing, and `main` returns after it. -/
def wlanCoreClose (s : Lab) : Option Lab :=
  if s.phase = .closed then some { s with phase := .exited } else none

/-! ## The watcher -/

/-- The label `retry`: the connection is closed, and what was not read is lost. -/
def reconnect (s : Lab) : Lab :=
  { s with registered := false, watcher := .idle, stream := [] }

def subscribe (s : Lab) : Option Lab :=
  if s.watcher = .idle ∧ s.phase ≠ .closed ∧ s.phase ≠ .exited then
    some { s with watcher := .requested }
  else none

def recvReply (n : Nat) (stale : CString) (s : Lab) : Option Lab :=
  if (s.watcher = .requested ∨ s.watcher = .answered) ∧ n ≤ 63 ∧ n ≤ s.stream.length then
    if LedWatcher.subscribed stale (s.stream.take n) then
      some { s with watcher := .polling, stream := s.stream.drop n }
    else some (reconnect s)
  else none

/-- The test for a hang-up comes before the test for data. -/
def poll (s : Lab) : Option Lab :=
  if s.watcher = .polling then
    if s.registered = false then some (reconnect s)
    else if s.stream ≠ [] then some { s with watcher := .readable }
    else none
  else none

def recv (n : Nat) (s : Lab) : Option Lab :=
  if s.watcher = .readable ∧ n ≤ 63 ∧ n ≤ s.stream.length then
    if n = 0 then some (reconnect s)
    else
      match LedWatcher.command (s.stream.take n) with
      | some text => some { s with watcher := .holding text, stream := s.stream.drop n }
      | none => some { s with watcher := .polling, stream := s.stream.drop n }
  else none

def openLed (ok : Bool) (s : Lab) : Option Lab :=
  match s.watcher with
  | .holding text => some { s with watcher := if ok then .opened text else .polling }
  | _ => none

/-- The write of a command, for `traffic` up to its first sleep. -/
def writeLed (s : Lab) : Option Lab :=
  match s.watcher with
  | .opened text =>
    if strncmpEq text "traffic".toList 7 then
      some { s with watcher := .blinking .leftOff, led := ledRightOff s.led }
    else
      some { s with watcher := .polling, led := writeText text s.led,
                    applied := s.applied ++ [text] }
  | _ => none

def blink (s : Lab) : Option Lab :=
  match s.watcher with
  | .blinking .leftOff => some { s with watcher := .blinking .leftOn, led := ledLeftOff s.led }
  | .blinking .leftOn => some { s with watcher := .blinking .rightOn, led := ledLeftOn s.led }
  | .blinking .rightOn =>
    some { s with watcher := .polling, led := ledRightOn s.led,
                  applied := s.applied ++ ["traffic".toList] }
  | _ => none

def labStep (s : Lab) : LabStep → Option Lab
  | .mainPass x => mainPass x s
  | .ipcPushEvent ok => ipcPushEvent ok s
  | .ipcHandler full => ipcHandler full s
  | .stop => stop s
  | .ledOff => ledOff s
  | .ipcClose => ipcClose s
  | .wlanCoreClose => wlanCoreClose s
  | .subscribe => subscribe s
  | .recvReply n stale => recvReply n stale s
  | .poll => poll s
  | .recv n => recv n s
  | .openLed ok => openLed ok s
  | .writeLed => writeLed s
  | .blink => blink s

/-- With nobody else at the device, the steps of a `traffic` command are one call of
`toy_driver_write`. -/
theorem exec_blinks (s : Lab) (hw : s.watcher = .opened "traffic".toList) :
    exec labStep s [.writeLed, .blink, .blink, .blink] =
      some { s with watcher := .polling, led := writeText "traffic".toList s.led,
                    applied := s.applied ++ ["traffic".toList] } := by
  obtain ⟨d, phase, outbox, registered, watcher, stream, led, applied⟩ := s
  obtain rfl : watcher = .opened "traffic".toList := hw
  rfl

/-! ## Commands on their way -/

/-- The command that the watcher has received and not yet carried out. -/
def Watcher.inHand : Watcher → Option CString
  | .holding text => some text
  | .opened text => some text
  | .blinking _ => some "traffic".toList
  | _ => none

/-- The text starts with a command that lights the LEDs. -/
def Lights (text : CString) : Prop := ∃ e : StaEvent, e ≠ .staLeave ∧ e.text <+: text

/-- A command that lights the LEDs is on its way: the watcher has it, or has been told
of it by `poll`, or it is unread in a connection that is open. -/
inductive Pending (registered : Bool) (w : Watcher) (stream : CString) : Prop where
  | inHand {text : CString} (hw : w.inHand = some text) (hlights : Lights text)
  | told (hw : w = .readable) (hlights : Lights stream)
  | unread {front back : CString} (hreg : registered = true) (hstream : stream = front ++ back)
      (hlights : Lights back)

/-- The daemon is gone, and the watcher is done with what it has received. -/
def Finished (s : Lab) : Prop :=
  s.phase = .exited ∧ s.watcher ≠ .readable ∧ s.watcher.inHand = none

structure LedsOff (s : Lab) : Prop where
  last : s.applied.getLast? = some "sta_leave".toList
  off : AllOff s.led

def NothingPending (s : Lab) : LabStep → Prop
  | .ledOff => ¬Pending s.registered s.watcher s.stream
  | _ => True

theorem lights_text {e : StaEvent} (h : Lights e.text) : e ≠ .staLeave := by
  obtain ⟨e', hne, hprefix⟩ := h
  rwa [← LedWatcher.text_eq_of_prefix hprefix]

theorem not_pending_polling {registered : Bool} {w : Watcher} {stream : CString}
    (h : ¬Pending registered w stream) (n : Nat) :
    ¬Pending registered .polling (stream.drop n) := by
  intro hpending
  cases hpending with
  | inHand hw => exact absurd hw nofun
  | told hw => exact absurd hw nofun
  | @unread front back hreg hstream hlights =>
    have hsplit : stream = (stream.take n ++ front) ++ back := by
      rw [List.append_assoc, ← hstream, List.take_append_drop]
    exact h (.unread hreg hsplit hlights)

theorem not_pending_reconnect (s : Lab) :
    ¬Pending (reconnect s).registered (reconnect s).watcher (reconnect s).stream := by
  intro hpending
  cases hpending with
  | inHand hw => exact absurd hw nofun
  | told hw => exact absurd hw nofun
  | unread hreg => exact absurd hreg nofun

/-! ## The invariant -/

/-- A watcher that is subscribed, with an event of the daemon in hand or none. -/
inductive Listening : Watcher → Prop where
  | polling : Listening .polling
  | readable : Listening .readable
  | holding (e : StaEvent) : Listening (.holding e.text)
  | opened (e : StaEvent) : Listening (.opened e.text)
  | blinking (next : Blink) : Listening (.blinking next)

/-- The watcher, and what waits for it in the socket. -/
inductive Shape : Bool → Watcher → CString → Prop where
  | idle : Shape false .idle []
  | requested : Shape false .requested []
  | refused : Shape false .answered LedView.errFull
  | answered (registered : Bool) (events : List StaEvent) :
      Shape registered .answered (LedWatcher.okReply ++ LedWatcher.lines events)
  | listening (registered : Bool) {w : Watcher} {stream : CString} (hw : Listening w)
      (hstream : LedWatcher.Unread stream) : Shape registered w stream

theorem Shape.unregister {registered : Bool} {w : Watcher} {stream : CString}
    (h : Shape registered w stream) : Shape false w stream := by
  cases h with
  | idle => exact .idle
  | requested => exact .requested
  | refused => exact .refused
  | answered _ events => exact .answered false events
  | listening _ hw hstream => exact .listening false hw hstream

theorem Shape.push {w : Watcher} {stream : CString} (h : Shape true w stream) (e : StaEvent) :
    Shape true w (stream ++ e.line) := by
  cases h with
  | answered _ events =>
    have hlines : LedWatcher.lines (events ++ [e]) = LedWatcher.lines events ++ e.line := by
      rw [LedWatcher.lines, LedWatcher.lines, List.flatMap_append, List.flatMap_singleton]
    rw [List.append_assoc, ← hlines]
    exact .answered true (events ++ [e])
  | listening _ hw hstream => exact .listening true hw (LedWatcher.unread_push hstream e)

theorem Shape.unread {registered : Bool} {w : Watcher} {stream : CString}
    (h : Shape registered w stream) (hw : Listening w) : LedWatcher.Unread stream := by
  cases h with
  | listening _ _ hstream => exact hstream
  | _ => cases hw

theorem Shape.eq_nil {registered : Bool} {w : Watcher} {stream : CString}
    (h : Shape registered w stream) (hw : w = .idle ∨ w = .requested) :
    registered = false ∧ stream = [] := by
  cases h with
  | idle => exact ⟨rfl, rfl⟩
  | requested => exact ⟨rfl, rfl⟩
  | refused => exact absurd hw (by simp)
  | answered => exact absurd hw (by simp)
  | listening _ hlistening =>
    rcases hw with rfl | rfl
    · cases hlistening
    · cases hlistening

/-- Behind a reply that passes the test there are events only. -/
theorem Shape.unread_of_subscribed {registered : Bool} {w : Watcher} {stream stale : CString}
    {n : Nat} (h : Shape registered w stream) (hw : w = .requested ∨ w = .answered)
    (hsub : LedWatcher.subscribed stale (stream.take n) = true) :
    LedWatcher.Unread (stream.drop n) := by
  have hn : n ≠ 0 := by
    rintro rfl
    exact absurd hsub nofun
  obtain ⟨m, rfl⟩ := Nat.exists_eq_succ_of_ne_zero hn
  cases h with
  | idle => exact absurd hw (by simp)
  | requested => exact absurd hsub nofun
  | refused =>
    -- The reply starts with another character than the word.
    exact absurd (List.cons.inj (beq_iff_eq.mp (Bool.and_eq_true_iff.mp hsub).2)).1 (by decide)
  | answered _ events => exact LedWatcher.unread_reply hn events
  | listening _ _ hstream => exact LedWatcher.unread_drop hstream _

/-- A text in hand is an event of the daemon. -/
theorem Shape.event_inHand {registered : Bool} {w : Watcher} {stream text : CString}
    (h : Shape registered w stream) (hw : w.inHand = some text) :
    ∃ e : StaEvent, text = e.text ∧ LedWatcher.Unread stream := by
  cases h with
  | listening _ hlistening hstream =>
    cases hlistening with
    | polling => exact absurd hw nofun
    | readable => exact absurd hw nofun
    | holding e => exact ⟨e, (Option.some.inj hw).symm, hstream⟩
    | opened e => exact ⟨e, (Option.some.inj hw).symm, hstream⟩
    | blinking => exact ⟨.traffic, (Option.some.inj hw).symm, hstream⟩
  | _ => exact absurd hw nofun

theorem Shape.subscribed {w : Watcher} {stream : CString} (h : Shape true w stream)
    (hw : w.inHand = none) :
    (w = .answered ∧ ∃ events, stream = LedWatcher.okReply ++ LedWatcher.lines events) ∨
      w = .polling ∨ w = .readable := by
  cases h with
  | answered _ events => exact .inl ⟨rfl, events, rfl⟩
  | listening _ hlistening =>
    cases hlistening with
    | polling => exact .inr (.inl rfl)
    | readable => exact .inr (.inr rfl)
    | holding => exact absurd hw nofun
    | opened => exact absurd hw nofun
    | blinking => exact absurd hw nofun

/-- The daemon has written the LED device for the last time. -/
def Phase.down : Phase → Bool
  | .running => false
  | .stopping => false
  | _ => true

/-- `clean` says that nothing is pending when the daemon writes the device. -/
structure Inv (clean : Prop) (s : Lab) : Prop where
  shape : Shape s.registered s.watcher s.stream
  drained : s.phase ≠ .running → s.outbox = []
  quiet : clean → s.phase.down = true → ¬Pending s.registered s.watcher s.stream
  dark : clean → s.phase.down = true → LedsOff s

section Invariant

variable {clean : Prop}

/-- The steps of the watcher do not touch the daemon, so what is left to show of them is
what they do to the connection and to the LEDs. -/
theorem Inv.watcher {s s' : Lab} (h : Inv clean s) (hphase : s'.phase = s.phase)
    (houtbox : s'.outbox = s.outbox) (hshape : Shape s'.registered s'.watcher s'.stream)
    (hquiet : ¬Pending s.registered s.watcher s.stream →
      ¬Pending s'.registered s'.watcher s'.stream)
    (hdark : ¬Pending s.registered s.watcher s.stream → LedsOff s → LedsOff s') : Inv clean s' := by
  refine ⟨hshape, ?_, ?_, ?_⟩
  · rw [hphase, houtbox]
    exact h.drained
  · rw [hphase]
    exact fun hclean hdown => hquiet (h.quiet hclean hdown)
  · rw [hphase]
    exact fun hclean hdown => hdark (h.quiet hclean hdown) (h.dark hclean hdown)

theorem inv_reconnect {s : Lab} (h : Inv clean s) : Inv clean (reconnect s) :=
  h.watcher rfl rfl .idle (fun _ => not_pending_reconnect s) (fun _ hoff => ⟨hoff.last, hoff.off⟩)

/-! ## What the daemon's steps keep -/

theorem inv_start (d : Daemon) (led : LedDriver) : Inv clean (start d led) :=
  ⟨.idle, fun _ => rfl, fun _ hdown => absurd hdown nofun, fun _ hdown => absurd hdown nofun⟩

theorem inv_mainPass {s s' : Lab} {x : MainStep} (h : Inv clean s)
    (hstep : mainPass x s = some s') : Inv clean s' := by
  rw [mainPass] at hstep
  obtain ⟨⟨hphase, -⟩, hstep⟩ := Option.ite_none_right_eq_some.mp hstep
  obtain ⟨d, -, rfl⟩ := Option.map_eq_some_iff.mp hstep
  exact ⟨h.shape, fun hne => absurd hphase hne, h.quiet,
    fun hclean hdown => ⟨(h.dark hclean hdown).last, (h.dark hclean hdown).off⟩⟩

theorem inv_ipcPushEvent {s s' : Lab} {ok : Bool} (h : Inv clean s)
    (hstep : ipcPushEvent ok s = some s') : Inv clean s' := by
  unfold ipcPushEvent at hstep
  split at hstep
  next => cases hstep
  next e rest houtbox =>
    have hrunning : s.phase = .running := by
      by_contra hne
      exact absurd (houtbox.symm.trans (h.drained hne)) nofun
    -- The daemon is in its loop, so only the connection matters.
    have hinv : ∀ registered stream, Shape registered s.watcher stream →
        Inv clean { s with outbox := rest, registered := registered, stream := stream } := by
      intro registered stream hshape
      refine ⟨hshape, fun hne => absurd hrunning hne, fun _ hdown => ?_, fun _ hdown => ?_⟩
      · exact absurd (hrunning ▸ hdown) nofun
      · exact absurd (hrunning ▸ hdown) nofun
    split at hstep
    next hreg =>
      have hshape : Shape true s.watcher s.stream := hreg ▸ h.shape
      split at hstep
      next =>
        obtain rfl := Option.some.inj hstep
        exact hinv s.registered (s.stream ++ e.line) (hreg ▸ hshape.push e)
      next =>
        obtain rfl := Option.some.inj hstep
        exact hinv false s.stream hshape.unregister
    next =>
      obtain rfl := Option.some.inj hstep
      exact hinv s.registered s.stream h.shape

theorem inv_ipcHandler {s s' : Lab} {full : Bool} (h : Inv clean s)
    (hstep : ipcHandler full s = some s') : Inv clean s' := by
  rw [ipcHandler] at hstep
  obtain ⟨⟨hphase, -, hwatcher⟩, hstep⟩ := Option.ite_none_right_eq_some.mp hstep
  have hreg : s.registered = false := (h.shape.eq_nil (.inr hwatcher)).1
  have hinv : ∀ registered stream, Shape registered .answered stream →
      Inv clean { s with registered := registered, watcher := .answered, stream := stream } := by
    intro registered stream hshape
    refine ⟨hshape, fun hne => absurd hphase hne, fun _ hdown => ?_, fun _ hdown => ?_⟩
    · exact absurd (hphase ▸ hdown) nofun
    · exact absurd (hphase ▸ hdown) nofun
  cases full with
  | true =>
    obtain rfl := Option.some.inj hstep
    exact hinv s.registered LedView.errFull (hreg ▸ .refused)
  | false =>
    obtain rfl := Option.some.inj hstep
    exact hinv true LedWatcher.okReply (.answered true [])

theorem inv_stop {s s' : Lab} (h : Inv clean s) (hstep : stop s = some s') : Inv clean s' := by
  rw [stop] at hstep
  obtain ⟨⟨-, houtbox⟩, rfl⟩ := Option.ite_some_none_eq_some.mp hstep
  exact ⟨h.shape, fun _ => houtbox, fun _ hdown => absurd hdown nofun,
    fun _ hdown => absurd hdown nofun⟩

theorem inv_ledOff {s s' : Lab} (hok : clean → NothingPending s .ledOff) (h : Inv clean s)
    (hstep : ledOff s = some s') : Inv clean s' := by
  rw [ledOff] at hstep
  obtain ⟨hphase, rfl⟩ := Option.ite_some_none_eq_some.mp hstep
  refine ⟨h.shape, fun _ => h.drained (by rw [hphase]; exact nofun), fun hclean _ => hok hclean,
    fun _ _ => ?_⟩
  exact ⟨List.getLast?_concat, allOff_write_leave rfl s.led⟩

theorem inv_ipcClose {s s' : Lab} (h : Inv clean s) (hstep : ipcClose s = some s') :
    Inv clean s' := by
  rw [ipcClose] at hstep
  obtain ⟨hphase, rfl⟩ := Option.ite_some_none_eq_some.mp hstep
  have hdown : s.phase.down = true := by rw [hphase]; rfl
  refine ⟨h.shape.unregister, fun _ => h.drained (by rw [hphase]; exact nofun), ?_, ?_⟩
  · intro hclean _ hpending
    cases hpending with
    | inHand hw hlights => exact h.quiet hclean hdown (.inHand hw hlights)
    | told hw hlights => exact h.quiet hclean hdown (.told hw hlights)
    | unread hreg => exact absurd hreg nofun
  · exact fun hclean _ => ⟨(h.dark hclean hdown).last, (h.dark hclean hdown).off⟩

theorem inv_wlanCoreClose {s s' : Lab} (h : Inv clean s) (hstep : wlanCoreClose s = some s') :
    Inv clean s' := by
  rw [wlanCoreClose] at hstep
  obtain ⟨hphase, rfl⟩ := Option.ite_some_none_eq_some.mp hstep
  have hdown : s.phase.down = true := by rw [hphase]; rfl
  exact ⟨h.shape, fun _ => h.drained (by rw [hphase]; exact nofun),
    fun hclean _ => h.quiet hclean hdown,
    fun hclean _ => ⟨(h.dark hclean hdown).last, (h.dark hclean hdown).off⟩⟩

/-! ## What the watcher's steps keep -/

theorem inv_subscribe {s s' : Lab} (h : Inv clean s) (hstep : subscribe s = some s') :
    Inv clean s' := by
  rw [subscribe] at hstep
  obtain ⟨⟨hwatcher, -⟩, rfl⟩ := Option.ite_some_none_eq_some.mp hstep
  obtain ⟨hreg, hstream⟩ := h.shape.eq_nil (.inl hwatcher)
  refine h.watcher rfl rfl ?_ (fun _ hpending => ?_) (fun _ hoff => ⟨hoff.last, hoff.off⟩)
  · show Shape s.registered .requested s.stream
    rw [hreg, hstream]
    exact .requested
  · cases hpending with
    | inHand hw => exact absurd hw nofun
    | told hw => exact absurd hw nofun
    | unread hreg' => exact absurd (hreg.symm.trans hreg') nofun

theorem inv_recvReply {s s' : Lab} {n : Nat} {stale : CString} (h : Inv clean s)
    (hstep : recvReply n stale s = some s') : Inv clean s' := by
  rw [recvReply] at hstep
  obtain ⟨⟨hwatcher, -, -⟩, hstep⟩ := Option.ite_none_right_eq_some.mp hstep
  split at hstep
  next hsub =>
    obtain rfl := Option.some.inj hstep
    exact h.watcher rfl rfl (.listening _ .polling (h.shape.unread_of_subscribed hwatcher hsub))
      (fun hquiet => not_pending_polling hquiet n) (fun _ hoff => ⟨hoff.last, hoff.off⟩)
  next =>
    obtain rfl := Option.some.inj hstep
    exact inv_reconnect h

theorem inv_poll {s s' : Lab} (h : Inv clean s) (hstep : poll s = some s') : Inv clean s' := by
  rw [poll] at hstep
  obtain ⟨hwatcher, hstep⟩ := Option.ite_none_right_eq_some.mp hstep
  split at hstep
  next =>
    obtain rfl := Option.some.inj hstep
    exact inv_reconnect h
  next hreg =>
    obtain ⟨-, rfl⟩ := Option.ite_some_none_eq_some.mp hstep
    have hstream : LedWatcher.Unread s.stream := h.shape.unread (hwatcher ▸ .polling)
    refine h.watcher rfl rfl (.listening _ .readable hstream) (fun hquiet hpending => ?_)
      (fun _ hoff => ⟨hoff.last, hoff.off⟩)
    -- What `poll` tells the watcher of is unread in an open connection.
    cases hpending with
    | inHand hw => exact absurd hw nofun
    | told _ hlights =>
      exact hquiet (.unread (Bool.eq_true_of_not_eq_false hreg) (List.nil_append _).symm hlights)
    | unread hreg' hs hlights => exact hquiet (.unread hreg' hs hlights)

theorem inv_recv {s s' : Lab} {n : Nat} (h : Inv clean s) (hstep : recv n s = some s') :
    Inv clean s' := by
  unfold recv at hstep
  obtain ⟨⟨hwatcher, -, -⟩, hstep⟩ := Option.ite_none_right_eq_some.mp hstep
  have hstream : LedWatcher.Unread s.stream := h.shape.unread (hwatcher ▸ .readable)
  split at hstep
  next =>
    obtain rfl := Option.some.inj hstep
    exact inv_reconnect h
  next =>
    split at hstep
    next text hcommand =>
      obtain rfl := Option.some.inj hstep
      obtain ⟨e, rfl, hprefix⟩ :=
        LedWatcher.command_unread hstream (List.take_prefix n s.stream) hcommand
      refine h.watcher rfl rfl (.listening _ (.holding e) (LedWatcher.unread_drop hstream n))
        (fun hquiet hpending => ?_) (fun _ hoff => ⟨hoff.last, hoff.off⟩)
      cases hpending with
      | inHand hw hlights =>
        obtain rfl := Option.some.inj hw
        exact hquiet (.told hwatcher ⟨e, lights_text hlights, hprefix⟩)
      | told hw => exact absurd hw nofun
      | unread hreg hs hlights =>
        exact not_pending_polling hquiet n (.unread hreg hs hlights)
    next =>
      obtain rfl := Option.some.inj hstep
      exact h.watcher rfl rfl (.listening _ .polling (LedWatcher.unread_drop hstream n))
        (fun hquiet => not_pending_polling hquiet n) (fun _ hoff => ⟨hoff.last, hoff.off⟩)

theorem inv_openLed {s s' : Lab} {ok : Bool} (h : Inv clean s) (hstep : openLed ok s = some s') :
    Inv clean s' := by
  unfold openLed at hstep
  split at hstep
  next text hwatcher =>
    obtain rfl := Option.some.inj hstep
    have hinHand : s.watcher.inHand = some text := by rw [hwatcher]; rfl
    obtain ⟨e, rfl, hstream⟩ := h.shape.event_inHand hinHand
    cases ok with
    | true =>
      refine h.watcher rfl rfl (.listening _ (.opened e) hstream) (fun hquiet hpending => ?_)
        (fun _ hoff => ⟨hoff.last, hoff.off⟩)
      cases hpending with
      | inHand hw hlights => exact hquiet (.inHand (hinHand.trans hw) hlights)
      | told hw => exact absurd hw nofun
      | unread hreg hs hlights => exact hquiet (.unread hreg hs hlights)
    | false =>
      exact h.watcher rfl rfl (.listening _ .polling hstream)
        (fun hquiet => not_pending_polling hquiet 0) (fun _ hoff => ⟨hoff.last, hoff.off⟩)
  next => cases hstep

theorem inv_writeLed {s s' : Lab} (h : Inv clean s) (hstep : writeLed s = some s') :
    Inv clean s' := by
  unfold writeLed at hstep
  split at hstep
  next text hwatcher =>
    have hinHand : s.watcher.inHand = some text := by rw [hwatcher]; rfl
    obtain ⟨e, rfl, hstream⟩ := h.shape.event_inHand hinHand
    have hleave : ¬Pending s.registered s.watcher s.stream → e = .staLeave := by
      intro hquiet
      by_contra hne
      exact hquiet (.inHand hinHand ⟨e, hne, List.prefix_rfl⟩)
    split at hstep
    next htraffic =>
      obtain rfl := Option.some.inj hstep
      have hnot : e ≠ .staLeave := by
        rintro rfl
        exact absurd htraffic (by decide)
      exact h.watcher rfl rfl (.listening _ (.blinking .leftOff) hstream)
        (fun hquiet => absurd (hleave hquiet) hnot) (fun hquiet => absurd (hleave hquiet) hnot)
    next =>
      obtain rfl := Option.some.inj hstep
      refine h.watcher rfl rfl (.listening _ .polling hstream)
        (fun hquiet => not_pending_polling hquiet 0) (fun hquiet _ => ?_)
      rw [hleave hquiet]
      exact ⟨List.getLast?_concat, allOff_write_leave rfl s.led⟩
  next => cases hstep

theorem inv_blink {s s' : Lab} (h : Inv clean s) (hstep : blink s = some s') : Inv clean s' := by
  -- A `traffic` command that is going on lights the LEDs, so nothing is left to keep.
  have hinv : ∀ next w led applied, s.watcher = .blinking next → Listening w →
      Inv clean { s with watcher := w, led := led, applied := applied } := by
    intro next w led applied hwatcher hw
    have hinHand : s.watcher.inHand = some StaEvent.traffic.text := by rw [hwatcher]; rfl
    have hpending : Pending s.registered s.watcher s.stream :=
      .inHand hinHand ⟨.traffic, nofun, List.prefix_rfl⟩
    obtain ⟨-, -, hstream⟩ := h.shape.event_inHand hinHand
    exact h.watcher rfl rfl (.listening _ hw hstream) (absurd hpending) (absurd hpending)
  unfold blink at hstep
  split at hstep
  next hwatcher =>
    obtain rfl := Option.some.inj hstep
    exact hinv _ _ _ _ hwatcher (.blinking .leftOn)
  next hwatcher =>
    obtain rfl := Option.some.inj hstep
    exact hinv _ _ _ _ hwatcher (.blinking .rightOn)
  next hwatcher =>
    obtain rfl := Option.some.inj hstep
    exact hinv _ _ _ _ hwatcher .polling
  next => cases hstep

theorem inv_labStep {s s' : Lab} {x : LabStep} (hok : clean → NothingPending s x)
    (h : Inv clean s) (hstep : labStep s x = some s') : Inv clean s' := by
  cases x with
  | mainPass x => exact inv_mainPass h hstep
  | ipcPushEvent ok => exact inv_ipcPushEvent h hstep
  | ipcHandler full => exact inv_ipcHandler h hstep
  | stop => exact inv_stop h hstep
  | ledOff => exact inv_ledOff hok h hstep
  | ipcClose => exact inv_ipcClose h hstep
  | wlanCoreClose => exact inv_wlanCoreClose h hstep
  | subscribe => exact inv_subscribe h hstep
  | recvReply n stale => exact inv_recvReply h hstep
  | poll => exact inv_poll h hstep
  | recv n => exact inv_recv h hstep
  | openLed ok => exact inv_openLed h hstep
  | writeLed => exact inv_writeLed h hstep
  | blink => exact inv_blink h hstep

end Invariant

/-! ## A pending command can light the LEDs

The run is built from its end: each lemma adds the steps that lead to a state from
which the LEDs can still be lit after the daemon's write. -/

/-- Some run from here ends with a LED on. -/
def CanLight (s : Lab) : Prop :=
  ∃ ys t, exec labStep s ys = some t ∧ Finished t ∧ ¬AllOff t.led

theorem canLight_of_step {s s' : Lab} {x : LabStep} (hstep : labStep s x = some s')
    (h : CanLight s') : CanLight s := by
  obtain ⟨ys, t, hrun, hend⟩ := h
  exact ⟨x :: ys, t, exec_cons hstep hrun, hend⟩

theorem canLight_polling {s : Lab} (hphase : s.phase = .dark) (hw : s.watcher = .polling)
    (hled : ¬AllOff s.led) : CanLight s := by
  refine canLight_of_step (x := .ipcClose) (if_pos hphase) ?_
  refine canLight_of_step (x := .wlanCoreClose) rfl ?_
  refine ⟨[], _, rfl, ⟨rfl, ?_, ?_⟩, hled⟩
  · show s.watcher ≠ .readable
    rw [hw]
    exact nofun
  · show s.watcher.inHand = none
    rw [hw]
    rfl

section Commands

variable {s : Lab}

/-- A `traffic` command that is going on ends with the right LEDs on. -/
theorem canLight_blinking {next : Blink} (hw : s.watcher = .blinking next)
    (h : ∀ led applied, ¬AllOff led →
      CanLight { s with watcher := .polling, led := led, applied := applied }) :
    CanLight s := by
  have hright : ∀ led, CanLight { s with watcher := .blinking .rightOn, led := led } := by
    intro led
    refine canLight_of_step (x := .blink) rfl (h _ _ ?_)
    exact fun hoff => absurd hoff.2.2.1 nofun
  have hleft : ∀ led, CanLight { s with watcher := .blinking .leftOn, led := led } :=
    fun led => canLight_of_step (x := .blink) rfl (hright (ledLeftOn led))
  have hself : s = { s with watcher := .blinking next } := by rw [← hw]
  rw [hself]
  cases next with
  | leftOff => exact canLight_of_step (x := .blink) rfl (hleft (ledLeftOff s.led))
  | leftOn => exact hleft s.led
  | rightOn => exact hright s.led

theorem canLight_opened {text : CString} (hw : s.watcher = .opened text)
    (h : ∀ led applied, (Lights text → ¬AllOff led) →
      CanLight { s with watcher := .polling, led := led, applied := applied }) :
    CanLight s := by
  by_cases htraffic : strncmpEq text "traffic".toList 7 = true
  · have hstep : labStep s .writeLed =
        some { s with watcher := .blinking .leftOff, led := ledRightOff s.led } := by
      show writeLed s = _
      unfold writeLed
      rw [hw]
      exact if_pos htraffic
    exact canLight_of_step hstep
      (canLight_blinking rfl (fun led applied hled => h led applied (fun _ => hled)))
  · have hstep : labStep s .writeLed =
        some { s with watcher := .polling, led := writeText text s.led,
                      applied := s.applied ++ [text] } := by
      show writeLed s = _
      unfold writeLed
      rw [hw]
      exact if_neg htraffic
    refine canLight_of_step hstep (h _ _ ?_)
    rintro ⟨e, hne, hprefix⟩ hoff
    have hword := strncmpEq_length_iff.mpr hprefix
    cases e with
    | staJoin => exact not_allOn_of_allOff hoff (allOn_write_join hword s.led)
    | staLeave => exact hne rfl
    | traffic => exact htraffic hword

/-- The watcher carries out what it has in hand and goes back to `poll`. -/
theorem canLight_inHand {text : CString} (hw : s.watcher.inHand = some text)
    (h : ∀ led applied, (Lights text → ¬AllOff led) →
      CanLight { s with watcher := .polling, led := led, applied := applied }) :
    CanLight s := by
  cases hwatcher : s.watcher with
  | holding text' =>
    rw [hwatcher] at hw
    obtain rfl := Option.some.inj hw
    have hstep : labStep s (.openLed true) = some { s with watcher := .opened text' } := by
      show openLed true s = _
      unfold openLed
      rw [hwatcher]
      rfl
    exact canLight_of_step hstep (canLight_opened rfl h)
  | opened text' =>
    rw [hwatcher] at hw
    obtain rfl := Option.some.inj hw
    exact canLight_opened hwatcher h
  | blinking next =>
    exact canLight_blinking hwatcher (fun led applied hled => h led applied (fun _ => hled))
  | _ =>
    rw [hwatcher] at hw
    exact absurd hw nofun

/-- The command stands at the start of what `recv` is about to read. -/
theorem canLight_told (hphase : s.phase = .dark) (hw : s.watcher = .readable)
    (hlights : Lights s.stream) : CanLight s := by
  obtain ⟨e, hne, hprefix⟩ := hlights
  have htake : s.stream.take e.text.length = e.text := (List.prefix_iff_eq_take.mp hprefix).symm
  have hcommand : LedWatcher.command e.text = some e.text :=
    LedWatcher.command_eq_some (u := []) ⟨['\n'], by rw [List.append_nil]; rfl⟩ (Nat.le_refl _)
  have hstep : labStep s (.recv e.text.length) =
      some { s with watcher := .holding e.text, stream := s.stream.drop e.text.length } := by
    have hsize : e.text.length ≤ 63 ∧ e.text.length ≠ 0 := by cases e <;> decide
    show recv e.text.length s = _
    unfold recv
    rw [if_pos ⟨hw, hsize.1, hprefix.length_le⟩, if_neg hsize.2, htake, hcommand]
  refine canLight_of_step hstep (canLight_inHand rfl (fun led applied hled => ?_))
  exact canLight_polling hphase rfl (hled ⟨e, hne, List.prefix_rfl⟩)

/-- One byte is never a command. -/
theorem recv_one {c : Char} {rest : CString} (hw : s.watcher = .readable)
    (hstream : s.stream = c :: rest) :
    labStep s (.recv 1) = some { s with watcher := .polling, stream := rest } := by
  have hcommand : LedWatcher.command [c] = none := by
    rw [LedWatcher.command, if_neg]
    intro hevent
    obtain ⟨e, hprefix⟩ := LedWatcher.isEvent_iff.mp hevent
    have hlong : 1 < e.text.length := by cases e <;> decide
    exact absurd hprefix.length_le (Nat.not_le_of_lt hlong)
  show recv 1 s = _
  unfold recv
  rw [hstream, if_pos ⟨hw, by decide, by simp⟩, if_neg Nat.one_ne_zero]
  show (match LedWatcher.command [c] with
    | some text => some { s with watcher := .holding text, stream := rest }
    | none => some { s with watcher := .polling, stream := rest }) = _
  rw [hcommand]

theorem poll_readable (hreg : s.registered = true) (hw : s.watcher = .polling)
    (hstream : s.stream ≠ []) : labStep s .poll = some { s with watcher := .readable } := by
  show poll s = _
  rw [poll, if_pos hw, if_neg (by rw [hreg]; exact nofun), if_pos hstream]

theorem ne_nil_of_lights {front back : CString} (h : Lights back) : front ++ back ≠ [] := by
  intro hnil
  obtain ⟨e, -, hprefix⟩ := h
  rw [(List.append_eq_nil_iff.mp hnil).2] at hprefix
  cases e <;> exact absurd (List.prefix_nil.mp hprefix) nofun

/-- The watcher may read what stands before the command byte by byte. -/
theorem canLight_unread {front back : CString} (hphase : s.phase = .dark)
    (hreg : s.registered = true) (hw : s.watcher = .polling) (hstream : s.stream = front ++ back)
    (hlights : Lights back) : CanLight s := by
  induction front generalizing s with
  | nil =>
    refine canLight_of_step (poll_readable hreg hw (hstream ▸ ne_nil_of_lights hlights)) ?_
    refine canLight_told hphase rfl ?_
    show Lights s.stream
    rwa [hstream]
  | cons c front ih =>
    refine canLight_of_step (poll_readable hreg hw (hstream ▸ ne_nil_of_lights hlights)) ?_
    exact canLight_of_step (recv_one rfl hstream) (ih hphase hreg rfl rfl)

/-- A command does not start inside the reply. -/
theorem exists_append_of_lights {c : Char} {rest front back : CString} (hc : c ≠ 's' ∧ c ≠ 't')
    (h : c :: rest = front ++ back) (hlights : Lights back) : ∃ front', rest = front' ++ back := by
  cases front with
  | nil =>
    obtain ⟨e, hne, tail, htail⟩ := hlights
    rw [List.nil_append] at h
    rw [← h] at htail
    cases e with
    | staJoin => exact absurd (List.cons.inj htail).1.symm hc.1
    | staLeave => exact absurd rfl hne
    | traffic => exact absurd (List.cons.inj htail).1.symm hc.2
  | cons c' front => exact ⟨front, (List.cons.inj h).2⟩

theorem recvReply_ok {events : List StaEvent} (hw : s.watcher = .answered)
    (hstream : s.stream = LedWatcher.okReply ++ LedWatcher.lines events) :
    labStep s (.recvReply 3 []) =
      some { s with watcher := .polling, stream := LedWatcher.lines events } := by
  have hlen : 3 ≤ s.stream.length := by
    rw [hstream, List.length_append]
    exact Nat.le_add_right 3 _
  show recvReply 3 [] s = _
  rw [recvReply, if_pos ⟨.inr hw, by decide, hlen⟩, hstream]
  exact if_pos rfl

theorem canLight_of_pending (hphase : s.phase = .dark)
    (hshape : Shape s.registered s.watcher s.stream)
    (h : Pending s.registered s.watcher s.stream) : CanLight s := by
  cases h with
  | inHand hw hlights =>
    exact canLight_inHand hw (fun led applied hled => canLight_polling hphase rfl (hled hlights))
  | told hw hlights => exact canLight_told hphase hw hlights
  | @unread front back hreg hstream hlights =>
    cases hinHand : s.watcher.inHand with
    | some text =>
      exact canLight_inHand hinHand
        (fun led applied _ => canLight_unread hphase hreg rfl hstream hlights)
    | none =>
      rcases (hreg ▸ hshape).subscribed hinHand with ⟨hw, events, hreply⟩ | hw | hw
      · -- The reply is read first, and the command is behind it.
        obtain ⟨front₁, hfront₁⟩ := exists_append_of_lights (c := 'O') (by decide)
          (hreply.symm.trans hstream) hlights
        obtain ⟨front₂, hfront₂⟩ := exists_append_of_lights (c := 'K') (by decide) hfront₁ hlights
        obtain ⟨front₃, hfront₃⟩ := exists_append_of_lights (c := '\n') (by decide) hfront₂ hlights
        exact canLight_of_step (recvReply_ok hw hreply)
          (canLight_unread hphase hreg rfl hfront₃ hlights)
      · exact canLight_unread hphase hreg hw hstream hlights
      · cases front with
        | nil =>
          rw [List.nil_append] at hstream
          exact canLight_told hphase hw (hstream ▸ hlights)
        | cons c front =>
          exact canLight_of_step (recv_one hw hstream)
            (canLight_unread hphase hreg rfl rfl hlights)

end Commands

/-! ## Every run -/

/-- In every run in which no command that lights the LEDs is on its way when the daemon
writes the device, the last command is `sta_leave` and all LEDs are off once the daemon
has exited and the watcher is done.  If one is on its way, some run ends with a LED
on. -/
theorem shutdown_leaves_leds_off {d : Daemon} {led : LedDriver} {xs : List LabStep} {s : Lab}
    (hrun : exec labStep (start d led) xs = some s) :
    (Along labStep NothingPending (start d led) xs → Finished s → LedsOff s) ∧
    (s.phase = .stopping → Pending s.registered s.watcher s.stream →
      ∃ ys t, exec labStep s (.ledOff :: ys) = some t ∧ Finished t ∧ ¬AllOff t.led) := by
  constructor
  · intro hquiet hfinished
    have hinv : Inv True s := exec_invariant_along
      (fun _ _ _ hok h hstep => inv_labStep (fun _ => hok) h hstep) (inv_start d led) hquiet hrun
    refine hinv.dark trivial ?_
    rw [hfinished.1]
    rfl
  · intro hphase hpending
    have hinv : Inv False s := exec_invariant
      (fun _ _ _ h hstep => inv_labStep False.elim h hstep) (inv_start d led) hrun
    have hstep : labStep s .ledOff =
        some { s with phase := .dark, led := writeText "sta_leave".toList s.led,
                      applied := s.applied ++ ["sta_leave".toList] } := if_pos hphase
    obtain ⟨ys, t, hys, hend⟩ := canLight_of_pending (s := { s with
      phase := .dark, led := writeText "sta_leave".toList s.led,
      applied := s.applied ++ ["sta_leave".toList] }) rfl hinv.shape hpending
    exact ⟨ys, t, exec_cons hstep hys, hend⟩

/-- A station joins, and the watcher receives the event. -/
def joinReceived : List LabStep :=
  [.subscribe, .ipcHandler false, .recvReply 3 [],
    .mainPass (.event (Env.at 7) (stationMsg .newStation 3 (localMac 1))), .ipcPushEvent true,
    .poll, .recv 9]

/-- The watcher lights the LEDs before the daemon is stopped. -/
def earlyWrite : List LabStep :=
  joinReceived ++ [.openLed true, .writeLed, .stop] ++ [.ledOff, .ipcClose, .wlanCoreClose, .poll]

theorem nothingPending_earlyWrite :
    Along labStep NothingPending (start (boot "wlan0".toList 3 28) LedView.dark) earlyWrite := by
  refine along_append (along_of_forall (by simp [NothingPending, joinReceived]) _) (fun s hs => ?_)
  refine ⟨?_, fun t _ => along_of_forall (by simp [NothingPending]) t⟩
  obtain rfl := Option.some.inj hs
  intro hpending
  cases hpending with
  | inHand hw => exact absurd hw nofun
  | told hw => exact absurd hw nofun
  | unread _ hstream hlights => exact ne_nil_of_lights hlights hstream.symm

theorem shutdown_leaves_leds_off_earlyWrite :
    ∃ s, exec labStep (start (boot "wlan0".toList 3 28) LedView.dark) earlyWrite = some s ∧
      Finished s ∧ LedsOff s := by
  obtain ⟨s, hrun⟩ : ∃ s, exec labStep (start (boot "wlan0".toList 3 28) LedView.dark)
      earlyWrite = some s := ⟨_, rfl⟩
  have hfinished : Finished s := by
    obtain rfl := Option.some.inj hrun
    exact ⟨rfl, nofun, rfl⟩
  exact ⟨s, hrun, hfinished,
    (shutdown_leaves_leds_off hrun).1 nothingPending_earlyWrite hfinished⟩

/-- The daemon is stopped while the watcher has the event in hand. -/
def lateWrite : List LabStep :=
  joinReceived ++ [.stop, .ledOff, .ipcClose, .wlanCoreClose, .openLed true, .writeLed, .poll]

theorem end_lateWrite :
    (exec labStep (start (boot "wlan0".toList 3 28) LedView.dark) lateWrite).map
        (fun s => (s.phase, s.watcher, s.applied, s.led)) =
      some (.exited, .idle, ["sta_leave".toList, "sta_join".toList],
        ledRightOn (ledLeftOn LedView.dark)) := rfl

/-- The watcher's write comes after the daemon's, and the LEDs stay on after the exit. -/
theorem not_shutdown_leaves_leds_off :
    ∃ s, exec labStep (start (boot "wlan0".toList 3 28) LedView.dark) lateWrite = some s ∧
      Finished s ∧ s.applied.getLast? = some "sta_join".toList ∧ AllOn s.led ∧ ¬LedsOff s := by
  obtain ⟨s, hrun, hend⟩ := Option.map_eq_some_iff.mp end_lateWrite
  simp only [Prod.mk.injEq] at hend
  obtain ⟨hphase, hwatcher, happlied, hled⟩ := hend
  have hon : AllOn s.led := hled ▸ ⟨rfl, rfl, rfl, rfl⟩
  refine ⟨s, hrun, ⟨hphase, ?_, ?_⟩, ?_, hon, fun hoff => not_allOn_of_allOff hoff.off hon⟩
  · rw [hwatcher]
    exact nofun
  · rw [hwatcher]
    rfl
  · rw [happlied]
    rfl

end Shutdown
end LinuxLab
