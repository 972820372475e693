import Mathlib.Data.UInt
import LinuxLab.Wlinkd.TcpServer

/-!
# What a monitoring client sees

The clients share one event buffer.  A client takes the newest event whenever the
sequence counter has moved since it last looked, so what it takes is sound: later
and later events, each of them pushed after the session began, and no step of
another client makes a difference.  It is complete only while the client keeps up:
an event that is pushed before the one before it was taken replaces it.
-/

namespace LinuxLab
namespace Wlinkd
namespace TcpServer

open Lib

variable {ι : Type} [DecidableEq ι]

/-! ## Keeping up -/

/-- The client is not in monitor mode, or has taken the newest event. -/
def CaughtUp (g : TcpShared) (c : Client) : Prop :=
  ∀ lastSeq ses, c.current = some (lastSeq, ses) → lastSeq = g.gSeq

/-- No event is pushed before the client has taken the one before it. -/
def PushesAwaited (i : ι) (s : TcpServer ι) : TcpStep ι → Prop
  | .push _ _ => CaughtUp s.shared (s.clients i)
  | .client _ _ => True

theorem caughtUp_iff {g : TcpShared} {c : Client} :
    CaughtUp g c ↔ ∀ p ∈ c.current, p.1 = g.gSeq :=
  ⟨fun h p hp => h p.1 p.2 hp, fun h lastSeq ses hcurrent => h (lastSeq, ses) hcurrent⟩

instance decidablePushesAwaited (i : ι) (s : TcpServer ι) :
    ∀ x, Decidable (PushesAwaited i s x)
  | .push _ _ => decidable_of_iff _ caughtUp_iff.symm
  | .client _ _ => isTrue trivial

/-- The session has all events pushed since it began, or all but the one that waits
in the buffer. -/
inductive Following (g : TcpShared) (lastSeq : UInt64) (ses : Session) : Prop where
  | caughtUp (hseq : lastSeq = g.gSeq) (hentered : ses.entered ≤ g.pushed.length)
      (htaken : ses.taken.map Prod.snd = g.pushed.drop ses.entered)
  | behind (front : List CString) (hseq : lastSeq ≠ g.gSeq)
      (hpushed : g.pushed = front ++ [g.gPushEvent]) (hentered : ses.entered ≤ front.length)
      (htaken : ses.taken.map Prod.snd = front.drop ses.entered)

def Fits (g : TcpShared) : Prop := g.gPushEvent.length ≤ tcpServerBuf - 1

theorem fits_pushEvent (arg bssid : CString) (g : TcpShared) : Fits (pushEvent arg bssid g) := by
  rw [Fits, pushEvent, snprintf, List.length_take]
  omega

theorem strncpy_of_fits {g : TcpShared} (h : Fits g) :
    strncpy g.gPushEvent (tcpServerBuf - 1) = g.gPushEvent := List.take_of_length_le h

def FollowsClient (i : ι) (s : TcpServer ι) : Prop :=
  Fits s.shared ∧ ∀ lastSeq ses, (s.clients i).current = some (lastSeq, ses) →
    Following s.shared lastSeq ses

theorem following_push {g : TcpShared} {lastSeq : UInt64} {ses : Session} (arg bssid : CString)
    (h : Following g lastSeq ses) (hcaught : lastSeq = g.gSeq) :
    Following (pushEvent arg bssid g) lastSeq ses := by
  cases h with
  | caughtUp hseq hentered htaken =>
    refine .behind g.pushed ?_ rfl hentered htaken
    rw [hseq, pushEvent]
    exact (add_ne_left.mpr (by decide)).symm
  | behind front hseq => exact absurd hcaught hseq

theorem following_take {g : TcpShared} {lastSeq : UInt64} {ses : Session} (hfits : Fits g)
    (h : Following g lastSeq ses) (hnew : g.gSeq ≠ lastSeq) :
    Following g g.gSeq
      (ses.take g.pushed.length (strncpy g.gPushEvent (tcpServerBuf - 1))) := by
  rw [strncpy_of_fits hfits]
  cases h with
  | caughtUp hseq => exact absurd hseq.symm hnew
  | behind front hseq hpushed hentered htaken =>
    have hle : ses.entered ≤ g.pushed.length := by
      rw [hpushed, List.length_append]
      omega
    refine .caughtUp rfl hle ?_
    rw [Session.take, List.map_append, htaken, hpushed, List.drop_append_of_le_length hentered]
    rfl

theorem followsClient_step {i : ι} {s s' : TcpServer ι} {x : TcpStep ι}
    (hok : PushesAwaited i s x) (h : FollowsClient i s) (hstep : step s x = some s') :
    FollowsClient i s' := by
  obtain ⟨hfits, hsession⟩ := h
  cases stepFor_of_step i hstep with
  | @push arg bssid hx hshared hclient =>
    subst hx
    rw [FollowsClient, hshared, hclient]
    refine ⟨fits_pushEvent arg bssid s.shared, fun lastSeq ses hcurrent => ?_⟩
    exact following_push arg bssid (hsession lastSeq ses hcurrent) (hok lastSeq ses hcurrent)
  | own _ hshared hclient =>
    rw [FollowsClient, hshared]
    refine ⟨hfits, fun lastSeq ses hcurrent => ?_⟩
    cases clientStep_change hclient with
    | same hsame => exact hsession lastSeq ses (hsame ▸ hcurrent)
    | enter _ henter =>
      obtain ⟨rfl, rfl⟩ := current_inj henter hcurrent
      exact .caughtUp rfl (Nat.le_refl _) (by simp)
    | take hmonitor hnew htake =>
      obtain ⟨rfl, rfl⟩ := current_inj htake hcurrent
      exact following_take hfits (hsession _ _ hmonitor) hnew
    | leave _ hleave => cases hleave.symm.trans hcurrent
  | other _ _ hshared hclient =>
    rw [FollowsClient, hshared, hclient]
    exact ⟨hfits, hsession⟩

omit [DecidableEq ι] in
theorem followsClient_init (i : ι) : FollowsClient i (init : TcpServer ι) :=
  ⟨Nat.zero_le _, fun _ _ h => by cases h⟩

/-- In a run in which every event is pushed after the client has taken the one before
it, a client that is caught up has taken exactly the events pushed since its
session began, in the order in which they were pushed. -/
theorem monitor_takes_every_event {i : ι} {xs : List (TcpStep ι)} {s : TcpServer ι}
    (hawaited : Along step (PushesAwaited i) init xs) (hrun : exec step init xs = some s)
    {lastSeq : UInt64} {ses : Session} (hcurrent : (s.clients i).current = some (lastSeq, ses))
    (hcaught : lastSeq = s.shared.gSeq) :
    ses.taken.map Prod.snd = s.shared.pushed.drop ses.entered := by
  have hinv : FollowsClient i s := exec_invariant_along (I := FollowsClient i)
    (fun s x s' hok h hstep => followsClient_step hok h hstep) (followsClient_init i) hawaited hrun
  cases hinv.2 lastSeq ses hcurrent with
  | caughtUp _ _ htaken => exact htaken
  | behind front hseq => exact absurd hcaught hseq

/-- Two stations leave, and the client takes each event before the next one. -/
def leavesInTurn : List (TcpStep Unit) :=
  [.client () .accept, .client () (.command (some "monitor\n".toList) []), .client () .lock,
    .push "sta_leave".toList "02:00:00:00:00:01".toList, .client () (.wake false),
    .client () (.send true), .client () (.poll .again), .client () .lock,
    .push "sta_leave".toList "02:00:00:00:00:02".toList, .client () (.wake false)]

theorem monitor_takes_every_event_leavesInTurn :
    ∃ s lastSeq ses, exec step init leavesInTurn = some s ∧
      (s.clients ()).current = some (lastSeq, ses) ∧ lastSeq = s.shared.gSeq ∧
      ses.taken.map Prod.snd = s.shared.pushed.drop ses.entered ∧ s.shared.pushed.length = 2 := by
  have hawaited : Along step (PushesAwaited ()) init leavesInTurn := by decide +kernel
  obtain ⟨s, hrun⟩ : ∃ s, exec step init leavesInTurn = some s := ⟨_, rfl⟩
  obtain ⟨lastSeq, ses, hcurrent, hcaught, hpushed⟩ : ∃ lastSeq ses,
      (s.clients ()).current = some (lastSeq, ses) ∧ lastSeq = s.shared.gSeq ∧
        s.shared.pushed.length = 2 := by
    obtain rfl := Option.some.inj hrun
    exact ⟨_, _, rfl, rfl, rfl⟩
  exact ⟨s, lastSeq, ses, hrun, hcurrent, hcaught,
    monitor_takes_every_event hawaited hrun hcurrent hcaught, hpushed⟩

/-- Two stations leave while a client waits. -/
def twoLeaves : List (TcpStep Unit) :=
  [.client () .accept, .client () (.command (some "monitor\n".toList) []), .client () .lock,
    .push "sta_leave".toList "02:00:00:00:00:01".toList,
    .push "sta_leave".toList "02:00:00:00:00:02".toList, .client () (.wake false)]

/-- The second event replaces the first, and the client never sees it. -/
theorem not_monitor_takes_every_event :
    ∃ s lastSeq ses, exec step init twoLeaves = some s ∧
      (s.clients ()).current = some (lastSeq, ses) ∧ lastSeq = s.shared.gSeq ∧
      s.shared.pushed.drop ses.entered =
        ["sta_leave 02:00:00:00:00:01".toList, "sta_leave 02:00:00:00:00:02".toList] ∧
      ses.taken.map Prod.snd = ["sta_leave 02:00:00:00:00:02".toList] ∧
      ses.taken.map Prod.snd ≠ s.shared.pushed.drop ses.entered :=
  ⟨_, _, _, rfl, rfl, rfl, rfl, rfl, by decide⟩

/-! ## Soundness -/

/-- The events of a session are later and later pushes, all made after the session
began, each with the text that was pushed. -/
structure Sound (pushed : List CString) (ses : Session) : Prop where
  increasing : (ses.taken.map Prod.fst).Pairwise (· < ·)
  pushedSince : ∀ e ∈ ses.taken,
    ses.entered < e.1 ∧ e.1 ≤ pushed.length ∧ pushed[e.1 - 1]? = some e.2

structure Counted (g : TcpShared) : Prop where
  seq : g.gSeq = UInt64.ofNat g.pushed.length
  fits : Fits g
  newest : g.pushed = [] ∨ g.pushed.getLast? = some g.gPushEvent

/-- The local `last_seq` is the count at which the client last looked. -/
def Looked (g : TcpShared) (lastSeq : UInt64) (ses : Session) : Prop :=
  ∃ k, lastSeq = UInt64.ofNat k ∧ k ≤ g.pushed.length ∧ ses.entered ≤ k ∧
    ∀ e ∈ ses.taken, e.1 ≤ k

structure SoundClient (g : TcpShared) (c : Client) : Prop where
  past : ∀ ses ∈ c.past, Sound g.pushed ses
  current : ∀ lastSeq ses, c.current = some (lastSeq, ses) →
    Sound g.pushed ses ∧ Looked g lastSeq ses

theorem counted_pushEvent {g : TcpShared} (arg bssid : CString) (h : Counted g) :
    Counted (pushEvent arg bssid g) where
  seq := by
    rw [pushEvent, h.seq, List.length_append, List.length_singleton, UInt64.ofNat_add]
    rfl
  fits := fits_pushEvent arg bssid g
  newest := .inr List.getLast?_concat

theorem sound_append {pushed more : List CString} {ses : Session} (h : Sound pushed ses) :
    Sound (pushed ++ more) ses := by
  refine ⟨h.increasing, fun e he => ?_⟩
  obtain ⟨hafter, hle, hget⟩ := h.pushedSince e he
  refine ⟨hafter, ?_, ?_⟩
  · rw [List.length_append]
    omega
  · rw [List.getElem?_append_left (by omega), hget]

theorem soundClient_pushEvent {g : TcpShared} {c : Client} (arg bssid : CString)
    (h : SoundClient g c) : SoundClient (pushEvent arg bssid g) c where
  past ses hses := sound_append (h.past ses hses)
  current lastSeq ses hcurrent := by
    obtain ⟨hsound, k, hseq, hle, hentered, htaken⟩ := h.current lastSeq ses hcurrent
    refine ⟨sound_append hsound, k, hseq, ?_, hentered, htaken⟩
    rw [pushEvent, List.length_append]
    omega

/-- Taking the newest event keeps a session sound: the counter has moved, so the
event is later than all that were taken. -/
theorem sound_take {g : TcpShared} {lastSeq : UInt64} {ses : Session} (hg : Counted g)
    (hsound : Sound g.pushed ses) (hlooked : Looked g lastSeq ses) (hnew : g.gSeq ≠ lastSeq) :
    Sound g.pushed (ses.take g.pushed.length (strncpy g.gPushEvent (tcpServerBuf - 1))) ∧
      Looked g g.gSeq (ses.take g.pushed.length (strncpy g.gPushEvent (tcpServerBuf - 1))) := by
  obtain ⟨k, hseq, hle, hentered, htaken⟩ := hlooked
  have hlt : k < g.pushed.length := by
    rcases Nat.lt_or_eq_of_le hle with hlt | heq
    · exact hlt
    · exact absurd (by rw [hg.seq, hseq, heq]) hnew
  have hget : g.pushed[g.pushed.length - 1]? = some g.gPushEvent := by
    rcases hg.newest with hnil | hlast
    · rw [hnil] at hlt
      simp at hlt
    · rwa [List.getLast?_eq_getElem?] at hlast
  rw [strncpy_of_fits hg.fits]
  refine ⟨⟨?_, ?_⟩, g.pushed.length, hg.seq, Nat.le_refl _, ?_, ?_⟩
  · rw [Session.take, List.map_append, List.pairwise_append]
    refine ⟨hsound.increasing, List.pairwise_singleton _ _, fun n hn m hm => ?_⟩
    obtain ⟨e, he, rfl⟩ := List.mem_map.mp hn
    obtain rfl : m = g.pushed.length := by simpa using hm
    have := htaken e he
    omega
  · intro e he
    rcases List.mem_append.mp he with he | he
    · exact hsound.pushedSince e he
    · obtain rfl := List.mem_singleton.mp he
      exact ⟨Nat.lt_of_le_of_lt hentered hlt, Nat.le_refl _, hget⟩
  · exact Nat.le_trans hentered hle
  · intro e he
    rcases List.mem_append.mp he with he | he
    · exact Nat.le_trans (htaken e he) hle
    · obtain rfl := List.mem_singleton.mp he
      exact Nat.le_refl _

theorem soundClient_clientStep {g : TcpShared} {c c' : Client} {a : ClientAction} (hg : Counted g)
    (h : SoundClient g c) (hstep : clientStep g c a = some c') : SoundClient g c' := by
  cases clientStep_change hstep with
  | same hcurrent hpast =>
    exact ⟨hpast ▸ h.past, hcurrent ▸ h.current⟩
  | enter _ hcurrent hpast =>
    refine ⟨hpast ▸ h.past, fun lastSeq ses hc => ?_⟩
    obtain ⟨rfl, rfl⟩ := current_inj hcurrent hc
    exact ⟨⟨List.Pairwise.nil, by simp⟩, g.pushed.length, hg.seq, Nat.le_refl _, Nat.le_refl _,
      by simp⟩
  | take hmonitor hnew hcurrent hpast =>
    refine ⟨hpast ▸ h.past, fun lastSeq ses hc => ?_⟩
    obtain ⟨rfl, rfl⟩ := current_inj hcurrent hc
    obtain ⟨hsound, hlooked⟩ := h.current _ _ hmonitor
    exact sound_take hg hsound hlooked hnew
  | leave hmonitor hcurrent hpast =>
    refine ⟨fun ses hses => ?_, fun lastSeq ses hc => by cases hcurrent.symm.trans hc⟩
    rw [hpast] at hses
    rcases List.mem_append.mp hses with hses | hses
    · exact h.past ses hses
    · obtain rfl := List.mem_singleton.mp hses
      exact (h.current _ _ hmonitor).1

def SoundServer (s : TcpServer ι) : Prop :=
  Counted s.shared ∧ ∀ i, SoundClient s.shared (s.clients i)

theorem soundServer_step {s s' : TcpServer ι} {x : TcpStep ι} (h : SoundServer s)
    (hstep : step s x = some s') : SoundServer s' := by
  obtain ⟨hg, hclients⟩ := h
  have hg' : Counted s'.shared := by
    cases x with
    | push arg bssid =>
      obtain rfl := Option.some.inj hstep
      exact counted_pushEvent arg bssid hg
    | client j a =>
      obtain ⟨c, -, rfl⟩ := Option.map_eq_some_iff.mp hstep
      exact hg
  refine ⟨hg', fun i => ?_⟩
  cases stepFor_of_step i hstep with
  | push _ hshared hclient =>
    rw [hshared, hclient]
    exact soundClient_pushEvent _ _ (hclients i)
  | own _ hshared hclient =>
    rw [hshared]
    exact soundClient_clientStep hg (hclients i) hclient
  | other _ _ hshared hclient =>
    rw [hshared, hclient]
    exact hclients i

omit [DecidableEq ι] in
theorem soundServer_init : SoundServer (init : TcpServer ι) := by
  refine ⟨⟨rfl, Nat.zero_le _, .inl rfl⟩, fun i => ⟨?_, fun _ _ h => by cases h⟩⟩
  intro ses hses
  cases hses

theorem sound_of_mem_sessions {g : TcpShared} {c : Client} (h : SoundClient g c) {ses : Session}
    (hses : ses ∈ c.sessions) : Sound g.pushed ses := by
  rcases List.mem_append.mp hses with hses | hses
  · exact h.past ses hses
  · rw [Option.mem_toList, Option.map_eq_some_iff] at hses
    obtain ⟨⟨lastSeq, ses'⟩, hcurrent, rfl⟩ := hses
    exact (h.current lastSeq ses' hcurrent).1

/-! ## Independence -/

def concerns (i : ι) : TcpStep ι → Bool
  | .push _ _ => true
  | .client j _ => decide (j = i)

/-- The server with one client alone. -/
def soloStep (v : TcpShared × Client) : TcpStep ι → Option (TcpShared × Client)
  | .push arg bssid => some (pushEvent arg bssid v.1, v.2)
  | .client _ a => (clientStep v.1 v.2 a).map (fun c => (v.1, c))

/-- What a client sees of a run is the run of its own steps and the pushes. -/
theorem exec_solo (i : ι) {s s' : TcpServer ι} {xs : List (TcpStep ι)}
    (hrun : exec step s xs = some s') :
    exec soloStep (s.shared, s.clients i) (xs.filter (concerns i)) =
      some (s'.shared, s'.clients i) := by
  refine exec_project (fun s => (s.shared, s.clients i)) (fun s x s' hp hstep => ?_)
    (fun s x s' hp hstep => ?_) hrun
  · cases stepFor_of_step i hstep with
    | push hx hshared hclient => rw [hx, soloStep, hshared, hclient]
    | own hx hshared hclient => rw [hx, soloStep, hclient, hshared, Option.map_some]
    | other hx hne => simp [hx, concerns, hne] at hp
  · cases stepFor_of_step i hstep with
    | push hx => simp [hx, concerns] at hp
    | own hx => simp [hx, concerns] at hp
    | other _ _ hshared hclient => rw [hshared, hclient]

/-- One step adds at most one event to the session of a client that stays in monitor
mode, and that is the newest push. -/
def TakesNewest (i : ι) (s s' : TcpServer ι) : Prop :=
  ∀ lastSeq lastSeq' ses ses', (s.clients i).current = some (lastSeq, ses) →
    (s'.clients i).current = some (lastSeq', ses') → ses' = ses ∨
      ∃ event, s.shared.pushed.getLast? = some event ∧ ses' = ses.take s.shared.pushed.length event

theorem takesNewest_step {i : ι} {s s' : TcpServer ι} {x : TcpStep ι} (h : SoundServer s)
    (hstep : step s x = some s') : TakesNewest i s s' := by
  intro lastSeq lastSeq' ses ses' hcurrent hcurrent'
  cases stepFor_of_step i hstep with
  | push _ _ hclient =>
    rw [hclient] at hcurrent'
    exact .inl (current_inj hcurrent' hcurrent).2
  | other _ _ _ hclient =>
    rw [hclient] at hcurrent'
    exact .inl (current_inj hcurrent' hcurrent).2
  | own _ _ hclient =>
    cases clientStep_change hclient with
    | same hsame =>
      rw [hsame] at hcurrent'
      exact .inl (current_inj hcurrent' hcurrent).2
    | enter hcommand => cases hcommand.symm.trans hcurrent
    | take hmonitor hnew htake =>
      obtain ⟨rfl, rfl⟩ := current_inj hmonitor hcurrent
      have hses := (current_inj htake hcurrent').2
      rw [strncpy_of_fits h.1.fits] at hses
      obtain ⟨k, hseq, hle, -, -⟩ := ((h.2 i).current _ _ hcurrent).2
      refine .inr ⟨s.shared.gPushEvent, h.1.newest.resolve_left (fun hnil => hnew ?_), hses.symm⟩
      -- Without a push the counter could not have moved.
      rw [hnil, List.length_nil] at hle
      rw [h.1.seq, hseq, hnil, Nat.le_zero.mp hle, List.length_nil]
    | leave _ hleave => cases hleave.symm.trans hcurrent'

/-- In every run, with any number of clients and of pushes, the events that a client
takes in a session are later and later pushes, all made after the session read the
counter, and each is the newest push when it is taken.  Two runs that differ only
in the steps of other clients give the client the same sessions. -/
theorem monitor_sound_and_independent {i : ι} {xs : List (TcpStep ι)} {s : TcpServer ι}
    (hrun : exec step init xs = some s) :
    (∀ ses ∈ (s.clients i).sessions, Sound s.shared.pushed ses) ∧
    (∀ x s', step s x = some s' → TakesNewest i s s') ∧
    ∀ ys s', exec step init ys = some s' → ys.filter (concerns i) = xs.filter (concerns i) →
      (s'.clients i).sessions = (s.clients i).sessions := by
  have hsound : SoundServer s := exec_invariant (I := SoundServer)
    (fun s x s' h hstep => soundServer_step h hstep) soundServer_init hrun
  refine ⟨fun ses hses => sound_of_mem_sessions (hsound.2 i) hses,
    fun x s' hstep => takesNewest_step hsound hstep, fun ys s' hrun' hsame => ?_⟩
  have hsolo := exec_solo i hrun
  have hsolo' := exec_solo i hrun'
  rw [hsame, hsolo] at hsolo'
  rw [(Prod.mk.inj (Option.some.inj hsolo')).2]

theorem monitor_sound_and_independent_twoLeaves :
    ∃ s, exec step init twoLeaves = some s ∧
      (s.clients ()).sessions = [⟨0, [(2, "sta_leave 02:00:00:00:00:02".toList)]⟩] ∧
      ∀ ses ∈ (s.clients ()).sessions, Sound s.shared.pushed ses := by
  obtain ⟨s, hrun⟩ : ∃ s, exec step init twoLeaves = some s := ⟨_, rfl⟩
  refine ⟨s, hrun, ?_, (monitor_sound_and_independent hrun).1⟩
  obtain rfl := Option.some.inj hrun
  rfl

end TcpServer
end Wlinkd
end LinuxLab
