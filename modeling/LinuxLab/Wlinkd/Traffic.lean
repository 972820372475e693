import LinuxLab.Wlinkd.Occupancy
import LinuxLab.Wlinkd.Refresh

/-!
# Traffic reports

A dump entry of a tracked station is reported as traffic when its packet total is
above the one that the entry before it left in the node.  An entry that carries no
counters leaves zero there, so the next entry is compared with zero and not with the
last total that was seen.

To say which entry comes before which, a run of the main loop is taken apart into the
places where it touches the stations, one callback or one call of
`wlan_nl80211_remove_sta` each.
-/

namespace LinuxLab
namespace Wlinkd

open Lib WlanUtils WlanLibnl WlanNl80211

/-! ## A run in small steps -/

inductive Touch where
  -- `wlan_nl80211_reset_ap_info`.
  | reset (ifaddrs : Option (List IfAddr))
  -- `wlan_nl80211_netdev_info_handler_cb`.
  | message (p : Env × NlMsg)
  -- `wlan_nl80211_get_link_signal_cb`.
  | entry (p : Env × NlMsg)
  -- `wlan_nl80211_remove_sta`.
  | remove (bssids : Option (List CString)) (count : Int)
deriving DecidableEq, Repr

def touch (d : Daemon) : Touch → Daemon
  | .reset ifaddrs => resetApInfo ifaddrs d
  | .message p => netdevInfoHandlerCb p d
  | .entry p => (getLinkSignalCb p (d, [])).1
  | .remove bssids count => { d with mgr := removeSta bssids count d.mgr }

/-- What follows on the answer to `GET_STATION`. -/
def dumpTouches (r : RefreshInput) : List Touch :=
  match transcript r.staExchange with
  | none => []
  | some (err, dump) =>
    dump.map .entry ++
      if err < 0 then []
      else [.remove (some ((dumpTexts dump).take maxStas)) ((dumpTexts dump).take maxStas).length]

/-- The touches of a refresh. -/
def refreshTouches (r : RefreshInput) (d : Daemon) : List Touch :=
  if d.reqSock = false ∨ d.nl80211Id < 0 then []
  else
    .reset r.ifaddrs ::
      if r.ifAlloc = false then []
      else
        match transcript r.ifExchange with
        | none => []
        | some (err, msgs) =>
          msgs.map .message ++
            if err < 0 then []
            else if
                ((msgs.map .message).foldl touch (resetApInfo r.ifaddrs d)).isApMode = false then
              [.remove none (-1)]
            else if r.staAlloc = false then []
            else dumpTouches r

def mainTouches (d : Daemon) : MainStep → List Touch
  | .event env msg => [.message (env, msg)]
  | .refresh r => refreshTouches r d

/-- The touches of a run, in order. -/
def runTouches : Daemon → List MainStep → List Touch
  | _, [] => []
  | d, x :: xs =>
    mainTouches d x ++
      match mainStep d x with
      | none => []
      | some d' => runTouches d' xs

theorem getLinkSignalCb_fst (p : Env × NlMsg) (s : Daemon × List CString) :
    (getLinkSignalCb p s).1 = touch s.1 (.entry p) := by
  cases hmac : p.2.mac with
  | none => simp only [touch, getLinkSignalCb_none hmac]
  | some mac => simp only [touch, getLinkSignalCb, hmac]

theorem foldl_getLinkSignalCb_fst (dump : List (Env × NlMsg)) (s : Daemon × List CString) :
    (dump.foldl (fun s p => getLinkSignalCb p s) s).1 = (dump.map .entry).foldl touch s.1 := by
  induction dump generalizing s with
  | nil => rfl
  | cons p dump ih =>
    rw [List.foldl_cons, ih, List.map_cons, List.foldl_cons, getLinkSignalCb_fst]

theorem foldl_netdevInfoHandlerCb_touch (msgs : List (Env × NlMsg)) (d : Daemon) :
    msgs.foldl (fun d p => netdevInfoHandlerCb p d) d = (msgs.map .message).foldl touch d := by
  rw [List.foldl_map]
  rfl

/-- The request `GET_INTERFACE`, as touches. -/
theorem getInterface_touches {r : RefreshInput} {d d₁ : Daemon} {err : Int} (hlive : Live d)
    (h : getInterface r (resetApInfo r.ifaddrs d) = some (err, d₁)) :
    ∃ msgs, transcript r.ifExchange = some (err, msgs) ∧
      d₁ = (msgs.map .message).foldl touch (resetApInfo r.ifaddrs d) := by
  have hsock : (resetApInfo r.ifaddrs d).reqSock = true := hlive.1
  obtain ⟨msgs, htrans, heq⟩ := getInterface_eq hsock h
  exact ⟨msgs, htrans, heq.trans (foldl_netdevInfoHandlerCb_touch msgs _)⟩

/-- The request `GET_STATION`, as touches. -/
theorem getStation_touches {r : RefreshInput} {d d₂ : Daemon} {err : Int} {bssids : List CString}
    (hsock : d.reqSock = true) (h : getStation r d = some (err, d₂, bssids)) :
    ∃ dump, transcript r.staExchange = some (err, dump) ∧
      d₂ = (dump.map .entry).foldl touch d ∧ bssids = (dumpTexts dump).take maxStas := by
  obtain ⟨dump, htrans, hfold⟩ := getStation_eq hsock h
  refine ⟨dump, htrans, ?_, ?_⟩
  · rw [← foldl_getLinkSignalCb_fst dump (d, []), ← hfold]
  · rw [← foldl_getLinkSignalCb_ctx d dump, ← hfold]

theorem refresh_touches {r : RefreshInput} {d d' : Daemon} (h : refresh r d = some d') :
    d' = (refreshTouches r d).foldl touch d := by
  rw [refreshTouches]
  cases refreshed_of_refresh h with
  | idle hidle =>
    rw [if_pos (not_not.mp (fun h => hidle (live_iff.mpr h)))]
    rfl
  | noIfMsg hlive halloc =>
    rw [if_neg (live_iff.mp hlive), if_pos halloc]
    rfl
  | ifFailed hlive halloc hif herr =>
    obtain ⟨msgs, htrans, rfl⟩ := getInterface_touches hlive hif
    simp [live_iff.mp hlive, halloc, htrans, herr, touch]
  | notAp hlive halloc hif herr hmode =>
    obtain ⟨msgs, htrans, rfl⟩ := getInterface_touches hlive hif
    simp [live_iff.mp hlive, halloc, htrans, herr.not_gt, hmode, touch]
  | noStaMsg hlive halloc hif herr hmode hsalloc =>
    obtain ⟨msgs, htrans, rfl⟩ := getInterface_touches hlive hif
    simp [live_iff.mp hlive, halloc, htrans, hmode, hsalloc, touch]
  | staFailed hlive halloc hif herr hmode hsalloc hsta herr₂ =>
    have hsock := (getInterface_change hlive hif).1
    obtain ⟨msgs, htrans, rfl⟩ := getInterface_touches hlive hif
    obtain ⟨dump, htrans₂, rfl, -⟩ := getStation_touches hsock hsta
    simp [live_iff.mp hlive, halloc, htrans, herr.not_gt, hmode, hsalloc, dumpTouches, htrans₂,
      herr₂, touch]
  | dumped hlive halloc hif herr hmode hsalloc hsta herr₂ =>
    have hsock := (getInterface_change hlive hif).1
    obtain ⟨msgs, htrans, rfl⟩ := getInterface_touches hlive hif
    obtain ⟨dump, htrans₂, rfl, rfl⟩ := getStation_touches hsock hsta
    simp [live_iff.mp hlive, halloc, htrans, herr.not_gt, hmode, hsalloc, dumpTouches, htrans₂,
      herr₂.not_gt, touch]

theorem mainStep_touches {d d' : Daemon} {x : MainStep} (h : mainStep d x = some d') :
    d' = (mainTouches d x).foldl touch d := by
  cases x with
  | event env msg =>
    rw [mainStep, Option.some.injEq] at h
    exact h.symm
  | refresh r => exact refresh_touches h

/-- The touches of a run lead to its end. -/
theorem exec_touches {d d' : Daemon} {xs : List MainStep} (hrun : exec mainStep d xs = some d') :
    d' = (runTouches d xs).foldl touch d := by
  induction xs generalizing d with
  | nil =>
    rw [exec_nil, Option.some.injEq] at hrun
    exact hrun.symm
  | cons x xs ih =>
    obtain ⟨t, ht, hrest⟩ := exists_step_of_exec hrun
    rw [runTouches, ht, List.foldl_append, ← mainStep_touches ht]
    exact ih hrest

/-! ## What the entries of a station have reported -/

/-- The entry has at least one of the two packet counters. -/
def NlMsg.carriesCounters (msg : NlMsg) : Bool :=
  match msg.staInfo with
  | .parsed info => info.txPackets.isSome || info.rxPackets.isSome
  | _ => false

/-- The message of a dump entry for the station `b`. -/
def reportOf (b : CString) : Touch → Option NlMsg
  | .entry p => if p.2.mac.map bssidText = some b then some p.2 else none
  | _ => none

/-- What is known from the dump entries of a station since it was added. -/
structure Reported where
  -- The total of the last entry that carried counters, zero if there was none.
  baseline : Nat
  -- The last entry carried no counters.
  blind : Bool
deriving DecidableEq, Repr

namespace Reported

def start : Reported := { baseline := 0, blind := false }

def after (b : CString) (x : Touch) (h : Reported) : Reported :=
  match reportOf b x with
  | none => h
  | some msg =>
    if msg.carriesCounters then { baseline := msg.totalPackets, blind := false }
    else { h with blind := true }

/-- What the node has in `priv_pkts`. -/
def stored (h : Reported) : Nat := if h.blind then 0 else h.baseline

end Reported

/-- One touch, and what it says about the station `b`.  A station that is not tracked
has nothing reported. -/
def follow (b : CString) (s : Daemon × Reported) (x : Touch) : Daemon × Reported :=
  (touch s.1 x,
    if (WlanStaMgr.find b (touch s.1 x).mgr).isSome then s.2.after b x else .start)

/-- What has been reported about `b` after some touches. -/
def reported (b : CString) (d : Daemon) (xs : List Touch) : Reported :=
  (xs.foldl (follow b) (d, .start)).2

theorem totalPackets_eq_zero {msg : NlMsg} (h : ¬msg.carriesCounters = true) :
    msg.totalPackets = 0 := by
  unfold NlMsg.carriesCounters at h
  unfold NlMsg.totalPackets
  cases hinfo : msg.staInfo with
  | absent => rfl
  | malformed => rfl
  | parsed info =>
    simp only [hinfo, Bool.or_eq_true, not_or, Bool.not_eq_true, Option.isSome_eq_false_iff,
      Option.isNone_iff_eq_none] at h
    simp [h.1, h.2]

/-- Where a node that is there after a touch comes from. -/
inductive Found (b : CString) (x : Touch) (m : StaMgr) (st : Station) : Prop where
  | kept (hx : reportOf b x = none) (h : WlanStaMgr.find b m = some st)
  | added (hx : reportOf b x = none) (hnew : b ∉ m.bssids) (hpkts : st.privPkts = 0)
  | reported {msg : NlMsg} (hx : reportOf b x = some msg)
      (hpkts : st.privPkts = msg.totalPackets)

theorem newStationEvent_found {env : Env} {mac : Mac} {m : StaMgr} {b : CString} {st : Station}
    (h : WlanStaMgr.find b (newStationEvent env (bssidText mac) m) = some st) :
    WlanStaMgr.find b m = some st ∨ b ∉ m.bssids ∧ st.privPkts = 0 := by
  rw [newStationEvent, if_pos (bssidText_ne_nil mac)] at h
  by_cases htracked : bssidText mac ∈ m.bssids
  · rw [WlanStaMgr.add_tracked htracked] at h
    exact Or.inl h
  · cases hmem : env.malloc with
    | false =>
      rw [WlanStaMgr.add_failed htracked hmem] at h
      exact Or.inl h
    | true =>
      rw [WlanStaMgr.add_fresh htracked hmem] at h
      have h : KeyedList.lookup Station.bssid b (WlanStaMgr.newStation mac env.now :: m.head) =
          some st := h
      have hself : (WlanStaMgr.newStation mac env.now).bssid = bssidText mac := rfl
      by_cases hb : bssidText mac = b
      · rw [KeyedList.lookup_cons_self (hself.trans hb), Option.some.injEq] at h
        exact Or.inr ⟨hb ▸ htracked, by rw [← h]; rfl⟩
      · rw [KeyedList.lookup_cons_ne (by rwa [hself])] at h
        exact Or.inl h

theorem delStationEvent_found {mac : Mac} {m : StaMgr} {b : CString} {st : Station}
    (hm : WellFormed m) (h : WlanStaMgr.find b (delStationEvent (bssidText mac) m) = some st) :
    WlanStaMgr.find b m = some st := by
  by_cases htracked : bssidText mac ∈ m.bssids
  · rw [delStationEvent_tracked htracked, WlanStaMgr.find] at h
    by_cases hb : b = bssidText mac
    · rw [hb, KeyedList.lookup_unlink_self hm.distinct] at h
      cases h
    · rwa [KeyedList.lookup_unlink_ne hb] at h
  · rwa [delStationEvent_untracked htracked] at h

theorem removeSta_found {bssids : Option (List CString)} {count : Int} {m : StaMgr} {b : CString}
    {st : Station} (h : WlanStaMgr.find b (removeSta bssids count m) = some st) :
    WlanStaMgr.find b m = some st := by
  rw [removeSta_eq, WlanStaMgr.find, KeyedList.lookup_filter (stays bssids count)] at h
  split at h
  · exact h
  · cases h

theorem entry_found {p : Env × NlMsg} {d : Daemon} {b : CString} {st : Station}
    (h : WlanStaMgr.find b (touch d (.entry p)).mgr = some st) : Found b (.entry p) d.mgr st := by
  have htouch : (touch d (.entry p)).mgr = (getLinkSignalCb p (d, [])).1.mgr := rfl
  rw [htouch] at h
  cases hmac : p.2.mac with
  | none =>
    rw [getLinkSignalCb_none hmac] at h
    exact .kept (by simp [reportOf, hmac]) h
  | some mac =>
    rw [getLinkSignalCb_mgr hmac] at h
    by_cases hb : b = bssidText mac
    · subst hb
      have hreport : reportOf (bssidText mac) (.entry p) = some p.2 := by simp [reportOf, hmac]
      refine .reported hreport ?_
      by_cases htracked : bssidText mac ∈ d.mgr.bssids
      · obtain ⟨sta, hsta⟩ := WlanStaMgr.exists_find htracked
        rw [updateSta_tracked hsta, find_reportTo_self, hsta, Option.map_some,
          Option.some.injEq] at h
        rw [← h]
        rfl
      · cases hmem : p.1.malloc with
        | false =>
          rw [updateSta_failed htracked hmem, WlanStaMgr.find_eq_none.mpr htracked] at h
          exact absurd h nofun
        | true =>
          obtain ⟨st', hst', -, hpkts⟩ :=
            updateSta_find_self mac p.2.rssiDbm p.2.totalPackets d.mgr hmem
          rw [hst', Option.some.injEq] at h
          rw [← h, hpkts]
    · rw [updateSta_find_ne hb] at h
      exact .kept (by simp [reportOf, hmac, Ne.symm hb]) h

theorem touch_found {x : Touch} {d : Daemon} {b : CString} {st : Station} (hm : WellFormed d.mgr)
    (h : WlanStaMgr.find b (touch d x).mgr = some st) : Found b x d.mgr st := by
  cases x with
  | reset ifaddrs => exact .kept rfl h
  | message p =>
    rw [touch] at h
    generalize hd' : netdevInfoHandlerCb p d = d' at h
    have hhandled := netdevInfoHandlerCb_handled p d
    rw [hd'] at hhandled
    cases hhandled with
    | ignored => exact .kept rfl h
    | newStation mac hcmd =>
      exact (newStationEvent_found h).elim (.kept rfl) (fun hnew => .added rfl hnew.1 hnew.2)
    | delStation mac hdel => exact .kept rfl (delStationEvent_found hm h)
    | interface => exact .kept rfl h
  | entry p => exact entry_found h
  | remove bssids count => exact .kept rfl (removeSta_found h)

theorem touch_change (d : Daemon) (x : Touch) : Change d.mgr (touch d x).mgr := by
  cases x with
  | reset ifaddrs => exact .grow .quiet
  | message p => exact (netdevInfoHandlerCb_handled p d).change
  | entry p => exact .grow (getLinkSignalCb_grow p (d, []))
  | remove bssids count => exact .remove bssids count

/-- The node of a tracked station holds what its entries have reported. -/
structure Follows (b : CString) (s : Daemon × Reported) : Prop where
  wellFormed : WellFormed s.1.mgr
  start : b ∉ s.1.mgr.bssids → s.2 = .start
  stored : ∀ st, WlanStaMgr.find b s.1.mgr = some st → st.privPkts = s.2.stored

theorem follows_follow {b : CString} {s : Daemon × Reported} (h : Follows b s) (x : Touch) :
    Follows b (follow b s x) := by
  refine ⟨wellFormed_change h.wellFormed (touch_change s.1 x),
    fun hb => if_neg (mt WlanStaMgr.find_isSome.mp hb), ?_⟩
  intro st hst
  have htracked : (WlanStaMgr.find b (touch s.1 x).mgr).isSome = true :=
    Option.isSome_of_eq_some hst
  have hafter : (follow b s x).2 = s.2.after b x := if_pos htracked
  rw [hafter, Reported.after]
  cases touch_found h.wellFormed hst with
  | kept hx hold =>
    rw [hx]
    exact h.stored st hold
  | added hx hnew hpkts =>
    rw [hx, h.start hnew, hpkts]
    rfl
  | @reported msg hx hpkts =>
    rw [hx, hpkts]
    dsimp only
    by_cases hcounters : msg.carriesCounters = true
    · rw [if_pos hcounters]
      rfl
    · rw [if_neg hcounters, totalPackets_eq_zero hcounters]
      rfl

theorem foldl_follow_fst (b : CString) (xs : List Touch) (s : Daemon × Reported) :
    (xs.foldl (follow b) s).1 = xs.foldl touch s.1 := by
  induction xs generalizing s with
  | nil => rfl
  | cons x xs ih => rw [List.foldl_cons, ih, List.foldl_cons, follow]

/-- After any touches from the empty list. -/
theorem stored_reported {d : Daemon} (hinit : d.mgr = WlanStaMgr.init) (xs : List Touch)
    {b : CString} {st : Station} (hst : WlanStaMgr.find b (xs.foldl touch d).mgr = some st) :
    st.privPkts = (reported b d xs).stored := by
  have hstart : Follows b (d, .start) := by
    refine ⟨hinit ▸ wellFormed_init, fun _ => rfl, fun st hst => ?_⟩
    rw [hinit] at hst
    exact absurd hst nofun
  have hfollows : Follows b (xs.foldl (follow b) (d, .start)) :=
    List.foldlRecOn xs _ hstart (fun s hs x _ => follows_follow hs x)
  refine hfollows.stored st ?_
  rw [foldl_follow_fst]
  exact hst

/-! ## The reports of traffic -/

def trafficPushes (out : List Output) : Nat := (ipcMessages out).count .traffic

/-- The entry `p` is reported as it should be: once if it carries counters and their
total is above the baseline, and otherwise not at all. -/
def ReportedRight (d : Daemon) (p : Env × NlMsg) (baseline : Nat) : Prop :=
  trafficPushes (touch d (.entry p)).mgr.out =
    trafficPushes d.mgr.out +
      if p.2.carriesCounters = true ∧ baseline < p.2.totalPackets then 1 else 0

theorem trafficPushes_append (out new : List Output) :
    trafficPushes (out ++ new) = trafficPushes out + trafficPushes new := by
  rw [trafficPushes, ipcMessages_append, List.count_append]
  rfl

theorem trafficPushes_tracked {d : Daemon} {p : Env × NlMsg} {mac : Mac} {sta : Station}
    (hmac : p.2.mac = some mac) (hsta : WlanStaMgr.find (bssidText mac) d.mgr = some sta) :
    trafficPushes (touch d (.entry p)).mgr.out =
      trafficPushes d.mgr.out + if sta.privPkts < p.2.totalPackets then 1 else 0 := by
  have htouch : (touch d (.entry p)).mgr = (getLinkSignalCb p (d, [])).1.mgr := rfl
  rw [htouch, getLinkSignalCb_mgr hmac, updateSta_tracked hsta, trafficPushes_append]
  split <;> rfl

theorem trafficPushes_untracked {d : Daemon} {p : Env × NlMsg}
    (h : ∀ mac, p.2.mac = some mac → bssidText mac ∉ d.mgr.bssids) :
    trafficPushes (touch d (.entry p)).mgr.out = trafficPushes d.mgr.out := by
  have htouch : (touch d (.entry p)).mgr = (getLinkSignalCb p (d, [])).1.mgr := rfl
  rw [htouch]
  cases hmac : p.2.mac with
  | none => rw [getLinkSignalCb_none hmac]
  | some mac =>
    rw [getLinkSignalCb_mgr hmac]
    cases hmem : p.1.malloc with
    | false => rw [updateSta_failed (h mac hmac) hmem]
    | true =>
      rw [updateSta_fresh (h mac hmac) hmem, trafficPushes_append]
      rfl

/-- Comparing with what is stored gives the right report exactly in these cases. -/
theorem stored_right_iff (h : Reported) (msg : NlMsg) (n : Nat) :
    (n + (if h.stored < msg.totalPackets then 1 else 0) =
        n + if msg.carriesCounters = true ∧ h.baseline < msg.totalPackets then 1 else 0) ↔
      (h.blind = true → msg.totalPackets = 0 ∨ h.baseline < msg.totalPackets) := by
  -- An entry with packets carries counters, so only the two comparisons matter.
  have hcounters : (msg.carriesCounters = true ∧ h.baseline < msg.totalPackets) ↔
      h.baseline < msg.totalPackets := by
    refine ⟨fun hc => hc.2, fun hlt => ⟨?_, hlt⟩⟩
    by_contra hnot
    rw [totalPackets_eq_zero hnot] at hlt
    exact Nat.not_lt_zero _ hlt
  obtain ⟨baseline, blind⟩ := h
  simp only [hcounters, Reported.stored]
  cases blind with
  | false => simp
  | true =>
    by_cases hlt : baseline < msg.totalPackets
    · have hpos : 0 < msg.totalPackets := Nat.lt_of_le_of_lt (Nat.zero_le _) hlt
      simp [hlt, hpos]
    · by_cases hzero : msg.totalPackets = 0
      · simp [hzero]
      · simp [hlt, hzero, Nat.pos_of_ne_zero hzero]

/-- In every run from the empty list, an entry of a tracked station is reported as it
should be exactly if the entry before it carried counters, or the entry shows no
packets, or more than were ever seen.  An entry of a station that is not tracked, and
one without an address, is never reported. -/
theorem traffic_reported_iff {d d' : Daemon} {xs : List MainStep} (hinit : d.mgr = WlanStaMgr.init)
    (hrun : exec mainStep d xs = some d') :
    d' = (runTouches d xs).foldl touch d ∧
      ∀ front p back, runTouches d xs = front ++ .entry p :: back →
        (∀ mac, p.2.mac = some mac → bssidText mac ∈ (front.foldl touch d).mgr.bssids →
          (ReportedRight (front.foldl touch d) p (reported (bssidText mac) d front).baseline ↔
            ((reported (bssidText mac) d front).blind = true → p.2.totalPackets = 0 ∨
              (reported (bssidText mac) d front).baseline < p.2.totalPackets))) ∧
        ((∀ mac, p.2.mac = some mac → bssidText mac ∉ (front.foldl touch d).mgr.bssids) →
          trafficPushes (touch (front.foldl touch d) (.entry p)).mgr.out =
            trafficPushes (front.foldl touch d).mgr.out) := by
  refine ⟨exec_touches hrun, fun front p back _ => ⟨fun mac hmac htracked => ?_, ?_⟩⟩
  · obtain ⟨sta, hsta⟩ := WlanStaMgr.exists_find htracked
    rw [ReportedRight, trafficPushes_tracked hmac hsta, stored_reported hinit front hsta]
    exact stored_right_iff _ p.2 _
  · exact trafficPushes_untracked

/-- A dump entry with a packet total and nothing else. -/
def packetsMsg (mac : Mac) (packets : UInt32) : NlMsg :=
  { stationMsg .newStation 3 mac with
    staInfo := .parsed { signal := none, txBitrate := .absent, txPackets := some packets,
                         rxPackets := none } }

/-- Refreshes whose dumps have one entry each. -/
def entryRefreshes (msgs : List NlMsg) : List MainStep :=
  msgs.map (fun msg => .refresh (apRefresh 3 [(Env.at 9, msg)] 0))

/-- Ten packets, and then twenty. -/
def growing : List MainStep :=
  entryRefreshes [packetsMsg (localMac 1) 10, packetsMsg (localMac 1) 20]

theorem traffic_reported_growing :
    ∃ d' front back, exec mainStep (boot "wlan0".toList 3 28) growing = some d' ∧
      runTouches (boot "wlan0".toList 3 28) growing =
        front ++ .entry (Env.at 9, packetsMsg (localMac 1) 20) :: back ∧
      ReportedRight (front.foldl touch (boot "wlan0".toList 3 28))
        (Env.at 9, packetsMsg (localMac 1) 20) 10 := by
  obtain ⟨d', hrun⟩ : ∃ d', exec mainStep (boot "wlan0".toList 3 28) growing = some d' := ⟨_, rfl⟩
  obtain ⟨front, back, hsplit, hseen, htracked⟩ : ∃ front back,
      runTouches (boot "wlan0".toList 3 28) growing =
        front ++ .entry (Env.at 9, packetsMsg (localMac 1) 20) :: back ∧
      reported (bssidText (localMac 1)) (boot "wlan0".toList 3 28) front = ⟨10, false⟩ ∧
      bssidText (localMac 1) ∈ (front.foldl touch (boot "wlan0".toList 3 28)).mgr.bssids :=
    ⟨(runTouches (boot "wlan0".toList 3 28) growing).take 6,
      (runTouches (boot "wlan0".toList 3 28) growing).drop 7,
      by decide +kernel, by decide +kernel, by decide +kernel⟩
  have hright := ((traffic_reported_iff rfl hrun).2 front _ back hsplit).1 (localMac 1) rfl htracked
  rw [hseen] at hright
  exact ⟨d', front, back, hrun, hsplit, hright.mpr nofun⟩

/-- Ten packets twice, with an entry without counters in between. -/
def unchanged : List MainStep :=
  entryRefreshes [packetsMsg (localMac 1) 10, stationMsg .newStation 3 (localMac 1),
    packetsMsg (localMac 1) 10]

/-- The entry without counters is stored as a total of 0, so the old total looks new. -/
theorem traffic_reported_blind :
    ∃ d' front back, exec mainStep (boot "wlan0".toList 3 28) unchanged = some d' ∧
      runTouches (boot "wlan0".toList 3 28) unchanged =
        front ++ .entry (Env.at 9, packetsMsg (localMac 1) 10) :: back ∧
      bssidText (localMac 1) ∈ (front.foldl touch (boot "wlan0".toList 3 28)).mgr.bssids ∧
      (reported (bssidText (localMac 1)) (boot "wlan0".toList 3 28) front).baseline = 10 ∧
      trafficPushes (front.foldl touch (boot "wlan0".toList 3 28)).mgr.out = 0 ∧
      trafficPushes d'.mgr.out = 1 ∧
      ¬ReportedRight (front.foldl touch (boot "wlan0".toList 3 28))
        (Env.at 9, packetsMsg (localMac 1) 10) 10 := by
  obtain ⟨d', hrun, hpushes⟩ : ∃ d', exec mainStep (boot "wlan0".toList 3 28) unchanged = some d' ∧
      trafficPushes d'.mgr.out = 1 := ⟨_, rfl, rfl⟩
  refine ⟨d', (runTouches (boot "wlan0".toList 3 28) unchanged).take 10,
    (runTouches (boot "wlan0".toList 3 28) unchanged).drop 11,
    hrun, by decide +kernel, by decide +kernel, by decide +kernel, by decide +kernel, hpushes, ?_⟩
  unfold ReportedRight
  decide +kernel

end Wlinkd
end LinuxLab
