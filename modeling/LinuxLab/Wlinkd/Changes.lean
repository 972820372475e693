import LinuxLab.Lib.Exec
import LinuxLab.Wlinkd.Nl80211

/-!
# What a step can do to the station list

Every later property of the list is proved from the inversion lemmas here and
never unfolds a callback again.  A dump entry, and a `NEW_STATION` event, can only
make the list grow or refresh a node (`Grow`); a `DEL_STATION` event takes at most
one node out; `wlan_nl80211_remove_sta` filters the list.  `Change` collects the
three, and a pass of the main loop is a sequence of changes.
-/

namespace LinuxLab
namespace Wlinkd

open Relation Lib WlanUtils WlanLibnl WlanNl80211

def arrival (st : Station) : List Output :=
  [.added st.bssid st.assocTime, .ipcPush .staJoin, .tcpPush .staJoin st.bssid]

/-- The outputs of a station that `wlan_nl80211_remove_sta` takes out. -/
def departure (st : Station) : List Output :=
  [.tcpPush .staLeave st.bssid, .removed st.bssid]

def reportTo (bssid : CString) (rssiDbm : Int) (totalPkts : Nat) (l : List Station) :
    List Station :=
  KeyedList.update Station.bssid bssid (Station.report rssiDbm totalPkts) l

/-- What a dump entry or a `NEW_STATION` event can do. -/
inductive Grow (m : StaMgr) : StaMgr → Prop where
  | quiet : Grow m m
  | join (mac : Mac) (st : Station) (hst : st.bssid = bssidText mac)
      (hnew : st.bssid ∉ m.bssids) :
      Grow m { head := st :: m.head, out := m.out ++ arrival st }
  | seen (bssid : CString) (rssiDbm : Int) (totalPkts : Nat) (busy : Bool)
      (htracked : bssid ∈ m.bssids) :
      Grow m { head := reportTo bssid rssiDbm totalPkts m.head,
               out := m.out ++ if busy then [.ipcPush .traffic] else [] }

/-- What any part of a step can do. -/
inductive Change (m : StaMgr) : StaMgr → Prop where
  | grow {m' : StaMgr} (h : Grow m m') : Change m m'
  | del (mac : Mac) : Change m (delStationEvent (bssidText mac) m)
  | remove (bssids : Option (List CString)) (count : Int) : Change m (removeSta bssids count m)

theorem bssids_reportTo (b : CString) (r : Int) (p : Nat) (l : List Station) :
    (reportTo b r p l).map Station.bssid = l.map Station.bssid :=
  KeyedList.map_update (Station.report r p) (fun _ => rfl) b l

theorem find_reportTo_self (b : CString) (r : Int) (p : Nat) (m : StaMgr) (out : List Output) :
    WlanStaMgr.find b { head := reportTo b r p m.head, out := out } =
      (WlanStaMgr.find b m).map (Station.report r p) :=
  KeyedList.lookup_update_self (Station.report r p) (fun _ => rfl) b m.head

theorem find_reportTo_ne {b c : CString} (h : b ≠ c) (r : Int) (p : Nat) (m : StaMgr)
    (out : List Output) :
    WlanStaMgr.find b { head := reportTo c r p m.head, out := out } = WlanStaMgr.find b m :=
  KeyedList.lookup_update_ne (Station.report r p) (fun _ => rfl) h m.head

theorem mem_bssids_filter {p : CString → Bool} {l : List Station} {b : CString} :
    b ∈ (l.filter (fun st => p st.bssid)).map Station.bssid ↔
      b ∈ l.map Station.bssid ∧ p b = true := by
  simp only [List.mem_map, List.mem_filter]
  constructor
  · rintro ⟨st, ⟨hst, hp⟩, rfl⟩
    exact ⟨⟨st, hst, rfl⟩, hp⟩
  · rintro ⟨⟨st, hst, rfl⟩, hp⟩
    exact ⟨st, ⟨hst, hp⟩, rfl⟩

theorem filterMap_ipcPush {γ : Type} {p : Output → Option γ} {e : StaEvent}
    (hp : p (.ipcPush e) = none) (c : Prop) [Decidable c] :
    (if c then [.ipcPush e] else []).filterMap p = [] := by
  by_cases hc : c <;> simp [hc, hp]

/-! ## The callbacks -/

theorem updateSta_failed {env : Env} {mac : Mac} {r : Int} {p : Nat} {m : StaMgr}
    (h : bssidText mac ∉ m.bssids) (hmem : env.malloc = false) :
    updateSta env (bssidText mac) r p m = m := by
  simp only [updateSta, if_neg (bssidText_ne_nil mac), WlanStaMgr.add_failed h hmem,
    WlanStaMgr.find_eq_none.mpr h]

theorem updateSta_fresh {env : Env} {mac : Mac} {r : Int} {p : Nat} {m : StaMgr}
    (h : bssidText mac ∉ m.bssids) (hmem : env.malloc = true) :
    updateSta env (bssidText mac) r p m =
      { head :=
          { bssid := bssidText mac, rssi := r, privPkts := p, assocTime := env.now } :: m.head,
        out := m.out ++ [.added (bssidText mac) env.now, .ipcPush .staJoin,
          .tcpPush .staJoin (bssidText mac)] } := by
  have hself : (WlanStaMgr.newStation mac env.now).bssid = bssidText mac := rfl
  simp only [updateSta, if_neg (bssidText_ne_nil mac), WlanStaMgr.add_fresh h hmem,
    WlanStaMgr.find, KeyedList.lookup_cons_self hself, KeyedList.update, if_pos hself]
  simp [WlanStaMgr.join, StaMgr.emit, WlanStaMgr.newStation, Station.report]

theorem updateSta_tracked {env : Env} {mac : Mac} {r : Int} {p : Nat} {m : StaMgr} {sta : Station}
    (h : WlanStaMgr.find (bssidText mac) m = some sta) :
    updateSta env (bssidText mac) r p m =
      { head := reportTo (bssidText mac) r p m.head,
        out := m.out ++ if sta.privPkts < p then [.ipcPush .traffic] else [] } := by
  have htracked : bssidText mac ∈ m.bssids := WlanStaMgr.mem_bssids_of_find h
  simp only [updateSta, if_neg (bssidText_ne_nil mac), WlanStaMgr.add_tracked htracked, h]
  by_cases hp : sta.privPkts < p
  · simp [hp, WlanStaMgr.traffic, StaMgr.emit, reportTo]
  · simp [hp, reportTo]

theorem updateSta_grow (env : Env) (mac : Mac) (r : Int) (p : Nat) (m : StaMgr) :
    Grow m (updateSta env (bssidText mac) r p m) := by
  by_cases h : bssidText mac ∈ m.bssids
  · obtain ⟨sta, hsta⟩ := WlanStaMgr.exists_find h
    rw [updateSta_tracked hsta]
    simpa using Grow.seen (bssidText mac) r p (decide (sta.privPkts < p)) h
  · cases hmem : env.malloc with
    | false =>
      rw [updateSta_failed h hmem]
      exact .quiet
    | true =>
      rw [updateSta_fresh h hmem]
      exact .join mac { bssid := bssidText mac, rssi := r, privPkts := p, assocTime := env.now }
        rfl h

theorem newStationEvent_grow (env : Env) (mac : Mac) (m : StaMgr) :
    Grow m (newStationEvent env (bssidText mac) m) := by
  rw [newStationEvent, if_pos (bssidText_ne_nil mac)]
  by_cases h : bssidText mac ∈ m.bssids
  · rw [WlanStaMgr.add_tracked h]
    exact .quiet
  · cases hmem : env.malloc with
    | false =>
      rw [WlanStaMgr.add_failed h hmem]
      exact .quiet
    | true =>
      rw [WlanStaMgr.add_fresh h hmem]
      simpa [WlanStaMgr.join, StaMgr.emit, arrival, WlanStaMgr.newStation] using
        Grow.join mac (WlanStaMgr.newStation mac env.now) rfl h

theorem getLinkSignalCb_none {p : Env × NlMsg} (hmac : p.2.mac = none)
    (s : Daemon × List CString) : getLinkSignalCb p s = s := by
  simp only [getLinkSignalCb, hmac]

theorem getLinkSignalCb_mgr {p : Env × NlMsg} {mac : Mac} (hmac : p.2.mac = some mac)
    (s : Daemon × List CString) :
    (getLinkSignalCb p s).1.mgr =
      updateSta p.1 (bssidText mac) p.2.rssiDbm p.2.totalPackets s.1.mgr := by
  simp only [getLinkSignalCb, hmac, formatBssid_eq]

theorem getLinkSignalCb_ctx {p : Env × NlMsg} {mac : Mac} (hmac : p.2.mac = some mac)
    (s : Daemon × List CString) :
    (getLinkSignalCb p s).2 = if s.2.length < maxStas then s.2 ++ [bssidText mac] else s.2 := by
  simp only [getLinkSignalCb, hmac, formatBssid_eq, strncpy_bssidText]

theorem getLinkSignalCb_apInfo {p : Env × NlMsg} {mac : Mac} (hmac : p.2.mac = some mac)
    (s : Daemon × List CString) :
    (getLinkSignalCb p s).1.apInfo =
      { s.1.apInfo with
        phyRateMbps := p.2.phyRateMbps s.1.apInfo.phyRateMbps,
        rssiDbm := p.2.rssiDbm } := by
  simp only [getLinkSignalCb, hmac]

theorem getLinkSignalCb_grow (p : Env × NlMsg) (s : Daemon × List CString) :
    Grow s.1.mgr (getLinkSignalCb p s).1.mgr := by
  cases hmac : p.2.mac with
  | none =>
    rw [getLinkSignalCb_none hmac]
    exact .quiet
  | some mac =>
    rw [getLinkSignalCb_mgr hmac]
    exact updateSta_grow p.1 mac _ _ s.1.mgr

/-- The message is a `DEL_STATION` event of the watched interface for `mac`. -/
def DelFor (d : Daemon) (msg : NlMsg) (mac : Mac) : Prop :=
  msg.cmd = .delStation ∧ msg.ifindex = some d.wlanIdx ∧ msg.mac = some mac

/-- What `wlan_nl80211_netdev_info_handler_cb` does with a message. -/
inductive Handled (env : Env) (msg : NlMsg) (d : Daemon) : Daemon → Prop where
  | ignored : Handled env msg d d
  | newStation (mac : Mac) (hcmd : msg.cmd = .newStation) :
      Handled env msg d { d with mgr := newStationEvent env (bssidText mac) d.mgr }
  | delStation (mac : Mac) (hdel : DelFor d msg mac) :
      Handled env msg d { d with mgr := delStationEvent (bssidText mac) d.mgr }
  | interface : Handled env msg d (interfaceReply env msg d)

theorem netdevInfoHandlerCb_handled (p : Env × NlMsg) (d : Daemon) :
    Handled p.1 p.2 d (netdevInfoHandlerCb p d) := by
  obtain ⟨env, msg⟩ := p
  cases hidx : msg.ifindex with
  | none => simpa only [netdevInfoHandlerCb, hidx] using Handled.ignored
  | some ifindex =>
    by_cases hi : ifindex = d.wlanIdx
    · subst hi
      simp only [netdevInfoHandlerCb, hidx, ne_eq, not_true_eq_false, if_false]
      cases hcmd : msg.cmd with
      | newStation =>
        cases hmac : msg.mac with
        | none => exact .ignored
        | some mac =>
          dsimp only
          rw [formatBssid_eq]
          exact .newStation mac hcmd
      | delStation =>
        cases hmac : msg.mac with
        | none => exact .ignored
        | some mac =>
          dsimp only
          rw [formatBssid_eq]
          exact .delStation mac ⟨hcmd, hidx, hmac⟩
      | newInterface => exact .interface
      | other => exact .interface
    · simpa only [netdevInfoHandlerCb, hidx, ne_eq, hi, not_false_eq_true, if_true] using
        Handled.ignored

theorem netdevInfoHandlerCb_del (env : Env) {msg : NlMsg} {d : Daemon} {mac : Mac}
    (h : DelFor d msg mac) :
    netdevInfoHandlerCb (env, msg) d = { d with mgr := delStationEvent (bssidText mac) d.mgr } := by
  obtain ⟨hcmd, hidx, hmac⟩ := h
  simp only [netdevInfoHandlerCb, hidx, hcmd, hmac, formatBssid_eq, ne_eq, not_true_eq_false,
    if_false]

namespace Handled

variable {env : Env} {msg : NlMsg} {d d' : Daemon}

theorem grow (h : Handled env msg d d') (hdel : ∀ mac, ¬DelFor d msg mac) :
    Grow d.mgr d'.mgr := by
  cases h with
  | ignored => exact .quiet
  | newStation mac => exact newStationEvent_grow env mac d.mgr
  | delStation mac hmac => exact absurd hmac (hdel mac)
  | interface => exact .quiet

theorem change (h : Handled env msg d d') : Change d.mgr d'.mgr := by
  cases h with
  | ignored => exact .grow .quiet
  | newStation mac => exact .grow (newStationEvent_grow env mac d.mgr)
  | delStation mac => exact .del mac
  | interface => exact .grow .quiet

theorem mgr_eq (h : Handled env msg d d') (hnew : msg.cmd ≠ .newStation)
    (hdel : msg.cmd ≠ .delStation) : d'.mgr = d.mgr := by
  cases h with
  | ignored => rfl
  | newStation mac hcmd => exact absurd hcmd hnew
  | delStation mac hmac => exact absurd hmac.1 hdel
  | interface => rfl

theorem reqSock_eq (h : Handled env msg d d') : d'.reqSock = d.reqSock := by
  cases h with
  | ignored => rfl
  | newStation => rfl
  | delStation => rfl
  | interface => rfl

end Handled

/-! ## Taking stations out -/

theorem delStationEvent_tracked {mac : Mac} {m : StaMgr} (h : bssidText mac ∈ m.bssids) :
    delStationEvent (bssidText mac) m =
      { head := KeyedList.unlink Station.bssid (bssidText mac) m.head,
        out := m.out ++ [.tcpPush .staLeave (bssidText mac), .removed (bssidText mac)] ++
          if KeyedList.unlink Station.bssid (bssidText mac) m.head = [] then [.ipcPush .staLeave]
          else [] } := by
  have htracked : bssidText mac ∈ (WlanStaMgr.leave (bssidText mac) m).bssids := h
  rw [delStationEvent, if_pos (bssidText_ne_nil mac)]
  dsimp only
  rw [WlanStaMgr.remove_tracked htracked]
  simp only [WlanStaMgr.leave, StaMgr.emit, WlanStaMgr.count, List.length_eq_zero_iff]
  by_cases hempty : KeyedList.unlink Station.bssid (bssidText mac) m.head = []
  · simp [hempty, WlanStaMgr.ledOff, StaMgr.emit]
  · simp [hempty]

/-- A `DEL_STATION` event for a station that is not tracked is announced all the same. -/
theorem delStationEvent_untracked {mac : Mac} {m : StaMgr} (h : bssidText mac ∉ m.bssids) :
    delStationEvent (bssidText mac) m =
      { head := m.head,
        out := m.out ++ [.tcpPush .staLeave (bssidText mac)] ++
          if m.head = [] then [.ipcPush .staLeave] else [] } := by
  have huntracked : bssidText mac ∉ (WlanStaMgr.leave (bssidText mac) m).bssids := h
  rw [delStationEvent, if_pos (bssidText_ne_nil mac)]
  dsimp only
  rw [WlanStaMgr.remove_untracked huntracked]
  simp only [WlanStaMgr.leave, StaMgr.emit, WlanStaMgr.count, List.length_eq_zero_iff]
  by_cases hempty : m.head = []
  · simp [hempty, WlanStaMgr.ledOff, StaMgr.emit]
  · simp [hempty]

/-- The walk keeps what stays, in order, and announces the rest in list order.  The
nodes already visited and kept stand in front of those still to be visited, and
none of them has the string of a node that goes. -/
theorem removeWalk_eq (stay : CString → Bool) (rest : List Station) :
    ∀ (kept : List Station) (out : List Output) (removed : Nat),
      (∀ st ∈ kept, stay st.bssid = true) →
      removeWalk stay rest { head := kept ++ rest, out := out } removed =
        ({ head := kept ++ rest.filter (fun st => stay st.bssid),
           out := out ++ (rest.filter (fun st => !stay st.bssid)).flatMap departure },
         removed + (rest.filter (fun st => !stay st.bssid)).length) := by
  induction rest with
  | nil => intro kept out removed _; simp [removeWalk]
  | cons curr next ih =>
    intro kept out removed hkept
    by_cases hs : stay curr.bssid = true
    · have hkept' : ∀ st ∈ kept ++ [curr], stay st.bssid = true := by
        intro st hst
        rcases List.mem_append.mp hst with hst | hst
        · exact hkept st hst
        · rwa [List.mem_singleton.mp hst]
      have hsplit : kept ++ curr :: next = (kept ++ [curr]) ++ next := by simp
      rw [removeWalk, if_pos hs, hsplit, ih (kept ++ [curr]) out removed hkept']
      simp [hs]
    · have hfront : curr.bssid ∉ kept.map Station.bssid := by
        intro hmem
        obtain ⟨st, hst, hbssid⟩ := List.mem_map.mp hmem
        exact hs (hbssid ▸ hkept st hst)
      have htracked : curr.bssid ∈ (WlanStaMgr.leave curr.bssid
          { head := kept ++ curr :: next, out := out }).bssids := by
        simp [WlanStaMgr.leave, StaMgr.emit, StaMgr.bssids]
      rw [removeWalk, if_neg hs]
      dsimp only
      rw [WlanStaMgr.remove_tracked htracked]
      simp only [WlanStaMgr.leave, StaMgr.emit, KeyedList.unlink_append rfl hfront]
      rw [ih kept _ (removed + 1) hkept]
      simp [hs, departure]
      omega

theorem removeSta_eq (bssids : Option (List CString)) (count : Int) (m : StaMgr) :
    removeSta bssids count m =
      { head := m.head.filter (fun st => stays bssids count st.bssid),
        out := m.out ++
          (m.head.filter (fun st => !stays bssids count st.bssid)).flatMap departure ++
          if m.head ≠ [] ∧ m.head.filter (fun st => stays bssids count st.bssid) = [] then
            [.ipcPush .staLeave] else [] } := by
  have hwalk := removeWalk_eq (stays bssids count) m.head [] m.out 0 (by simp)
  rw [List.nil_append] at hwalk
  have hlength := List.length_eq_length_filter_add (l := m.head)
    (fun st => stays bssids count st.bssid)
  rw [removeSta, hwalk]
  simp only [List.nil_append, Nat.zero_add, WlanStaMgr.count, List.length_eq_zero_iff]
  -- Something was removed exactly when the list was not empty and now is.
  by_cases hempty : m.head.filter (fun st => stays bssids count st.bssid) = []
  · rw [hempty, List.length_nil, Nat.zero_add] at hlength
    by_cases hm : m.head = []
    · simp [hm]
    · have hpos : 0 < (m.head.filter (fun st => !stays bssids count st.bssid)).length := by
        rw [← hlength]
        exact List.length_pos_iff.mpr hm
      simp only [hempty, hm, hpos, ne_eq, not_false_eq_true, and_self, if_true,
        WlanStaMgr.ledOff, StaMgr.emit]
  · simp [hempty]

/-! ## The refresh -/

/-- The kernel answers `GET_INTERFACE` with interface messages: no message that
reaches the callback carries a station event. -/
def KernelReplies (x : NlExchange (Env × NlMsg)) : Prop :=
  ∀ err msgs, transcript x = some (err, msgs) →
    ∀ p ∈ msgs, p.2.cmd ≠ .newStation ∧ p.2.cmd ≠ .delStation

/-- The refresh gets as far as its first request. -/
def Live (d : Daemon) : Prop := d.reqSock = true ∧ 0 ≤ d.nl80211Id

theorem live_iff {d : Daemon} : Live d ↔ ¬(d.reqSock = false ∨ d.nl80211Id < 0) := by
  rw [not_or, Bool.not_eq_false, Int.not_lt, Live]

/-- The ways in which a refresh ends. -/
inductive Refreshed (r : RefreshInput) (d : Daemon) : Daemon → Prop where
  | idle (h : ¬Live d) : Refreshed r d d
  | noIfMsg (hlive : Live d) (halloc : r.ifAlloc = false) :
      Refreshed r d (resetApInfo r.ifaddrs d)
  | ifFailed {err : Int} {d₁ : Daemon} (hlive : Live d) (halloc : r.ifAlloc = true)
      (hif : getInterface r (resetApInfo r.ifaddrs d) = some (err, d₁)) (herr : err < 0) :
      Refreshed r d d₁
  | notAp {err : Int} {d₁ : Daemon} (hlive : Live d) (halloc : r.ifAlloc = true)
      (hif : getInterface r (resetApInfo r.ifaddrs d) = some (err, d₁)) (herr : 0 ≤ err)
      (hmode : d₁.isApMode = false) :
      Refreshed r d { d₁ with mgr := removeSta none (-1) d₁.mgr }
  | noStaMsg {err : Int} {d₁ : Daemon} (hlive : Live d) (halloc : r.ifAlloc = true)
      (hif : getInterface r (resetApInfo r.ifaddrs d) = some (err, d₁)) (herr : 0 ≤ err)
      (hmode : d₁.isApMode = true) (hsalloc : r.staAlloc = false) : Refreshed r d d₁
  | staFailed {err err₂ : Int} {d₁ d₂ : Daemon} {bssids : List CString}
      (hlive : Live d) (halloc : r.ifAlloc = true)
      (hif : getInterface r (resetApInfo r.ifaddrs d) = some (err, d₁)) (herr : 0 ≤ err)
      (hmode : d₁.isApMode = true) (hsalloc : r.staAlloc = true)
      (hsta : getStation r d₁ = some (err₂, d₂, bssids)) (herr₂ : err₂ < 0) : Refreshed r d d₂
  | dumped {err err₂ : Int} {d₁ d₂ : Daemon} {bssids : List CString}
      (hlive : Live d) (halloc : r.ifAlloc = true)
      (hif : getInterface r (resetApInfo r.ifaddrs d) = some (err, d₁)) (herr : 0 ≤ err)
      (hmode : d₁.isApMode = true) (hsalloc : r.staAlloc = true)
      (hsta : getStation r d₁ = some (err₂, d₂, bssids)) (herr₂ : 0 ≤ err₂) :
      Refreshed r d { d₂ with mgr := removeSta (some bssids) bssids.length d₂.mgr }

theorem refreshed_of_refresh {r : RefreshInput} {d d' : Daemon} (h : refresh r d = some d') :
    Refreshed r d d' := by
  rw [refresh] at h
  by_cases hidle : d.reqSock = false ∨ d.nl80211Id < 0
  · rw [if_pos hidle, Option.some.injEq] at h
    subst h
    exact .idle (fun hlive => live_iff.mp hlive hidle)
  have hlive : Live d := live_iff.mpr hidle
  rw [if_neg hidle] at h
  dsimp only at h
  cases halloc : r.ifAlloc with
  | false =>
    rw [if_pos halloc, Option.some.injEq] at h
    subst h
    exact .noIfMsg hlive halloc
  | true =>
    rw [if_neg (by simp [halloc])] at h
    cases hif : getInterface r (resetApInfo r.ifaddrs d) with
    | none => simp [hif] at h
    | some p =>
      obtain ⟨err, d₁⟩ := p
      simp only [hif] at h
      by_cases herr : err < 0
      · rw [if_pos herr, Option.some.injEq] at h
        subst h
        exact .ifFailed hlive halloc hif herr
      · rw [if_neg herr] at h
        have hge : 0 ≤ err := by omega
        cases hmode : d₁.isApMode with
        | false =>
          rw [if_pos hmode, Option.some.injEq] at h
          subst h
          exact .notAp hlive halloc hif hge hmode
        | true =>
          rw [if_neg (by simp [hmode])] at h
          cases hsalloc : r.staAlloc with
          | false =>
            rw [if_pos hsalloc, Option.some.injEq] at h
            subst h
            exact .noStaMsg hlive halloc hif hge hmode hsalloc
          | true =>
            rw [if_neg (by simp [hsalloc])] at h
            cases hsta : getStation r d₁ with
            | none => simp [hsta] at h
            | some q =>
              obtain ⟨err₂, d₂, bssids⟩ := q
              simp only [hsta] at h
              by_cases herr₂ : err₂ < 0
              · rw [if_pos herr₂, Option.some.injEq] at h
                subst h
                exact .staFailed hlive halloc hif hge hmode hsalloc hsta herr₂
              · rw [if_neg herr₂, Option.some.injEq] at h
                subst h
                exact .dumped hlive halloc hif hge hmode hsalloc hsta (by omega)

theorem refresh_of_refreshed {r : RefreshInput} {d d' : Daemon} (h : Refreshed r d d') :
    refresh r d = some d' := by
  rw [refresh]
  cases h with
  | idle hidle => rw [if_pos (not_not.mp (fun h => hidle (live_iff.mpr h)))]
  | noIfMsg hlive halloc => simp [live_iff.mp hlive, halloc]
  | ifFailed hlive halloc hif herr => simp [live_iff.mp hlive, halloc, hif, herr]
  | notAp hlive halloc hif herr hmode =>
    simp [live_iff.mp hlive, halloc, hif, herr.not_gt, hmode]
  | noStaMsg hlive halloc hif herr hmode hsalloc =>
    simp [live_iff.mp hlive, halloc, hif, hmode, hsalloc]
  | staFailed hlive halloc hif herr hmode hsalloc hsta herr₂ =>
    simp [live_iff.mp hlive, halloc, hif, herr.not_gt, hmode, hsalloc, hsta, herr₂]
  | dumped hlive halloc hif herr hmode hsalloc hsta herr₂ =>
    simp [live_iff.mp hlive, halloc, hif, herr.not_gt, hmode, hsalloc, hsta, herr₂.not_gt]

theorem foldl_getLinkSignalCb_grow (msgs : List (Env × NlMsg)) (s : Daemon × List CString) :
    ReflTransGen Grow s.1.mgr (msgs.foldl (fun s p => getLinkSignalCb p s) s).1.mgr :=
  foldl_reflTransGen (fun s => s.1.mgr) (fun s p => getLinkSignalCb_grow p s) msgs s

theorem foldl_netdevInfoHandlerCb_change (msgs : List (Env × NlMsg)) (d : Daemon) :
    ReflTransGen Change d.mgr (msgs.foldl (fun d p => netdevInfoHandlerCb p d) d).mgr :=
  foldl_reflTransGen Daemon.mgr (fun d p => (netdevInfoHandlerCb_handled p d).change) msgs d

theorem foldl_netdevInfoHandlerCb_quiet {msgs : List (Env × NlMsg)}
    (h : ∀ p ∈ msgs, p.2.cmd ≠ .newStation ∧ p.2.cmd ≠ .delStation) (d : Daemon) :
    (msgs.foldl (fun d p => netdevInfoHandlerCb p d) d).mgr = d.mgr :=
  foldl_unchanged Daemon.mgr
    (fun p hp d => (netdevInfoHandlerCb_handled p d).mgr_eq (h p hp).1 (h p hp).2) d

theorem foldl_netdevInfoHandlerCb_reqSock (msgs : List (Env × NlMsg)) (d : Daemon) :
    (msgs.foldl (fun d p => netdevInfoHandlerCb p d) d).reqSock = d.reqSock :=
  foldl_unchanged Daemon.reqSock (fun p _ d => (netdevInfoHandlerCb_handled p d).reqSock_eq) d

theorem getStation_of_transcript {r : RefreshInput} {d : Daemon} {err : Int}
    {msgs : List (Env × NlMsg)} (hsock : d.reqSock = true)
    (h : transcript r.staExchange = some (err, msgs)) :
    getStation r d = some (err, msgs.foldl (fun s p => getLinkSignalCb p s) (d, [])) := by
  rw [getStation, hsock, sendAndRecv_skipping, h, Option.map_some]

theorem getInterface_eq {r : RefreshInput} {d d₁ : Daemon} {err : Int} (hsock : d.reqSock = true)
    (h : getInterface r d = some (err, d₁)) :
    ∃ msgs, transcript r.ifExchange = some (err, msgs) ∧
      d₁ = msgs.foldl (fun d p => netdevInfoHandlerCb p d) d := by
  rw [getInterface, hsock, sendAndRecv_skipping, Option.map_eq_some_iff] at h
  obtain ⟨⟨err', msgs⟩, htrans, heq⟩ := h
  obtain ⟨rfl, rfl⟩ := Prod.mk.inj heq
  exact ⟨msgs, htrans, rfl⟩

theorem getStation_eq {r : RefreshInput} {d d₂ : Daemon} {err : Int} {bssids : List CString}
    (hsock : d.reqSock = true) (h : getStation r d = some (err, d₂, bssids)) :
    ∃ msgs, transcript r.staExchange = some (err, msgs) ∧
      (d₂, bssids) = msgs.foldl (fun s p => getLinkSignalCb p s) (d, []) := by
  rw [getStation, hsock, sendAndRecv_skipping, Option.map_eq_some_iff] at h
  obtain ⟨⟨err', msgs⟩, htrans, heq⟩ := h
  obtain ⟨rfl, hfold⟩ := Prod.mk.inj heq
  exact ⟨msgs, htrans, hfold.symm⟩

theorem getStation_unchanged {τ : Type} (view : Daemon → τ)
    (hview : ∀ p s, view (getLinkSignalCb p s).1 = view s.1) {r : RefreshInput} {d d₂ : Daemon}
    {err : Int} {bssids : List CString} (hsock : d.reqSock = true)
    (h : getStation r d = some (err, d₂, bssids)) : view d₂ = view d := by
  obtain ⟨msgs, -, hfold⟩ := getStation_eq hsock h
  have hunchanged : view (msgs.foldl (fun s p => getLinkSignalCb p s) (d, [])).1 = view d :=
    foldl_unchanged (fun s => view s.1) (fun p _ s => hview p s) (d, [])
  rwa [← hfold] at hunchanged

theorem getInterface_change {r : RefreshInput} {d d₁ : Daemon} {err : Int} (hlive : Live d)
    (h : getInterface r (resetApInfo r.ifaddrs d) = some (err, d₁)) :
    d₁.reqSock = true ∧ ReflTransGen Change d.mgr d₁.mgr := by
  have hsock : (resetApInfo r.ifaddrs d).reqSock = true := hlive.1
  obtain ⟨msgs, -, rfl⟩ := getInterface_eq hsock h
  exact ⟨by rw [foldl_netdevInfoHandlerCb_reqSock, hsock],
    foldl_netdevInfoHandlerCb_change msgs (resetApInfo r.ifaddrs d)⟩

theorem getInterface_quiet {r : RefreshInput} {d d₁ : Daemon} {err : Int} (hlive : Live d)
    (hk : KernelReplies r.ifExchange)
    (h : getInterface r (resetApInfo r.ifaddrs d) = some (err, d₁)) : d₁.mgr = d.mgr := by
  have hsock : (resetApInfo r.ifaddrs d).reqSock = true := hlive.1
  obtain ⟨msgs, htrans, rfl⟩ := getInterface_eq hsock h
  exact foldl_netdevInfoHandlerCb_quiet (hk err msgs htrans) (resetApInfo r.ifaddrs d)

theorem getStation_grow {r : RefreshInput} {d d₂ : Daemon} {err : Int} {bssids : List CString}
    (hsock : d.reqSock = true) (h : getStation r d = some (err, d₂, bssids)) :
    ReflTransGen Grow d.mgr d₂.mgr := by
  obtain ⟨msgs, -, hfold⟩ := getStation_eq hsock h
  have hgrow := foldl_getLinkSignalCb_grow msgs (d, [])
  rwa [← hfold] at hgrow

/-- Under the kernel's contract the two requests together let the list grow at most. -/
theorem requests_grow {r : RefreshInput} {d d₁ d₂ : Daemon} {err err₂ : Int}
    {bssids : List CString} (hlive : Live d) (hk : KernelReplies r.ifExchange)
    (hif : getInterface r (resetApInfo r.ifaddrs d) = some (err, d₁))
    (hsta : getStation r d₁ = some (err₂, d₂, bssids)) : ReflTransGen Grow d.mgr d₂.mgr := by
  have hgrow := getStation_grow (getInterface_change hlive hif).1 hsta
  rwa [getInterface_quiet hlive hk hif] at hgrow

theorem change_of_grow {m m' : StaMgr} (h : ReflTransGen Grow m m') : ReflTransGen Change m m' :=
  ReflTransGen.mono (fun _ _ hg => Change.grow hg) _ _ h

theorem refresh_changes {r : RefreshInput} {d d' : Daemon} (h : refresh r d = some d') :
    ReflTransGen Change d.mgr d'.mgr := by
  cases refreshed_of_refresh h with
  | idle => exact .refl
  | noIfMsg => exact .refl
  | ifFailed hlive _ hif _ => exact (getInterface_change hlive hif).2
  | notAp hlive _ hif _ _ => exact (getInterface_change hlive hif).2.tail (.remove none (-1))
  | noStaMsg hlive _ hif _ _ _ => exact (getInterface_change hlive hif).2
  | staFailed hlive _ hif _ _ _ hsta _ =>
    obtain ⟨hsock, hchange⟩ := getInterface_change hlive hif
    exact hchange.trans (change_of_grow (getStation_grow hsock hsta))
  | dumped hlive _ hif _ _ _ hsta _ =>
    obtain ⟨hsock, hchange⟩ := getInterface_change hlive hif
    exact (hchange.trans (change_of_grow (getStation_grow hsock hsta))).tail (.remove _ _)

/-- Under the kernel's contract a refresh lets the list grow and filters it at most
once, at its end. -/
theorem refresh_grows {r : RefreshInput} {d d' : Daemon} (hk : KernelReplies r.ifExchange)
    (h : refresh r d = some d') :
    ∃ m, ReflTransGen Grow d.mgr m ∧
      (d'.mgr = m ∨ ∃ bssids count, d'.mgr = removeSta bssids count m) := by
  cases refreshed_of_refresh h with
  | idle => exact ⟨d.mgr, .refl, .inl rfl⟩
  | noIfMsg => exact ⟨d.mgr, .refl, .inl rfl⟩
  | ifFailed hlive _ hif _ => exact ⟨d.mgr, .refl, .inl (getInterface_quiet hlive hk hif)⟩
  | notAp hlive _ hif _ _ =>
    exact ⟨d.mgr, .refl, .inr ⟨none, -1, by rw [getInterface_quiet hlive hk hif]⟩⟩
  | noStaMsg hlive _ hif _ _ _ => exact ⟨d.mgr, .refl, .inl (getInterface_quiet hlive hk hif)⟩
  | staFailed hlive _ hif _ _ _ hsta _ => exact ⟨_, requests_grow hlive hk hif hsta, .inl rfl⟩
  | dumped hlive _ hif _ _ _ hsta _ =>
    exact ⟨_, requests_grow hlive hk hif hsta, .inr ⟨_, _, rfl⟩⟩

theorem mainStep_changes {d d' : Daemon} {x : MainStep} (h : mainStep d x = some d') :
    ReflTransGen Change d.mgr d'.mgr := by
  cases x with
  | event env msg =>
    rw [mainStep, Option.some.injEq] at h
    exact h ▸ .single (netdevInfoHandlerCb_handled (env, msg) d).change
  | refresh r => exact refresh_changes h

/-- What every change preserves holds after every run of the main loop. -/
theorem run_invariant {I : StaMgr → Prop} (hI : ∀ m m', I m → Change m m' → I m')
    {d d' : Daemon} {xs : List MainStep} (hs : I d.mgr) (hrun : exec mainStep d xs = some d') :
    I d'.mgr := by
  refine exec_invariant (I := fun d => I d.mgr) (fun d x d' hd hstep => ?_) hs hrun
  exact reflTransGen_invariant hI (mainStep_changes hstep) hd

end Wlinkd
end LinuxLab
