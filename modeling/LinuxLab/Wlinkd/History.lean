import LinuxLab.Wlinkd.StationMap

/-!
# The events pushed for one station

For each station the TCP clients should see `sta_join` and `sta_leave` in turn,
and the last of them should say whether the station is tracked.  The event path
announces a departure without asking whether the station is still there, so the
law holds exactly in the runs where every `DEL_STATION` event finds its station.
-/

namespace LinuxLab
namespace Wlinkd

open Relation Lib WlanUtils WlanNl80211

/-- The event that one output pushes to the TCP clients for the string `b`. -/
def pushedFor (b : CString) : Output → Option StaEvent
  | .tcpPush arg bssid => if bssid = b then some arg else none
  | _ => none

def history (b : CString) (out : List Output) : List StaEvent := out.filterMap (pushedFor b)

/-- `sta_join`, `sta_leave`, `sta_join` and so on. -/
def Alternates (l : List StaEvent) : Prop :=
  ∀ i, ∀ h : i < l.length, l[i] = if i % 2 = 0 then .staJoin else .staLeave

/-- The history of a station alternates and says whether the station is tracked. -/
structure Consistent (m : StaMgr) (b : CString) : Prop where
  alternates : Alternates (history b m.out)
  last : (history b m.out).getLast? = some .staJoin ↔ b ∈ m.bssids

/-- A `DEL_STATION` event finds its station in the list. -/
def DelTracked (d : Daemon) : MainStep → Prop
  | .event _ msg => ∀ mac, DelFor d msg mac → bssidText mac ∈ d.mgr.bssids
  | .refresh _ => True

/-! ## Alternating lists -/

theorem alternates_snoc {l : List StaEvent} {e : StaEvent} :
    Alternates (l ++ [e]) ↔
      Alternates l ∧ e = if l.length % 2 = 0 then .staJoin else .staLeave := by
  constructor
  · intro h
    refine ⟨fun i hi => ?_, ?_⟩
    · have hget := h i (by rw [List.length_append]; omega)
      rwa [List.getElem_append_left hi] at hget
    · have hget := h l.length (by simp)
      rwa [List.getElem_concat_length rfl] at hget
  · rintro ⟨h, he⟩ i hi
    rw [List.length_append, List.length_singleton] at hi
    by_cases hlt : i < l.length
    · rw [List.getElem_append_left hlt]
      exact h i hlt
    · have hlen : i = l.length := by omega
      subst hlen
      rw [List.getElem_concat_length rfl]
      exact he

theorem getLast?_of_alternates {l : List StaEvent} (h : Alternates l) :
    l.getLast? = some .staJoin ↔ l.length % 2 = 1 := by
  rcases List.eq_nil_or_concat l with rfl | ⟨front, e, rfl⟩
  · simp
  · rw [List.concat_eq_append] at h ⊢
    have he := (alternates_snoc.mp h).2
    rw [List.getLast?_concat, List.length_append, List.length_singleton, he]
    by_cases hpar : front.length % 2 = 0
    · simp only [hpar, if_true, true_iff]
      omega
    · simp only [hpar, if_false, Option.some.injEq, reduceCtorEq, false_iff]
      omega

theorem consistent_iff {m : StaMgr} {b : CString} :
    Consistent m b ↔ Alternates (history b m.out) ∧
      ((history b m.out).length % 2 = 1 ↔ b ∈ m.bssids) := by
  constructor
  · rintro ⟨halt, hlast⟩
    exact ⟨halt, (getLast?_of_alternates halt).symm.trans hlast⟩
  · rintro ⟨halt, hlen⟩
    exact ⟨halt, (getLast?_of_alternates halt).trans hlen⟩

/-! ## One change -/

theorem history_append (b : CString) (out new : List Output) :
    history b (out ++ new) = history b out ++ history b new := List.filterMap_append

theorem consistent_frame {m m' : StaMgr} {b : CString} (h : Consistent m b)
    (hout : history b m'.out = history b m.out) (hmem : b ∈ m'.bssids ↔ b ∈ m.bssids) :
    Consistent m' b := by
  rw [consistent_iff] at h ⊢
  rw [hout, hmem]
  exact h

theorem consistent_join {m m' : StaMgr} {b : CString} (h : Consistent m b)
    (hout : history b m'.out = history b m.out ++ [.staJoin]) (hbefore : b ∉ m.bssids)
    (hafter : b ∈ m'.bssids) : Consistent m' b := by
  rw [consistent_iff] at h ⊢
  have heven : (history b m.out).length % 2 = 0 := by
    have := mt h.2.mp hbefore
    omega
  rw [hout, alternates_snoc, if_pos heven]
  refine ⟨⟨h.1, rfl⟩, ?_⟩
  rw [List.length_append, List.length_singleton]
  exact ⟨fun _ => hafter, fun _ => by omega⟩

theorem consistent_leave {m m' : StaMgr} {b : CString} (h : Consistent m b)
    (hout : history b m'.out = history b m.out ++ [.staLeave]) (hbefore : b ∈ m.bssids)
    (hafter : b ∉ m'.bssids) : Consistent m' b := by
  rw [consistent_iff] at h ⊢
  have hodd : (history b m.out).length % 2 = 1 := h.2.mpr hbefore
  rw [hout, alternates_snoc, if_neg (by omega)]
  refine ⟨⟨h.1, rfl⟩, ?_⟩
  rw [List.length_append, List.length_singleton]
  exact ⟨fun hp => by omega, fun hmem => absurd hmem hafter⟩

theorem history_push (b : CString) (c : Prop) [Decidable c] (e : StaEvent) :
    history b (if c then [.ipcPush e] else []) = [] := filterMap_ipcPush rfl c

theorem history_departures {l : List Station} (hl : (l.map Station.bssid).Nodup) (b : CString) :
    history b (l.flatMap departure) = if b ∈ l.map Station.bssid then [.staLeave] else [] := by
  induction l with
  | nil => rfl
  | cons st l ih =>
    rw [List.map_cons, List.nodup_cons] at hl
    rw [List.flatMap_cons, history_append, ih hl.2]
    by_cases hb : st.bssid = b
    · subst hb
      simp [history, departure, pushedFor, hl.1]
    · have hb' : ¬b = st.bssid := fun e => hb e.symm
      simp [history, departure, pushedFor, hb, hb']

theorem consistent_grow {m m' : StaMgr} (h : ∀ b, Consistent m b) (hg : Grow m m') :
    ∀ b, Consistent m' b := by
  intro b
  cases hg with
  | quiet => exact h b
  | join mac st hst hnew =>
    have hout : history b (m.out ++ arrival st) =
        history b m.out ++ if st.bssid = b then [.staJoin] else [] := by
      rw [history_append]
      by_cases hb : st.bssid = b <;> simp [history, arrival, pushedFor, hb, List.filterMap_cons]
    by_cases hb : st.bssid = b
    · subst hb
      rw [if_pos rfl] at hout
      exact consistent_join (h _) hout hnew List.mem_cons_self
    · rw [if_neg hb, List.append_nil] at hout
      refine consistent_frame (h b) hout ?_
      exact ⟨fun hmem => (List.mem_cons.mp hmem).resolve_left (fun e => hb e.symm),
        List.mem_cons_of_mem _⟩
  | seen c r p busy htracked =>
    refine consistent_frame (h b) ?_ ?_
    · rw [history_append, history_push, List.append_nil]
    · rw [StaMgr.bssids, bssids_reportTo]
      exact Iff.rfl

theorem consistent_del {m : StaMgr} (hw : WellFormed m) (h : ∀ b, Consistent m b) {mac : Mac}
    (htracked : bssidText mac ∈ m.bssids) :
    ∀ b, Consistent (delStationEvent (bssidText mac) m) b := by
  intro b
  rw [delStationEvent_tracked htracked]
  have hout : history b (m.out ++ [.tcpPush .staLeave (bssidText mac), .removed (bssidText mac)] ++
      if KeyedList.unlink Station.bssid (bssidText mac) m.head = [] then [.ipcPush .staLeave]
      else []) = history b m.out ++ if bssidText mac = b then [.staLeave] else [] := by
    rw [history_append, history_push, List.append_nil, history_append]
    by_cases hb : bssidText mac = b <;> simp [history, pushedFor, hb]
  by_cases hb : bssidText mac = b
  · subst hb
    rw [if_pos rfl] at hout
    refine consistent_leave (h _) hout htracked (fun hmem => ?_)
    exact ((KeyedList.mem_map_unlink hw.distinct).mp hmem).1 rfl
  · rw [if_neg hb, List.append_nil] at hout
    refine consistent_frame (h b) hout ?_
    rw [StaMgr.bssids, KeyedList.mem_map_unlink hw.distinct]
    exact ⟨fun hmem => hmem.2, fun hmem => ⟨fun e => hb e.symm, hmem⟩⟩

/-- The announcement for a station that is not tracked breaks its history. -/
theorem not_consistent_del {m : StaMgr} {mac : Mac} (h : Consistent m (bssidText mac))
    (huntracked : bssidText mac ∉ m.bssids) :
    ¬Consistent (delStationEvent (bssidText mac) m) (bssidText mac) := by
  rw [delStationEvent_untracked huntracked]
  intro hafter
  have heven : (history (bssidText mac) m.out).length % 2 = 0 := by
    have := mt (consistent_iff.mp h).2.mp huntracked
    omega
  have halt := hafter.alternates
  have hpush : history (bssidText mac) [.tcpPush .staLeave (bssidText mac)] = [.staLeave] := by
    simp [history, pushedFor]
  rw [history_append, history_push, List.append_nil, history_append, hpush, alternates_snoc,
    if_pos heven] at halt
  exact StaEvent.noConfusion halt.2

theorem consistent_remove {m : StaMgr} (hw : WellFormed m) (h : ∀ b, Consistent m b)
    (bssids : Option (List CString)) (count : Int) :
    ∀ b, Consistent (removeSta bssids count m) b := by
  intro b
  rw [removeSta_eq]
  have hgone := mem_bssids_filter (p := fun c => !stays bssids count c) (l := m.head) (b := b)
  have hkept := mem_bssids_filter (p := stays bssids count) (l := m.head) (b := b)
  have hnodup : ((m.head.filter (fun st => !stays bssids count st.bssid)).map
      Station.bssid).Nodup := hw.distinct.filter _
  by_cases hleaves : b ∈ (m.head.filter (fun st => !stays bssids count st.bssid)).map Station.bssid
  · refine consistent_leave (h b) ?_ (hgone.mp hleaves).1 (fun hmem => ?_)
    · rw [history_append, history_push, List.append_nil, history_append,
        history_departures hnodup, if_pos hleaves]
    · have hstay := (hkept.mp hmem).2
      simpa [hstay] using (hgone.mp hleaves).2
  · refine consistent_frame (h b) ?_ ?_
    · rw [history_append, history_push, List.append_nil, history_append,
        history_departures hnodup, if_neg hleaves, List.append_nil]
    · refine hkept.trans ⟨fun hmem => hmem.1, fun hmem => ⟨hmem, ?_⟩⟩
      by_contra hstay
      exact hleaves (hgone.mpr ⟨hmem, by simpa using hstay⟩)

/-! ## Runs -/

theorem consistent_refresh {r : RefreshInput} {d d' : Daemon} (hk : KernelReplies r.ifExchange)
    (hw : WellFormed d.mgr) (h : ∀ b, Consistent d.mgr b) (hstep : refresh r d = some d') :
    ∀ b, Consistent d'.mgr b := by
  obtain ⟨m, hgrow, hend⟩ := refresh_grows hk hstep
  have hm : WellFormed m ∧ ∀ b, Consistent m b :=
    reflTransGen_invariant (I := fun m => WellFormed m ∧ ∀ b, Consistent m b)
      (fun m m' hm hg => ⟨wellFormed_grow hm.1 hg, consistent_grow hm.2 hg⟩) hgrow ⟨hw, h⟩
  rcases hend with heq | ⟨bssids, count, heq⟩
  · rw [heq]
    exact hm.2
  · rw [heq]
    exact consistent_remove hm.1 hm.2 bssids count

/-- One pass of the main loop keeps every history consistent exactly when it does
not announce the departure of a station that is not tracked. -/
theorem consistent_mainStep {d d' : Daemon} {x : MainStep}
    (hk : ∀ r, x = .refresh r → KernelReplies r.ifExchange) (hw : WellFormed d.mgr)
    (h : ∀ b, Consistent d.mgr b) (hstep : mainStep d x = some d') :
    (∀ b, Consistent d'.mgr b) ↔ DelTracked d x := by
  cases x with
  | refresh r =>
    exact ⟨fun _ => trivial, fun _ => consistent_refresh (hk r rfl) hw h hstep⟩
  | event env msg =>
    rw [mainStep, Option.some.injEq] at hstep
    subst hstep
    by_cases hdel : ∃ mac, DelFor d msg mac
    · obtain ⟨mac, hmac⟩ := hdel
      rw [netdevInfoHandlerCb_del env hmac]
      constructor
      · intro hafter mac' hmac'
        have hsame : mac' = mac := Option.some.inj (hmac'.2.2.symm.trans hmac.2.2)
        subst hsame
        by_contra huntracked
        exact not_consistent_del (h _) huntracked (hafter _)
      · intro hok
        exact consistent_del hw h (hok mac hmac)
    · refine ⟨fun _ mac hmac => absurd ⟨mac, hmac⟩ hdel, fun _ => ?_⟩
      have hgrow := (netdevInfoHandlerCb_handled (env, msg) d).grow
        (fun mac hmac => hdel ⟨mac, hmac⟩)
      exact consistent_grow h hgrow

/-- In a run from the empty list every history is consistent in every state reached
exactly when every `DEL_STATION` event of the run finds its station tracked. -/
theorem histories_consistent_iff {d d' : Daemon} {xs : List MainStep}
    (hinit : d.mgr = WlanStaMgr.init)
    (hk : ∀ r, .refresh r ∈ xs → KernelReplies r.ifExchange)
    (hrun : exec mainStep d xs = some d') :
    Everywhere mainStep (fun d => ∀ b, Consistent d.mgr b) d xs ↔
      Along mainStep DelTracked d xs := by
  refine everywhere_iff_along (I := fun d => WellFormed d.mgr) (fun d x _ d' hw hstep => ?_)
    (fun d x hx d' hw h hstep => ?_) ?_ ?_ hrun
  · exact reflTransGen_invariant (I := WellFormed) (fun m m' hm hc => wellFormed_change hm hc)
      (mainStep_changes hstep) hw
  · exact consistent_mainStep (fun r hr => hk r (hr ▸ hx)) hw h hstep
  · rw [hinit]
    exact wellFormed_init
  · intro b
    rw [hinit, consistent_iff]
    refine ⟨fun i hi => absurd hi (by simp [history, WlanStaMgr.init]), ?_⟩
    simp [history, WlanStaMgr.init, StaMgr.bssids]

def joinAndLeave : List MainStep :=
  [.event (Env.at 1) (stationMsg .newStation 3 (localMac 1)),
   .event (Env.at 2) (stationMsg .delStation 3 (localMac 1))]

theorem histories_consistent_joinAndLeave :
    Everywhere mainStep (fun d => ∀ b, Consistent d.mgr b) (boot "wlan0".toList 3 28)
      joinAndLeave := by
  obtain ⟨d', hrun⟩ : ∃ d', exec mainStep (boot "wlan0".toList 3 28) joinAndLeave = some d' :=
    ⟨_, rfl⟩
  refine (histories_consistent_iff rfl ?_ hrun).mpr ⟨?_, fun d hd => ⟨?_, fun _ _ => trivial⟩⟩
  · intro r hr
    simp [joinAndLeave] at hr
  · intro mac hmac
    exact absurd hmac.1 (by simp [stationMsg])
  · intro mac hmac
    obtain rfl := Option.some.inj hd
    obtain rfl := Option.some.inj hmac.2.2
    decide

/-- A station joins, a refresh no longer finds it, and then its `DEL_STATION` event,
queued all the while, is read. -/
def lateDel : List MainStep :=
  [.event (Env.at 1) (stationMsg .newStation 3 (localMac 1)),
   .refresh (apRefresh 3 [] 0),
   .event (Env.at 2) (stationMsg .delStation 3 (localMac 1))]

theorem history_lateDel :
    (exec mainStep (boot "wlan0".toList 3 28) lateDel).map
        (fun d => history (bssidText (localMac 1)) d.mgr.out) =
      some [.staJoin, .staLeave, .staLeave] := by
  decide

theorem not_histories_consistent :
    ¬∀ (d d' : Daemon) (xs : List MainStep), d.mgr = WlanStaMgr.init →
      (∀ r, .refresh r ∈ xs → KernelReplies r.ifExchange) → exec mainStep d xs = some d' →
      ∀ b, Consistent d'.mgr b := by
  intro h
  obtain ⟨d', hrun, hhist⟩ := Option.map_eq_some_iff.mp history_lateDel
  have hk : ∀ r, .refresh r ∈ lateDel → KernelReplies r.ifExchange := by
    intro r hr
    simp only [lateDel, List.mem_cons, reduceCtorEq, List.not_mem_nil, or_false, false_or,
      MainStep.refresh.injEq] at hr
    exact hr ▸ kernelReplies_apRefresh 3 [] 0
  have halt := (h _ d' lateDel rfl hk hrun (bssidText (localMac 1))).alternates
  rw [hhist] at halt
  exact absurd (halt 2 (by decide)) (by decide)

end Wlinkd
end LinuxLab
