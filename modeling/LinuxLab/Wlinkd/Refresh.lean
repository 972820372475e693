import LinuxLab.Wlinkd.Scenario

/-!
# The refresh against the station dump

A refresh that fails leaves every station in place and announces no departure: up
to the point where it gives up it has only let the list grow.  A refresh that
completes adds the stations of the dump entry by entry, and afterwards takes out
those that are not in the array of collected strings.  The array has room for 64
strings, so the two records of the dump agree exactly for dumps of up to 64
stations.
-/

namespace LinuxLab
namespace Wlinkd

open Relation Lib WlanUtils WlanLibnl WlanNl80211

/-! ## A refresh that fails -/

/-- A message cannot be allocated, or a request comes back negative. -/
inductive RefreshFails (r : RefreshInput) (d : Daemon) : Prop where
  | noIfMsg (halloc : r.ifAlloc = false)
  | ifFailed {err : Int} {d₁ : Daemon} (halloc : r.ifAlloc = true)
      (hif : getInterface r (resetApInfo r.ifaddrs d) = some (err, d₁)) (herr : err < 0)
  | noStaMsg {err : Int} {d₁ : Daemon} (halloc : r.ifAlloc = true)
      (hif : getInterface r (resetApInfo r.ifaddrs d) = some (err, d₁)) (herr : 0 ≤ err)
      (hmode : d₁.isApMode = true) (hsalloc : r.staAlloc = false)
  | staFailed {err err₂ : Int} {d₁ d₂ : Daemon} {bssids : List CString} (halloc : r.ifAlloc = true)
      (hif : getInterface r (resetApInfo r.ifaddrs d) = some (err, d₁)) (herr : 0 ≤ err)
      (hmode : d₁.isApMode = true) (hsalloc : r.staAlloc = true)
      (hsta : getStation r d₁ = some (err₂, d₂, bssids)) (herr₂ : err₂ < 0)

/-- Every tracked station stays with its time of association, and nothing that is
sent out says that a station left. -/
def Keeps (m m' : StaMgr) : Prop :=
  (∀ b st, WlanStaMgr.find b m = some st →
    ∃ st', WlanStaMgr.find b m' = some st' ∧ st'.assocTime = st.assocTime) ∧
  ∃ new, m'.out = m.out ++ new ∧ (∀ b, .tcpPush .staLeave b ∉ new) ∧ .ipcPush .staLeave ∉ new

theorem keeps_refl (m : StaMgr) : Keeps m m :=
  ⟨fun _ st h => ⟨st, h, rfl⟩, [], by simp, by simp, by simp⟩

theorem keeps_trans {m₁ m₂ m₃ : StaMgr} (h₁ : Keeps m₁ m₂) (h₂ : Keeps m₂ m₃) : Keeps m₁ m₃ := by
  obtain ⟨hfind₁, new₁, hout₁, htcp₁, hipc₁⟩ := h₁
  obtain ⟨hfind₂, new₂, hout₂, htcp₂, hipc₂⟩ := h₂
  refine ⟨fun b st hst => ?_, new₁ ++ new₂, ?_, fun b hb => ?_, fun hb => ?_⟩
  · obtain ⟨st₁, hst₁, htime₁⟩ := hfind₁ b st hst
    obtain ⟨st₂, hst₂, htime₂⟩ := hfind₂ b st₁ hst₁
    exact ⟨st₂, hst₂, htime₂.trans htime₁⟩
  · rw [hout₂, hout₁, List.append_assoc]
  · exact (List.mem_append.mp hb).elim (htcp₁ b) (htcp₂ b)
  · exact (List.mem_append.mp hb).elim hipc₁ hipc₂

theorem keeps_grow {m m' : StaMgr} (hg : Grow m m') : Keeps m m' := by
  cases hg with
  | quiet => exact keeps_refl m
  | join mac st hst hnew =>
    refine ⟨fun b sta hsta => ⟨sta, ?_, rfl⟩, _, rfl, by simp [arrival], by simp [arrival]⟩
    have htracked : b ∈ m.bssids := WlanStaMgr.mem_bssids_of_find hsta
    have hne : st.bssid ≠ b := fun e => hnew (e ▸ htracked)
    rw [← hsta]
    exact KeyedList.lookup_cons_ne hne
  | seen c r p busy htracked =>
    refine ⟨fun b sta hsta => ?_, _, rfl, ?_, ?_⟩
    · by_cases hb : b = c
      · subst hb
        refine ⟨Station.report r p sta, ?_, rfl⟩
        rw [find_reportTo_self, hsta, Option.map_some]
      · refine ⟨sta, ?_, rfl⟩
        rw [find_reportTo_ne hb, hsta]
    · cases busy <;> simp
    · cases busy <;> simp

theorem keeps_grows {m m' : StaMgr} (h : ReflTransGen Grow m m') : Keeps m m' :=
  reflTransGen_invariant (I := Keeps m) (fun _ _ hm hg => keeps_trans hm (keeps_grow hg)) h
    (keeps_refl m)

theorem refresh_of_fails {r : RefreshInput} {d : Daemon} (hk : KernelReplies r.ifExchange)
    (hfail : RefreshFails r d) :
    ∃ d', refresh r d = some d' ∧ ReflTransGen Grow d.mgr d'.mgr := by
  by_cases hlive : Live d
  · cases hfail with
    | noIfMsg halloc => exact ⟨_, refresh_of_refreshed (.noIfMsg hlive halloc), .refl⟩
    | ifFailed halloc hif herr =>
      refine ⟨_, refresh_of_refreshed (.ifFailed hlive halloc hif herr), ?_⟩
      rw [getInterface_quiet hlive hk hif]
    | noStaMsg halloc hif herr hmode hsalloc =>
      refine ⟨_, refresh_of_refreshed (.noStaMsg hlive halloc hif herr hmode hsalloc), ?_⟩
      rw [getInterface_quiet hlive hk hif]
    | staFailed halloc hif herr hmode hsalloc hsta herr₂ =>
      exact ⟨_, refresh_of_refreshed
        (.staFailed hlive halloc hif herr hmode hsalloc hsta herr₂),
        requests_grow hlive hk hif hsta⟩
  · exact ⟨d, refresh_of_refreshed (.idle hlive), .refl⟩

/-- A refresh that fails returns with every station that was tracked before still
tracked, with the same time of association, and has announced no departure to the
TCP clients and no LED-off to the subscribers. -/
theorem failed_refresh_keeps_stations {r : RefreshInput} {d : Daemon}
    (hk : KernelReplies r.ifExchange) (hfail : RefreshFails r d) :
    ∃ d' new, refresh r d = some d' ∧ d'.mgr.out = d.mgr.out ++ new ∧
      (∀ b st, WlanStaMgr.find b d.mgr = some st →
        ∃ st', WlanStaMgr.find b d'.mgr = some st' ∧ st'.assocTime = st.assocTime) ∧
      (∀ b, .tcpPush .staLeave b ∉ new) ∧ .ipcPush .staLeave ∉ new := by
  obtain ⟨d', hrefresh, hgrow⟩ := refresh_of_fails hk hfail
  obtain ⟨hfind, new, hout, htcp, hipc⟩ := keeps_grows hgrow
  exact ⟨d', new, hrefresh, hout, hfind, htcp, hipc⟩

def brokenDump : RefreshInput :=
  { apRefresh 3 [] 0 with
    staExchange :=
      { cbAlloc := true, send := 0,
        recvs := [{ events := [.valid (Env.at 9, stationMsg .newStation 3 (localMac 2)),
                      .nlmsgerr (-5)], res := 0 }] } }

theorem failed_refresh_keeps_stations_brokenDump :
    ∃ d' st', refresh brokenDump serving = some d' ∧
      WlanStaMgr.find (bssidText (localMac 1)) d'.mgr = some st' ∧ st'.assocTime = 7 := by
  obtain ⟨d', new, hrefresh, -, hfind, -, -⟩ := failed_refresh_keeps_stations (r := brokenDump)
    (d := serving) (kernelReplies_apRefresh 3 [] 0)
    (.staFailed rfl rfl (Int.le_refl 0) rfl rfl rfl (by decide))
  obtain ⟨st', hst', htime⟩ := hfind (bssidText (localMac 1)) _ rfl
  exact ⟨d', st', hrefresh, hst', htime⟩

/-! ## A refresh that completes -/

def dumpMacs (dump : List (Env × NlMsg)) : List Mac := dump.filterMap (fun p => p.2.mac)

def dumpTexts (dump : List (Env × NlMsg)) : List CString := (dumpMacs dump).map bssidText

def tcpCall : Output → Option (StaEvent × CString)
  | .tcpPush arg bssid => some (arg, bssid)
  | _ => none

/-- The calls of `tcp_server_push_event`, oldest first. -/
def tcpCalls (out : List Output) : List (StaEvent × CString) := out.filterMap tcpCall

/-- The refresh runs in AP mode, both of its requests succeed, and the second one
delivers the stations of the dump, which differ and for which memory is found. -/
structure CompletedDump (r : RefreshInput) (d : Daemon) (dump : List (Env × NlMsg)) : Prop where
  live : Live d
  ifAlloc : r.ifAlloc = true
  ifDone : ∃ err d₁, getInterface r (resetApInfo r.ifaddrs d) = some (err, d₁) ∧ 0 ≤ err ∧
    d₁.isApMode = true
  replies : KernelReplies r.ifExchange
  staAlloc : r.staAlloc = true
  staDone : ∃ err, transcript r.staExchange = some (err, dump) ∧ 0 ≤ err
  distinct : (dumpMacs dump).Nodup
  malloc : ∀ p ∈ dump, p.1.malloc = true

/-- The list `m'` is what the dump says, and what was sent out since `m` says how it
came about: a join for each station of the dump that is new, then a departure for
each tracked station that the dump does not have. -/
structure Reconciled (m : StaMgr) (dump : List (Env × NlMsg)) (m' : StaMgr) : Prop where
  tracked : ∀ b, b ∈ m'.bssids ↔ b ∈ dumpTexts dump
  distinct : m.bssids.Nodup → m'.bssids.Nodup
  reported : ∀ p ∈ dump, ∀ mac, p.2.mac = some mac →
    ∃ st, WlanStaMgr.find (bssidText mac) m' = some st ∧ st.rssi = p.2.rssiDbm ∧
      st.privPkts = p.2.totalPackets
  pushed : ∃ new, m'.out = m.out ++ new ∧
    tcpCalls new =
      ((dumpTexts dump).filter (· ∉ m.bssids)).map (fun b => (.staJoin, b)) ++
      (m.bssids.filter (· ∉ dumpTexts dump)).map (fun b => (.staLeave, b))

theorem tcpCalls_append (out new : List Output) :
    tcpCalls (out ++ new) = tcpCalls out ++ tcpCalls new := List.filterMap_append

theorem tcpCalls_ipcPush (c : Prop) [Decidable c] (e : StaEvent) :
    tcpCalls (if c then [.ipcPush e] else []) = [] := filterMap_ipcPush rfl c

theorem tcpCalls_departures (l : List Station) :
    tcpCalls (l.flatMap departure) = (l.map Station.bssid).map (fun b => (.staLeave, b)) := by
  induction l with
  | nil => rfl
  | cons st l ih =>
    rw [List.flatMap_cons, tcpCalls_append, ih]
    rfl

/-- What the entries of a dump have done to the list `m` when the last one has been
handled. -/
structure Dumped (m : StaMgr) (dump : List (Env × NlMsg)) (m' : StaMgr) : Prop where
  bssids : m'.bssids = ((dumpTexts dump).filter (· ∉ m.bssids)).reverse ++ m.bssids
  reported : ∀ p ∈ dump, ∀ mac, p.2.mac = some mac →
    ∃ st, WlanStaMgr.find (bssidText mac) m' = some st ∧ st.rssi = p.2.rssiDbm ∧
      st.privPkts = p.2.totalPackets
  pushed : ∃ new, m'.out = m.out ++ new ∧
    tcpCalls new = ((dumpTexts dump).filter (· ∉ m.bssids)).map (fun b => (.staJoin, b))

theorem updateSta_find_self {env : Env} (mac : Mac) (r : Int) (p : Nat) (m : StaMgr)
    (hmem : env.malloc = true) :
    ∃ st, WlanStaMgr.find (bssidText mac) (updateSta env (bssidText mac) r p m) = some st ∧
      st.rssi = r ∧ st.privPkts = p := by
  by_cases h : bssidText mac ∈ m.bssids
  · obtain ⟨sta, hsta⟩ := WlanStaMgr.exists_find h
    refine ⟨Station.report r p sta, ?_, rfl, rfl⟩
    rw [updateSta_tracked hsta, find_reportTo_self, hsta, Option.map_some]
  · rw [updateSta_fresh h hmem]
    exact ⟨_, KeyedList.lookup_cons_self rfl, rfl, rfl⟩

theorem updateSta_find_ne {env : Env} {mac : Mac} {r : Int} {p : Nat} {m : StaMgr} {b : CString}
    (hb : b ≠ bssidText mac) :
    WlanStaMgr.find b (updateSta env (bssidText mac) r p m) = WlanStaMgr.find b m := by
  by_cases h : bssidText mac ∈ m.bssids
  · obtain ⟨sta, hsta⟩ := WlanStaMgr.exists_find h
    rw [updateSta_tracked hsta, find_reportTo_ne hb]
  · cases hmem : env.malloc with
    | false => rw [updateSta_failed h hmem]
    | true =>
      rw [updateSta_fresh h hmem]
      exact KeyedList.lookup_cons_ne (fun e => hb e.symm)

theorem updateSta_bssids {env : Env} (mac : Mac) (r : Int) (p : Nat) (m : StaMgr)
    (hmem : env.malloc = true) :
    (updateSta env (bssidText mac) r p m).bssids =
      if bssidText mac ∈ m.bssids then m.bssids else bssidText mac :: m.bssids := by
  by_cases h : bssidText mac ∈ m.bssids
  · obtain ⟨sta, hsta⟩ := WlanStaMgr.exists_find h
    rw [if_pos h, updateSta_tracked hsta]
    exact bssids_reportTo (bssidText mac) r p m.head
  · rw [if_neg h, updateSta_fresh h hmem]
    rfl

theorem updateSta_tcpCalls {env : Env} (mac : Mac) (r : Int) (p : Nat) (m : StaMgr)
    (hmem : env.malloc = true) :
    ∃ new, (updateSta env (bssidText mac) r p m).out = m.out ++ new ∧
      tcpCalls new = if bssidText mac ∈ m.bssids then [] else [(.staJoin, bssidText mac)] := by
  by_cases h : bssidText mac ∈ m.bssids
  · obtain ⟨sta, hsta⟩ := WlanStaMgr.exists_find h
    rw [if_pos h, updateSta_tracked hsta]
    exact ⟨_, rfl, tcpCalls_ipcPush _ _⟩
  · rw [if_neg h, updateSta_fresh h hmem]
    exact ⟨_, rfl, rfl⟩

theorem dumpMacs_snoc (dump : List (Env × NlMsg)) (p : Env × NlMsg) :
    dumpMacs (dump ++ [p]) = dumpMacs dump ++ p.2.mac.toList := by
  cases hmac : p.2.mac <;> simp [dumpMacs, hmac]

theorem dumpTexts_snoc (dump : List (Env × NlMsg)) (p : Env × NlMsg) :
    dumpTexts (dump ++ [p]) = dumpTexts dump ++ p.2.mac.toList.map bssidText := by
  rw [dumpTexts, dumpMacs_snoc, List.map_append, dumpTexts]

theorem mem_dumpTexts {dump : List (Env × NlMsg)} {mac : Mac} :
    bssidText mac ∈ dumpTexts dump ↔ mac ∈ dumpMacs dump :=
  List.mem_map_of_injective bssidText_injective

theorem dumped_nil (m : StaMgr) : Dumped m [] m where
  bssids := rfl
  reported := by simp
  pushed := ⟨[], by simp, rfl⟩

theorem dumped_skip {m m₁ : StaMgr} {dump : List (Env × NlMsg)} {p : Env × NlMsg}
    (h : Dumped m dump m₁) (hmac : p.2.mac = none) : Dumped m (dump ++ [p]) m₁ := by
  have htexts : dumpTexts (dump ++ [p]) = dumpTexts dump := by simp [dumpTexts_snoc, hmac]
  refine ⟨?_, fun q hq mac hq' => ?_, ?_⟩
  · rw [htexts, h.bssids]
  · rcases List.mem_append.mp hq with hq | hq
    · exact h.reported q hq mac hq'
    · rw [List.mem_singleton.mp hq, hmac] at hq'
      cases hq'
  · rw [htexts]
    exact h.pushed

theorem dumped_updateSta {m m₁ : StaMgr} {dump : List (Env × NlMsg)} {p : Env × NlMsg} {mac : Mac}
    (h : Dumped m dump m₁) (hmac : p.2.mac = some mac) (hnew : mac ∉ dumpMacs dump)
    (hmem : p.1.malloc = true) :
    Dumped m (dump ++ [p])
      (updateSta p.1 (bssidText mac) p.2.rssiDbm p.2.totalPackets m₁) := by
  have htexts : dumpTexts (dump ++ [p]) = dumpTexts dump ++ [bssidText mac] := by
    simp [dumpTexts_snoc, hmac]
  -- The earlier entries say nothing about this station.
  have htracked : bssidText mac ∈ m₁.bssids ↔ bssidText mac ∈ m.bssids := by
    rw [h.bssids, List.mem_append, List.mem_reverse, List.mem_filter]
    exact or_iff_right (fun hb => hnew (mem_dumpTexts.mp hb.1))
  refine ⟨?_, fun q hq mac' hmac' => ?_, ?_⟩
  · rw [updateSta_bssids mac _ _ m₁ hmem, htexts]
    by_cases hb : bssidText mac ∈ m.bssids
    · rw [if_pos (htracked.mpr hb), h.bssids]
      simp [hb]
    · rw [if_neg (fun hb' => hb (htracked.mp hb')), h.bssids]
      simp [hb]
  · rcases List.mem_append.mp hq with hq | hq
    · have hne : bssidText mac' ≠ bssidText mac := by
        intro e
        refine hnew (List.mem_filterMap.mpr ⟨q, hq, ?_⟩)
        rw [hmac', bssidText_injective e]
      rw [updateSta_find_ne hne]
      exact h.reported q hq mac' hmac'
    · obtain rfl := List.mem_singleton.mp hq
      obtain rfl : mac = mac' := Option.some.inj (hmac.symm.trans hmac')
      exact updateSta_find_self mac _ _ m₁ hmem
  · obtain ⟨new, hout, hcalls⟩ := h.pushed
    obtain ⟨more, hmore, hjoin⟩ := updateSta_tcpCalls mac p.2.rssiDbm p.2.totalPackets m₁ hmem
    refine ⟨new ++ more, by rw [hmore, hout, List.append_assoc], ?_⟩
    rw [tcpCalls_append, hcalls, hjoin, htexts]
    by_cases hb : bssidText mac ∈ m.bssids
    · rw [if_pos (htracked.mpr hb)]
      simp [hb]
    · rw [if_neg (fun hb' => hb (htracked.mp hb'))]
      simp [hb]

theorem take_snoc_maxStas (texts : List CString) (b : CString) :
    (if (texts.take maxStas).length < maxStas then texts.take maxStas ++ [b]
      else texts.take maxStas) = (texts ++ [b]).take maxStas := by
  rw [List.length_take]
  by_cases hroom : texts.length < maxStas
  · rw [if_pos (by omega), List.take_of_length_le (by omega),
      List.take_of_length_le (by rw [List.length_append, List.length_singleton]; omega)]
  · rw [if_neg (by omega), List.take_append_of_le_length (by omega)]

/-- The array that is filled beside the entries of a dump. -/
theorem foldl_getLinkSignalCb_ctx (d : Daemon) (dump : List (Env × NlMsg)) :
    (dump.foldl (fun s p => getLinkSignalCb p s) (d, [])).2 = (dumpTexts dump).take maxStas := by
  induction dump using List.reverseRecOn with
  | nil => rfl
  | append_singleton dump p ih =>
    rw [List.foldl_append, List.foldl_cons, List.foldl_nil, dumpTexts_snoc]
    cases hmac : p.2.mac with
    | none => rw [getLinkSignalCb_none hmac, ih, Option.toList_none, List.map_nil, List.append_nil]
    | some mac =>
      rw [getLinkSignalCb_ctx hmac, ih, take_snoc_maxStas]
      rfl

/-- The entries of a dump.  The induction takes the last entry off, so that the
station it is for is a new one. -/
theorem foldl_getLinkSignalCb_dumped (d : Daemon) {dump : List (Env × NlMsg)}
    (hdistinct : (dumpMacs dump).Nodup) (hmem : ∀ p ∈ dump, p.1.malloc = true) :
    Dumped d.mgr dump (dump.foldl (fun s p => getLinkSignalCb p s) (d, [])).1.mgr := by
  induction dump using List.reverseRecOn with
  | nil => exact dumped_nil d.mgr
  | append_singleton dump p ih =>
    rw [dumpMacs_snoc] at hdistinct
    have hdumped := ih (List.Nodup.of_append_left hdistinct)
      (fun q hq => hmem q (List.mem_append_left _ hq))
    rw [List.foldl_append, List.foldl_cons, List.foldl_nil]
    cases hmac : p.2.mac with
    | none =>
      rw [getLinkSignalCb_none hmac]
      exact dumped_skip hdumped hmac
    | some mac =>
      have hnew : mac ∉ dumpMacs dump := by
        rw [hmac, Option.toList_some] at hdistinct
        exact fun hb => (List.disjoint_of_nodup_append hdistinct) hb (List.mem_singleton_self mac)
      rw [getLinkSignalCb_mgr hmac]
      exact dumped_updateSta hdumped hmac hnew (hmem p (by simp))

theorem stays_collected (bssids : List CString) (b : CString) :
    stays (some bssids) bssids.length b = decide (b ∈ bssids) := by
  rw [stays, if_neg (by simp), findSta]
  by_cases hnil : bssids = []
  · simp [hnil]
  · have hpos : 0 < bssids.length := List.length_pos_iff.mpr hnil
    rw [if_neg (by omega), Int.toNat_natCast, List.take_length]
    rw [Bool.eq_iff_iff]
    simp

theorem removeSta_bssids (bssids : List CString) (m : StaMgr) :
    (removeSta (some bssids) bssids.length m).bssids = m.bssids.filter (· ∈ bssids) := by
  simp only [removeSta_eq, stays_collected, StaMgr.bssids]
  rw [List.filter_map]
  rfl

theorem removeSta_find {bssids : List CString} {b : CString} (hb : b ∈ bssids) (m : StaMgr) :
    WlanStaMgr.find b (removeSta (some bssids) bssids.length m) = WlanStaMgr.find b m := by
  simp only [removeSta_eq, stays_collected, WlanStaMgr.find]
  rw [KeyedList.lookup_filter (fun c => decide (c ∈ bssids)), if_pos (decide_eq_true hb)]

theorem removeSta_tcpCalls (bssids : List CString) (m : StaMgr) :
    ∃ new, (removeSta (some bssids) bssids.length m).out = m.out ++ new ∧
      tcpCalls new = (m.bssids.filter (· ∉ bssids)).map (fun b => (.staLeave, b)) := by
  simp only [removeSta_eq, stays_collected]
  refine ⟨_, List.append_assoc _ _ _, ?_⟩
  rw [tcpCalls_append, tcpCalls_departures, tcpCalls_ipcPush, List.append_nil, StaMgr.bssids,
    List.filter_map]
  simp only [Function.comp_def, decide_not]

/-- The entries of the dump are the strings in front, and none of them is in both. -/
theorem Dumped.nodup {m m₂ : StaMgr} {dump : List (Env × NlMsg)} (h : Dumped m dump m₂)
    (htexts : (dumpTexts dump).Nodup) (hm : m.bssids.Nodup) : m₂.bssids.Nodup := by
  rw [h.bssids, List.nodup_append']
  refine ⟨List.nodup_reverse.mpr (htexts.filter _), hm, fun b hb hb' => ?_⟩
  rw [List.mem_reverse, List.mem_filter] at hb
  simpa [hb'] using hb.2

/-- After the removals the two records of the dump agree exactly if the array had
room for the whole dump. -/
theorem reconciled_iff {m m₂ : StaMgr} {dump : List (Env × NlMsg)} (h : Dumped m dump m₂)
    (hdistinct : (dumpMacs dump).Nodup) {bssids : List CString}
    (hbssids : bssids = (dumpTexts dump).take maxStas) :
    Reconciled m dump (removeSta (some bssids) bssids.length m₂) ↔
      (dumpMacs dump).length ≤ maxStas := by
  have htexts : (dumpTexts dump).Nodup := hdistinct.map bssidText_injective
  have hlength : (dumpTexts dump).length = (dumpMacs dump).length := List.length_map _
  constructor
  · intro hrec
    -- Everything in the dump is tracked, and what is tracked is in the array.
    have hsub : dumpTexts dump ⊆ bssids := by
      intro b hb
      have hmem := (hrec.tracked b).mpr hb
      rw [removeSta_bssids, List.mem_filter] at hmem
      exact of_decide_eq_true hmem.2
    have hle := (htexts.subperm hsub).length_le
    rw [hbssids, List.length_take] at hle
    omega
  · intro hle
    have hall : bssids = dumpTexts dump := by
      rw [hbssids, List.take_of_length_le (by omega)]
    subst hall
    refine ⟨fun b => ?_, fun hm => ?_, fun p hp mac hmac => ?_, ?_⟩
    · rw [removeSta_bssids, List.mem_filter, h.bssids, List.mem_append, List.mem_reverse,
        List.mem_filter]
      by_cases hb : b ∈ dumpTexts dump <;> by_cases hb' : b ∈ m.bssids <;> simp [hb, hb']
    · rw [removeSta_bssids]
      exact (h.nodup htexts hm).filter _
    · have hb : bssidText mac ∈ dumpTexts dump :=
        mem_dumpTexts.mpr (List.mem_filterMap.mpr ⟨p, hp, hmac⟩)
      rw [removeSta_find hb]
      exact h.reported p hp mac hmac
    · obtain ⟨new, hout, hjoins⟩ := h.pushed
      obtain ⟨more, hmore, hleaves⟩ := removeSta_tcpCalls (dumpTexts dump) m₂
      refine ⟨new ++ more, by rw [hmore, hout, List.append_assoc], ?_⟩
      -- The new stations are in the dump, so only old ones leave.
      have hold : m₂.bssids.filter (· ∉ dumpTexts dump) = m.bssids.filter (· ∉ dumpTexts dump) := by
        rw [h.bssids, List.filter_append, List.filter_eq_nil_iff.mpr, List.nil_append]
        intro b hb
        rw [List.mem_reverse, List.mem_filter] at hb
        simp [hb.1]
      rw [tcpCalls_append, hjoins, hleaves, hold]

theorem refresh_of_completed {r : RefreshInput} {d : Daemon} {dump : List (Env × NlMsg)}
    (hdump : CompletedDump r d dump) :
    ∃ d' m₂ bssids, refresh r d = some d' ∧ d'.mgr = removeSta (some bssids) bssids.length m₂ ∧
      Dumped d.mgr dump m₂ ∧ bssids = (dumpTexts dump).take maxStas := by
  obtain ⟨err, d₁, hif, herr, hmode⟩ := hdump.ifDone
  obtain ⟨err₂, htrans, herr₂⟩ := hdump.staDone
  have hdumped := foldl_getLinkSignalCb_dumped d₁ hdump.distinct hdump.malloc
  have hsta := getStation_of_transcript (getInterface_change hdump.live hif).1 htrans
  rw [getInterface_quiet hdump.live hdump.replies hif] at hdumped
  exact ⟨_, _, _, refresh_of_refreshed (.dumped hdump.live hdump.ifAlloc hif herr hmode
    hdump.staAlloc hsta herr₂), rfl, hdumped, foldl_getLinkSignalCb_ctx d₁ dump⟩

/-- A refresh that completes returns, and it reconciles the list with the dump
exactly if the dump has at most 64 stations. -/
theorem completed_refresh_reconciles_iff {r : RefreshInput} {d : Daemon}
    {dump : List (Env × NlMsg)} (hdump : CompletedDump r d dump) :
    ∃ d', refresh r d = some d' ∧
      (Reconciled d.mgr dump d'.mgr ↔ (dumpMacs dump).length ≤ 64) := by
  obtain ⟨d', m₂, bssids, hrefresh, hmgr, hdumped, hbssids⟩ := refresh_of_completed hdump
  refine ⟨d', hrefresh, ?_⟩
  rw [hmgr]
  exact reconciled_iff hdumped hdump.distinct hbssids

theorem completedDump_boot {dump : List (Env × NlMsg)} (m : StaMgr)
    (hdistinct : (dumpMacs dump).Nodup) (hmem : ∀ p ∈ dump, p.1.malloc = true) :
    CompletedDump (apRefresh 3 dump 0) { boot "wlan0".toList 3 28 with mgr := m } dump where
  live := ⟨rfl, (by decide : (0 : Int) ≤ 28)⟩
  ifAlloc := rfl
  ifDone := ⟨0, _, rfl, Int.le_refl 0, rfl⟩
  replies := kernelReplies_apRefresh 3 dump 0
  staAlloc := rfl
  staDone := ⟨0, transcript_dumpExchange dump 0, Int.le_refl 0⟩
  distinct := hdistinct
  malloc := hmem

/-- One station is tracked and the dump has another one. -/
theorem completed_refresh_reconciles_handover :
    ∃ d', refresh (apRefresh 3 [(Env.at 9, stationMsg .newStation 3 (localMac 2))] 0) serving
        = some d' ∧
      Reconciled serving.mgr [(Env.at 9, stationMsg .newStation 3 (localMac 2))] d'.mgr := by
  have hdump : CompletedDump (apRefresh 3 [(Env.at 9, stationMsg .newStation 3 (localMac 2))] 0)
      serving [(Env.at 9, stationMsg .newStation 3 (localMac 2))] :=
    completedDump_boot serving.mgr (by decide) (by decide)
  obtain ⟨d', hrefresh, hiff⟩ := completed_refresh_reconciles_iff hdump
  exact ⟨d', hrefresh, hiff.mpr (by decide)⟩

def crowd : List (Env × NlMsg) :=
  (List.range 65).map (fun i => (Env.at 9, stationMsg .newStation 3 (localMac (UInt8.ofNat i))))

theorem dumpMacs_crowd : dumpMacs crowd = (List.range 65).map (fun i => localMac (UInt8.ofNat i)) :=
  rfl

theorem nodup_localMacs {n : Nat} (h : n ≤ 256) :
    ((List.range n).map (fun i => localMac (UInt8.ofNat i))).Nodup := by
  refine List.Nodup.map_on (fun i hi j hj hij => ?_) List.nodup_range
  have hbyte : UInt8.ofNat i = UInt8.ofNat j := congrArg Mac.b5 hij
  have hnat := congrArg UInt8.toNat hbyte
  have hi : i < UInt8.size := Nat.lt_of_lt_of_le (List.mem_range.mp hi) h
  have hj : j < UInt8.size := Nat.lt_of_lt_of_le (List.mem_range.mp hj) h
  rwa [UInt8.toNat_ofNat_of_lt' hi, UInt8.toNat_ofNat_of_lt' hj] at hnat

/-- A dump of 65 stations that the empty list is refreshed from is not reconciled. -/
theorem not_reconciled_crowd :
    CompletedDump (apRefresh 3 crowd 0) (boot "wlan0".toList 3 28) crowd ∧
      ∃ d', refresh (apRefresh 3 crowd 0) (boot "wlan0".toList 3 28) = some d' ∧
        ¬Reconciled (boot "wlan0".toList 3 28).mgr crowd d'.mgr := by
  have hdump : CompletedDump (apRefresh 3 crowd 0) (boot "wlan0".toList 3 28) crowd := by
    refine completedDump_boot WlanStaMgr.init ?_ (fun p hp => ?_)
    · rw [dumpMacs_crowd]
      exact nodup_localMacs (by decide)
    · obtain ⟨i, -, rfl⟩ := List.mem_map.mp hp
      rfl
  obtain ⟨d', m₂, bssids, hrefresh, hmgr, hdumped, hbssids⟩ := refresh_of_completed hdump
  refine ⟨hdump, d', hrefresh, fun hrec => ?_⟩
  rw [hmgr, reconciled_iff hdumped hdump.distinct hbssids, dumpMacs_crowd] at hrec
  exact absurd hrec (by simp [maxStas])

end Wlinkd
end LinuxLab
