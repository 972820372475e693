import LinuxLab.Wlinkd.Occupancy
import LinuxLab.Wlinkd.Refresh

/-!
# The order of a station dump

What the entries of a dump do to the station list can be read off the list before
the dump: an entry of a tracked station overwrites its readings, and an entry of a
new one links in a node.  Entries of different stations commute, and so do their
messages up to order.  The access point's own signal and rate are a different
matter: every entry overwrites them, and what is left is what the last one said.
-/

namespace LinuxLab
namespace Wlinkd

open Lib WlanUtils WlanLibnl WlanNl80211

/-! ## Taking out what is missing -/

theorem stays_some {array : List CString} {count : Int} (hcount : 0 ≤ count) (b : CString) :
    stays (some array) count b = true ↔ b ∈ array.take count.toNat := by
  rw [stays, if_neg (by simp; omega), findSta]
  by_cases hzero : count ≤ 0
  · have hnat : count.toNat = 0 := by omega
    simp [hzero, hnat]
  · simp [hzero]

theorem stays_none {bssids : Option (List CString)} {count : Int}
    (h : bssids = none ∨ count < 0) (b : CString) : stays bssids count b = false := by
  rw [stays, if_pos h]

theorem removeSta_outputs (bssids : Option (List CString)) (count : Int) (m : StaMgr) :
    ∃ new, (removeSta bssids count m).out = m.out ++ new ∧
      tcpCalls new = (m.head.filter (fun st => !stays bssids count st.bssid)).map
        (fun st => (.staLeave, st.bssid)) ∧
      ipcMessages new =
        if m.head ≠ [] ∧ m.head.filter (fun st => stays bssids count st.bssid) = [] then
          [.staLeave] else [] := by
  rw [removeSta_eq]
  refine ⟨_, List.append_assoc _ _ _, ?_, ?_⟩
  · rw [tcpCalls_append, tcpCalls_departures, tcpCalls_ipcPush, List.append_nil, List.map_map]
    rfl
  · rw [ipcMessages_append, ipcMessages_departures, List.nil_append]
    split
    · rfl
    · rfl

/-- A station is removed exactly when the list was not empty and nothing of it is kept,
as far as the list becomes empty. -/
theorem removed_all_iff {p : Station → Bool} {l : List Station} :
    (l.filter (fun st => !p st) ≠ [] ∧ l.filter p = []) ↔ (l ≠ [] ∧ l.filter p = []) := by
  refine and_congr_left (fun hnone => not_congr ?_)
  have hgone : l.filter (fun st => !p st) = l := by
    rw [List.filter_eq_nil_iff] at hnone
    rw [List.filter_eq_self]
    intro st hst
    simpa using hnone st hst
  rw [hgone]

/-- `wlan_nl80211_remove_sta` filters the list, whatever the list and the array.  With
an array and a count that is not negative, what stays is what occurs among the first
`count` strings; otherwise nothing does.  It sends one `sta_leave` for each station
that goes, in list order, and one LED-off message if it has emptied the list. -/
theorem removeSta_is_filter (bssids : Option (List CString)) (count : Int) (m : StaMgr) :
    ∃ (keep : CString → Bool) (new : List Output),
      (∀ array, bssids = some array → 0 ≤ count →
        ∀ b, keep b = true ↔ b ∈ array.take count.toNat) ∧
      (bssids = none ∨ count < 0 → ∀ b, keep b = false) ∧
      (removeSta bssids count m).head = m.head.filter (fun st => keep st.bssid) ∧
      (removeSta bssids count m).out = m.out ++ new ∧
      tcpCalls new = (m.head.filter (fun st => !keep st.bssid)).map
        (fun st => (.staLeave, st.bssid)) ∧
      ipcMessages new =
        if m.head.filter (fun st => !keep st.bssid) ≠ [] ∧ (removeSta bssids count m).head = []
        then [.staLeave] else [] := by
  obtain ⟨new, hout, htcp, hipc⟩ := removeSta_outputs bssids count m
  have hhead : (removeSta bssids count m).head =
      m.head.filter (fun st => stays bssids count st.bssid) := by rw [removeSta_eq]
  refine ⟨stays bssids count, new, ?_, fun h => stays_none h, hhead, hout, htcp, ?_⟩
  · rintro array rfl hcount b
    exact stays_some hcount b
  · rw [hipc, hhead]
    simp only [removed_all_iff]

/-! ## One entry after the other -/

/-- The node that a dump entry links in when its station is not in `m`. -/
def entryNode (m : StaMgr) (p : Env × NlMsg) : Option Station :=
  match p.2.mac with
  | none => none
  | some mac =>
    if bssidText mac ∈ m.bssids ∨ p.1.malloc = false then none
    else some { bssid := bssidText mac, rssi := p.2.rssiDbm, privPkts := p.2.totalPackets,
                assocTime := p.1.now }

/-- What a dump entry does to the nodes that are there. -/
def entryReport (l : List Station) (msg : NlMsg) : List Station :=
  match msg.mac with
  | none => l
  | some mac => reportTo (bssidText mac) msg.rssiDbm msg.totalPackets l

/-- What is sent out for a dump entry. -/
def entryOut (m : StaMgr) (p : Env × NlMsg) : List Output :=
  match p.2.mac with
  | none => []
  | some mac =>
    match WlanStaMgr.find (bssidText mac) m with
    | some sta => if sta.privPkts < p.2.totalPackets then [.ipcPush .traffic] else []
    | none => (entryNode m p).elim [] arrival

theorem entryNode_untracked {m : StaMgr} {p : Env × NlMsg} {st : Station}
    (h : entryNode m p = some st) : st.bssid ∉ m.bssids := by
  rw [entryNode] at h
  cases hmac : p.2.mac with
  | none => simp [hmac] at h
  | some mac =>
    simp only [hmac, Option.ite_none_left_eq_some, Option.some.injEq] at h
    rw [← h.2]
    exact fun hb => h.1 (Or.inl hb)

theorem entryReport_some {msg : NlMsg} {mac : Mac} (hmac : msg.mac = some mac)
    (l : List Station) :
    entryReport l msg = reportTo (bssidText mac) msg.rssiDbm msg.totalPackets l := by
  rw [entryReport, hmac]

theorem bssids_entryReport (l : List Station) (msg : NlMsg) :
    (entryReport l msg).map Station.bssid = l.map Station.bssid := by
  rw [entryReport]
  cases msg.mac with
  | none => rfl
  | some mac => exact bssids_reportTo _ _ _ l

theorem bssids_entryReports (dump : List (Env × NlMsg)) (l : List Station) :
    (dump.foldl (fun l p => entryReport l p.2) l).map Station.bssid = l.map Station.bssid :=
  foldl_unchanged (fun l => l.map Station.bssid) (fun p _ l => bssids_entryReport l p.2) l

theorem find_entry_ne {b : CString} {p : Env × NlMsg}
    (h : ∀ mac, p.2.mac = some mac → b ≠ bssidText mac) (s : Daemon × List CString) :
    WlanStaMgr.find b (getLinkSignalCb p s).1.mgr = WlanStaMgr.find b s.1.mgr := by
  cases hmac : p.2.mac with
  | none => rw [getLinkSignalCb_none hmac]
  | some mac => rw [getLinkSignalCb_mgr hmac, updateSta_find_ne (h mac hmac)]

/-- One more entry, for a station that the entries so far say nothing about.  The list
`m` is the one before the dump; by now the nodes of new stations stand in front. -/
theorem updateSta_entry {m m₁ : StaMgr} {p : Env × NlMsg} {mac : Mac} {nodes reports : List Station}
    (hmac : p.2.mac = some mac) (hhead : m₁.head = nodes ++ reports)
    (hnodes : ∀ st ∈ nodes, st.bssid ∉ m.bssids) (hreports : reports.map Station.bssid = m.bssids)
    (hfind : WlanStaMgr.find (bssidText mac) m₁ = WlanStaMgr.find (bssidText mac) m) :
    updateSta p.1 (bssidText mac) p.2.rssiDbm p.2.totalPackets m₁ =
      { head := (entryNode m p).toList ++ (nodes ++ entryReport reports p.2),
        out := m₁.out ++ entryOut m p } := by
  rw [entryReport_some hmac]
  by_cases htracked : bssidText mac ∈ m.bssids
  · obtain ⟨sta, hsta⟩ := WlanStaMgr.exists_find htracked
    have hfront : bssidText mac ∉ nodes.map Station.bssid := by
      intro hb
      obtain ⟨st, hst, hbssid⟩ := List.mem_map.mp hb
      exact hnodes st hst (hbssid ▸ htracked)
    rw [updateSta_tracked (hfind.trans hsta), hhead, reportTo, KeyedList.update_append _ hfront]
    simp [entryNode, entryOut, hmac, hsta, htracked, reportTo]
  · have hnone := WlanStaMgr.find_eq_none.mpr htracked
    have huntracked : bssidText mac ∉ m₁.bssids :=
      WlanStaMgr.find_eq_none.mp (hfind.trans hnone)
    have habsent : reportTo (bssidText mac) p.2.rssiDbm p.2.totalPackets reports = reports :=
      KeyedList.update_absent _ (hreports ▸ htracked)
    rw [habsent, ← hhead]
    cases hmem : p.1.malloc with
    | false =>
      rw [updateSta_failed huntracked hmem]
      simp [entryNode, entryOut, hmac, hmem, hnone]
    | true =>
      rw [updateSta_fresh huntracked hmem]
      simp [entryNode, entryOut, hmac, hmem, hnone, htracked, arrival]

/-- The list after a dump, from the list before it.  The induction takes the last
entry off: no earlier entry is for the same station, so the code finds for it what was
there before the dump. -/
theorem foldl_getLinkSignalCb_mgr (d : Daemon) {dump : List (Env × NlMsg)}
    (hdistinct : (dumpMacs dump).Nodup) :
    (dump.foldl (fun s p => getLinkSignalCb p s) (d, [])).1.mgr =
      { head := (dump.filterMap (entryNode d.mgr)).reverse ++
          dump.foldl (fun l p => entryReport l p.2) d.mgr.head,
        out := d.mgr.out ++ dump.flatMap (entryOut d.mgr) } := by
  induction dump using List.reverseRecOn with
  | nil => simp
  | append_singleton dump p ih =>
    rw [dumpMacs_snoc] at hdistinct
    have hm := ih (List.Nodup.of_append_left hdistinct)
    have hnodes : ∀ st ∈ (dump.filterMap (entryNode d.mgr)).reverse, st.bssid ∉ d.mgr.bssids := by
      intro st hst
      obtain ⟨q, -, hq⟩ := List.mem_filterMap.mp (List.mem_reverse.mp hst)
      exact entryNode_untracked hq
    have hreports := bssids_entryReports dump d.mgr.head
    simp only [List.foldl_append, List.foldl_cons, List.foldl_nil, List.filterMap_append,
      List.flatMap_append, List.reverse_append, List.flatMap_cons, List.flatMap_nil,
      List.append_nil]
    cases hmac : p.2.mac with
    | none =>
      rw [getLinkSignalCb_none hmac, hm]
      simp [entryNode, entryReport, entryOut, hmac]
    | some mac =>
      have hnew : mac ∉ dumpMacs dump := by
        rw [hmac, Option.toList_some] at hdistinct
        exact fun hb => (List.disjoint_of_nodup_append hdistinct) hb (List.mem_singleton_self mac)
      have hfind : WlanStaMgr.find (bssidText mac)
          (dump.foldl (fun s p => getLinkSignalCb p s) (d, [])).1.mgr =
          WlanStaMgr.find (bssidText mac) d.mgr := by
        refine foldl_unchanged (fun s : Daemon × List CString =>
          WlanStaMgr.find (bssidText mac) s.1.mgr) (fun q hq s => find_entry_ne ?_ s) (d, [])
        intro mac' hmac' e
        exact hnew (List.mem_filterMap.mpr ⟨q, hq, bssidText_injective e ▸ hmac'⟩)
      rw [getLinkSignalCb_mgr hmac, updateSta_entry hmac (by rw [hm]) hnodes hreports hfind, hm]
      cases hnode : entryNode d.mgr p <;> simp [hnode]

/-! ## What the entries say about the access point -/

/-- The rate that a dump entry reports, if it has the attribute. -/
def NlMsg.rateMbps (msg : NlMsg) : Option Int :=
  match msg.staInfo with
  | .parsed { txBitrate := .parsed { bitrate32 := some v, .. }, .. } => some (v.toNat / 10)
  | .parsed { txBitrate := .parsed { bitrate32 := none, bitrate := some v }, .. } =>
    some (v.toNat / 10)
  | .parsed { txBitrate := .malformed, .. } => some 0
  | _ => none

/-- The signals of the entries that have an address, in order. -/
def signals (dump : List (Env × NlMsg)) : List Int :=
  dump.filterMap (fun p => p.2.mac.map (fun _ => p.2.rssiDbm))

/-- The rates that the entries with an address report, in order. -/
def rates (dump : List (Env × NlMsg)) : List Int :=
  dump.filterMap (fun p => p.2.mac.bind (fun _ => p.2.rateMbps))

theorem phyRateMbps_eq (msg : NlMsg) (old : Int) :
    msg.phyRateMbps old = msg.rateMbps.getD old := by
  rw [NlMsg.phyRateMbps, NlMsg.rateMbps]
  split <;> simp_all

theorem getLast_filterMap_snoc {α β : Type} (f : α → Option β) (l : List α) (a : α) (b : β) :
    ((l ++ [a]).filterMap f).getLast?.getD b = (f a).getD ((l.filterMap f).getLast?.getD b) := by
  rw [List.filterMap_append]
  cases hf : f a with
  | none => simp [hf]
  | some c => simp [hf]

theorem foldl_getLinkSignalCb_apInfo (d : Daemon) (dump : List (Env × NlMsg)) :
    (dump.foldl (fun s p => getLinkSignalCb p s) (d, [])).1.apInfo =
      { d.apInfo with
        phyRateMbps := (rates dump).getLast?.getD d.apInfo.phyRateMbps,
        rssiDbm := (signals dump).getLast?.getD d.apInfo.rssiDbm } := by
  induction dump using List.reverseRecOn with
  | nil => rfl
  | append_singleton dump p ih =>
    rw [List.foldl_append, List.foldl_cons, List.foldl_nil, rates, signals,
      getLast_filterMap_snoc, getLast_filterMap_snoc]
    cases hmac : p.2.mac with
    | none =>
      rw [getLinkSignalCb_none hmac, ih]
      rfl
    | some mac =>
      rw [getLinkSignalCb_apInfo hmac, ih, phyRateMbps_eq]
      rfl

/-! ## Two orders of one dump -/

/-- What an entry is about: its message, and whether memory is found for it.  Two
orders of a dump agree on this; the times at which the entries are handled differ. -/
def entryKey (p : Env × NlMsg) : Bool × NlMsg := (p.1.malloc, p.2)

def reading (st : Station) : CString × Int × Nat := (st.bssid, st.rssi, st.privPkts)

/-- The same stations with the same readings, and the same messages up to order. -/
structure SameStations (m₁ m₂ : StaMgr) : Prop where
  stations : (m₁.head.map reading).Perm (m₂.head.map reading)
  tcp : (tcpCalls m₁.out).Perm (tcpCalls m₂.out)
  ipc : (ipcMessages m₁.out).Perm (ipcMessages m₂.out)

/-- The same answers of `wlan_nl80211_get_ap_basic_info`. -/
structure SameAp (info₁ info₂ : ApInfo) : Prop where
  mode : info₁.mode = info₂.mode
  channel : info₁.channel = info₂.channel
  bandwidthMhz : info₁.bandwidthMhz = info₂.bandwidthMhz
  phyRateMbps : info₁.phyRateMbps = info₂.phyRateMbps
  rssiDbm : info₁.rssiDbm = info₂.rssiDbm

theorem perm_flatMap_of_factors {α β κ : Type} {key : α → κ} {f : α → List β}
    (hf : f.FactorsThrough key) {l l' : List α} (h : (l.map key).Perm (l'.map key)) :
    (l.flatMap f).Perm (l'.flatMap f) := by
  have heq : ∀ l : List α, l.flatMap f = (l.map key).flatMap (key.extend f (fun _ => [])) := by
    intro l
    rw [List.flatMap_map]
    congr 1
    funext a
    exact (hf.extend_apply (fun _ => []) a).symm
  rw [heq l, heq l']
  exact h.flatMap_right _

theorem perm_filterMap_of_factors {α β κ : Type} {key : α → κ} {f : α → Option β}
    (hf : f.FactorsThrough key) {l l' : List α} (h : (l.map key).Perm (l'.map key)) :
    (l.filterMap f).Perm (l'.filterMap f) := by
  rw [List.filterMap_eq_flatMap_toList, List.filterMap_eq_flatMap_toList]
  exact perm_flatMap_of_factors (fun a b hab => by rw [hf hab]) h

/-- The entries are not for the same station. -/
def Apart (x y : Bool × NlMsg) : Prop := ∀ mac, x.2.mac = some mac → y.2.mac ≠ some mac

instance : Std.Symm Apart where
  symm _ _ h mac hy hx := h mac hx hy

section Reordered

variable {dump dump' : List (Env × NlMsg)} (hperm : (dump.map entryKey).Perm (dump'.map entryKey))

include hperm

theorem dumpMacs_perm : (dumpMacs dump).Perm (dumpMacs dump') := by
  refine perm_filterMap_of_factors (fun p q hpq => ?_) hperm
  rw [(Prod.mk.inj hpq).2]

theorem entryNodes_perm (m : StaMgr) :
    ((dump.filterMap (entryNode m)).map reading).Perm
      ((dump'.filterMap (entryNode m)).map reading) := by
  rw [List.map_filterMap, List.map_filterMap]
  refine perm_filterMap_of_factors (fun p q hpq => ?_) hperm
  obtain ⟨hmem, hmsg⟩ := Prod.mk.inj hpq
  simp only [entryNode, hmem, hmsg]
  cases q.2.mac with
  | none => rfl
  | some mac =>
    by_cases hold : bssidText mac ∈ m.bssids ∨ q.1.malloc = false <;> simp [hold, reading]

theorem entryReports_eq (hdistinct : (dumpMacs dump).Nodup) (l : List Station) :
    dump.foldl (fun l p => entryReport l p.2) l = dump'.foldl (fun l p => entryReport l p.2) l := by
  have hkeys : ∀ dump : List (Env × NlMsg), dump.foldl (fun l p => entryReport l p.2) l =
      (dump.map entryKey).foldl (fun l k => entryReport l k.2) l := by
    intro dump
    rw [List.foldl_map]
    rfl
  have hpair : (dump.map entryKey).Pairwise Apart := by
    rw [List.pairwise_map]
    refine (List.pairwise_filterMap.mp hdistinct).imp (fun h mac hx hy => ?_)
    exact h mac hx mac hy rfl
  rw [hkeys dump, hkeys dump']
  refine hperm.foldl_eq' (fun x hx y hy z => ?_) l
  by_cases hxy : x = y
  · rw [hxy]
  · have hapart : Apart x y := hpair.forall hx hy hxy
    cases hmac : x.2.mac with
    | none => simp only [entryReport, hmac]
    | some mac =>
      cases hmac' : y.2.mac with
      | none => simp only [entryReport, hmac']
      | some mac' =>
        rw [entryReport_some hmac, entryReport_some hmac, entryReport_some hmac',
          entryReport_some hmac']
        exact KeyedList.update_comm (f := Station.report _ _) (g := Station.report _ _)
          (fun _ => rfl) (fun _ => rfl)
          (fun e => hapart mac hmac (hmac'.trans (congrArg some (bssidText_injective e)))) z

theorem signals_perm : (signals dump).Perm (signals dump') := by
  refine perm_filterMap_of_factors (fun p q hpq => ?_) hperm
  rw [(Prod.mk.inj hpq).2]

theorem rates_perm : (rates dump).Perm (rates dump') := by
  refine perm_filterMap_of_factors (fun p q hpq => ?_) hperm
  rw [(Prod.mk.inj hpq).2]

theorem entryOut_perm {γ : Type} {seen : Output → Option γ}
    (hadded : ∀ b now, seen (.added b now) = none) (m : StaMgr) :
    ((dump.flatMap (entryOut m)).filterMap seen).Perm
      ((dump'.flatMap (entryOut m)).filterMap seen) := by
  rw [List.filterMap_flatMap, List.filterMap_flatMap]
  refine perm_flatMap_of_factors (fun p q hpq => ?_) hperm
  obtain ⟨hmem, hmsg⟩ := Prod.mk.inj hpq
  simp only [entryOut, entryNode, hmem, hmsg]
  cases q.2.mac with
  | none => rfl
  | some mac =>
    cases hfind : WlanStaMgr.find (bssidText mac) m with
    | some sta => simp only [hfind]
    | none =>
      by_cases hold : bssidText mac ∈ m.bssids ∨ q.1.malloc = false <;>
        simp [hfind, hold, arrival, hadded]

/-- Before the removals. -/
theorem sameStations_entries (hdistinct : (dumpMacs dump).Nodup)
    (hdistinct' : (dumpMacs dump').Nodup) (d : Daemon) :
    SameStations (dump.foldl (fun s p => getLinkSignalCb p s) (d, [])).1.mgr
      (dump'.foldl (fun s p => getLinkSignalCb p s) (d, [])).1.mgr := by
  rw [foldl_getLinkSignalCb_mgr d hdistinct, foldl_getLinkSignalCb_mgr d hdistinct',
    entryReports_eq hperm hdistinct]
  refine ⟨?_, ?_, ?_⟩
  · simp only [List.map_append, List.map_reverse]
    refine List.Perm.append_right _ ?_
    exact ((List.reverse_perm _).trans (entryNodes_perm hperm d.mgr)).trans
      (List.reverse_perm _).symm
  · simp only [tcpCalls_append]
    exact (entryOut_perm hperm (fun _ _ => rfl) d.mgr).append_left _
  · simp only [ipcMessages_append]
    exact (entryOut_perm hperm (fun _ _ => rfl) d.mgr).append_left _

end Reordered

theorem filter_map_reading (keep : CString → Bool) (l : List Station) :
    (l.filter (fun st => keep st.bssid)).map reading =
      (l.map reading).filter (fun x => keep x.1) := by
  rw [List.filter_map]
  rfl

theorem SameStations.removeSta {m₁ m₂ : StaMgr} (h : SameStations m₁ m₂)
    {texts₁ texts₂ : List CString} (htexts : ∀ b, b ∈ texts₁ ↔ b ∈ texts₂) :
    SameStations (removeSta (some texts₁) texts₁.length m₁)
      (removeSta (some texts₂) texts₂.length m₂) := by
  have hstays : stays (some texts₂) texts₂.length = stays (some texts₁) texts₁.length := by
    funext b
    rw [stays_collected, stays_collected, decide_eq_decide]
    exact (htexts b).symm
  obtain ⟨new₁, hout₁, htcp₁, hipc₁⟩ := removeSta_outputs (some texts₁) texts₁.length m₁
  obtain ⟨new₂, hout₂, htcp₂, hipc₂⟩ := removeSta_outputs (some texts₂) texts₂.length m₂
  rw [hstays] at htcp₂ hipc₂
  have hkept : ∀ keep : CString → Bool,
      ((m₁.head.filter (fun st => keep st.bssid)).map reading).Perm
        ((m₂.head.filter (fun st => keep st.bssid)).map reading) := by
    intro keep
    rw [filter_map_reading, filter_map_reading]
    exact h.stations.filter _
  have hnil : ∀ {l₁ l₂ : List Station}, (l₁.map reading).Perm (l₂.map reading) →
      (l₁ = [] ↔ l₂ = []) := by
    intro l₁ l₂ hl
    rw [← List.length_eq_zero_iff, ← List.length_eq_zero_iff, ← List.length_map reading,
      hl.length_eq, List.length_map]
  refine ⟨?_, ?_, ?_⟩
  · rw [removeSta_eq, removeSta_eq, hstays]
    exact hkept _
  · rw [hout₁, hout₂, tcpCalls_append, tcpCalls_append, htcp₁, htcp₂]
    refine h.tcp.append ?_
    have hgone := (hkept (fun b => !stays (some texts₁) texts₁.length b)).map
      (fun x => (StaEvent.staLeave, x.1))
    rwa [List.map_map, List.map_map] at hgone
  · rw [hout₁, hout₂, ipcMessages_append, ipcMessages_append, hipc₁, hipc₂]
    refine h.ipc.append ?_
    simp only [ne_eq, hnil h.stations, hnil (hkept (stays (some texts₁) texts₁.length))]
    rfl

/-- The refresh runs in AP mode, both of its requests succeed, and the second one
delivers the entries of the dump. -/
structure SuccessfulDump (r : RefreshInput) (d : Daemon) (dump : List (Env × NlMsg)) : Prop where
  live : Live d
  ifAlloc : r.ifAlloc = true
  ifDone : ∃ err d₁, getInterface r (resetApInfo r.ifaddrs d) = some (err, d₁) ∧ 0 ≤ err ∧
    d₁.isApMode = true
  staAlloc : r.staAlloc = true
  staDone : ∃ err, transcript r.staExchange = some (err, dump) ∧ 0 ≤ err

theorem refresh_of_successful {r : RefreshInput} {d d₁ : Daemon} {dump : List (Env × NlMsg)}
    {err : Int} (h : SuccessfulDump r d dump)
    (hif : getInterface r (resetApInfo r.ifaddrs d) = some (err, d₁))
    (hsize : dump.length ≤ maxStas) :
    ∃ d', refresh r d = some d' ∧
      d'.apInfo = (dump.foldl (fun s p => getLinkSignalCb p s) (d₁, [])).1.apInfo ∧
      d'.mgr = removeSta (some (dumpTexts dump)) (dumpTexts dump).length
        (dump.foldl (fun s p => getLinkSignalCb p s) (d₁, [])).1.mgr := by
  obtain ⟨err', d₁', hif', herr, hmode⟩ := h.ifDone
  obtain ⟨rfl, rfl⟩ := Prod.mk.inj (Option.some.inj (hif.symm.trans hif'))
  obtain ⟨err₂, htrans, herr₂⟩ := h.staDone
  have hctx : (dump.foldl (fun s p => getLinkSignalCb p s) (d₁, [])).2 = dumpTexts dump := by
    rw [foldl_getLinkSignalCb_ctx, List.take_of_length_le]
    rw [dumpTexts, List.length_map]
    exact Nat.le_trans (List.length_filterMap_le _ dump) hsize
  have hsta := getStation_of_transcript (getInterface_change h.live hif).1 htrans
  refine ⟨_, refresh_of_refreshed (.dumped h.live h.ifAlloc hif herr hmode h.staAlloc hsta herr₂),
    rfl, ?_⟩
  rw [hctx]

theorem getLast_getD_iff {α : Type} {l l' : List α} (h : l.Perm l') (a : α) :
    l.getLast?.getD a = l'.getLast?.getD a ↔ l.getLast? = l'.getLast? := by
  by_cases hnil : l = []
  · have hnil' : l' = [] := List.length_eq_zero_iff.mp (h.length_eq ▸ by rw [hnil]; rfl)
    simp [hnil, hnil']
  · have hnil' : l' ≠ [] :=
      fun e => hnil (List.length_eq_zero_iff.mp (h.length_eq ▸ by rw [e]; rfl))
    rw [List.getLast?_eq_getLast_of_ne_nil hnil, List.getLast?_eq_getLast_of_ne_nil hnil']
    simp

/-- Two successful refreshes from one state, whose dumps have the same entries in
different orders, end with the same stations and have sent the same messages up to
order.  The access point is described in the same way exactly if the last signals and
the last rates of the two dumps agree. -/
theorem dump_order_iff {r : RefreshInput} {d : Daemon} {x : NlExchange (Env × NlMsg)}
    {dump dump' : List (Env × NlMsg)} (h : SuccessfulDump r d dump)
    (h' : SuccessfulDump { r with staExchange := x } d dump')
    (hperm : (dump.map entryKey).Perm (dump'.map entryKey)) (hdistinct : (dumpMacs dump).Nodup)
    (hsize : dump.length ≤ 64) :
    ∃ d₁ d₂, refresh r d = some d₁ ∧ refresh { r with staExchange := x } d = some d₂ ∧
      SameStations d₁.mgr d₂.mgr ∧
      (SameAp d₁.apInfo d₂.apInfo ↔ (signals dump).getLast? = (signals dump').getLast? ∧
        (rates dump).getLast? = (rates dump').getLast?) := by
  obtain ⟨err, d₀, hif, -, -⟩ := h.ifDone
  have hmacs : (dumpMacs dump).Perm (dumpMacs dump') := dumpMacs_perm hperm
  have hsize' : dump'.length ≤ 64 := by
    have hlength := hperm.length_eq
    rw [List.length_map, List.length_map] at hlength
    omega
  obtain ⟨d₁, hd₁, hinfo₁, hmgr₁⟩ := refresh_of_successful h hif hsize
  obtain ⟨d₂, hd₂, hinfo₂, hmgr₂⟩ := refresh_of_successful h' hif hsize'
  refine ⟨d₁, d₂, hd₁, hd₂, ?_, ?_⟩
  · rw [hmgr₁, hmgr₂]
    exact (sameStations_entries hperm hdistinct (hmacs.nodup_iff.mp hdistinct) d₀).removeSta
      (fun b => (hmacs.map bssidText).mem_iff)
  · rw [hinfo₁, hinfo₂, foldl_getLinkSignalCb_apInfo, foldl_getLinkSignalCb_apInfo,
      ← getLast_getD_iff (signals_perm hperm) d₀.apInfo.rssiDbm,
      ← getLast_getD_iff (rates_perm hperm) d₀.apInfo.phyRateMbps]
    exact ⟨fun hap => ⟨hap.rssiDbm, hap.phyRateMbps⟩,
      fun hlast => ⟨rfl, rfl, rfl, hlast.2, hlast.1⟩⟩

/-- A dump entry with a signal and nothing else. -/
def signalMsg (mac : Mac) (signal : UInt8) : NlMsg :=
  { stationMsg .newStation 3 mac with
    staInfo := .parsed { signal := some signal, txBitrate := .absent, txPackets := none,
                         rxPackets := none } }

theorem successfulDump_boot (dump : List (Env × NlMsg)) :
    SuccessfulDump (apRefresh 3 dump 0) (boot "wlan0".toList 3 28) dump where
  live := ⟨rfl, (by decide : (0 : Int) ≤ 28)⟩
  ifAlloc := rfl
  ifDone := ⟨0, _, rfl, Int.le_refl 0, rfl⟩
  staAlloc := rfl
  staDone := ⟨0, transcript_dumpExchange dump 0, Int.le_refl 0⟩

/-- Two stations at the same distance. -/
theorem dump_order_even :
    ∃ d₁ d₂,
      refresh (apRefresh 3 [(Env.at 9, signalMsg (localMac 1) 200),
        (Env.at 9, signalMsg (localMac 2) 200)] 0) (boot "wlan0".toList 3 28) = some d₁ ∧
      refresh (apRefresh 3 [(Env.at 9, signalMsg (localMac 2) 200),
        (Env.at 9, signalMsg (localMac 1) 200)] 0) (boot "wlan0".toList 3 28) = some d₂ ∧
      SameStations d₁.mgr d₂.mgr ∧ SameAp d₁.apInfo d₂.apInfo := by
  obtain ⟨d₁, d₂, hd₁, hd₂, hsame, hiff⟩ := dump_order_iff
    (successfulDump_boot [(Env.at 9, signalMsg (localMac 1) 200),
      (Env.at 9, signalMsg (localMac 2) 200)])
    (successfulDump_boot [(Env.at 9, signalMsg (localMac 2) 200),
      (Env.at 9, signalMsg (localMac 1) 200)])
    (List.Perm.swap _ _ _) (by decide) (by decide)
  exact ⟨d₁, d₂, hd₁, hd₂, hsame, hiff.mpr ⟨rfl, rfl⟩⟩

/-- Of a near and a far station the one that comes last is shown. -/
theorem not_sameAp_near_far :
    ∃ d₁ d₂,
      refresh (apRefresh 3 [(Env.at 9, signalMsg (localMac 1) 216),
        (Env.at 9, signalMsg (localMac 2) 186)] 0) (boot "wlan0".toList 3 28) = some d₁ ∧
      refresh (apRefresh 3 [(Env.at 9, signalMsg (localMac 2) 186),
        (Env.at 9, signalMsg (localMac 1) 216)] 0) (boot "wlan0".toList 3 28) = some d₂ ∧
      d₁.apInfo.rssiDbm = -70 ∧ d₂.apInfo.rssiDbm = -40 ∧ ¬SameAp d₁.apInfo d₂.apInfo :=
  ⟨_, _, rfl, rfl, by decide, by decide, fun hap => absurd hap.rssiDbm (by decide)⟩

end Wlinkd
end LinuxLab
