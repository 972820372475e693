import LinuxLab.Wlinkd.Scenario

/-!
# The station list is a finite map

The list is searched by the printed form of an address.  In every state that the
daemon reaches the strings in the list are distinct and each is the text of an
address (`WellFormed`), so the list stands for a finite map from addresses to
stations (`stationMap`), and the manager's functions are the map's operations.
The time stamped on a station is read off the log: it is the time of the last
`Added station` line that no later line takes back (`assocOf`).
-/

namespace LinuxLab
namespace Wlinkd

open Relation Lib WlanUtils WlanNl80211

instance : Nonempty Mac := ⟨⟨0, 0, 0, 0, 0, 0⟩⟩

/-- The strings are distinct texts of addresses. -/
structure WellFormed (m : StaMgr) : Prop where
  distinct : KeyedList.Distinct Station.bssid m.head
  rendered : ∀ b ∈ m.bssids, ∃ mac, b = bssidText mac

theorem wellFormed_init : WellFormed WlanStaMgr.init :=
  ⟨List.nodup_nil, fun b hb => by simp [StaMgr.bssids, WlanStaMgr.init] at hb⟩

theorem wellFormed_clear (m : StaMgr) : WellFormed (WlanStaMgr.clear m) :=
  ⟨List.nodup_nil, fun b hb => by simp [StaMgr.bssids, WlanStaMgr.clear] at hb⟩

theorem wellFormed_grow {m m' : StaMgr} (h : WellFormed m) (hg : Grow m m') : WellFormed m' := by
  cases hg with
  | quiet => exact h
  | join mac st hst hnew =>
    refine ⟨List.nodup_cons.mpr ⟨hnew, h.distinct⟩, fun b hb => ?_⟩
    rcases List.mem_cons.mp hb with rfl | hb
    · exact ⟨mac, hst⟩
    · exact h.rendered b hb
  | seen b r p busy htracked =>
    have hmap := bssids_reportTo b r p m.head
    refine ⟨?_, fun c hc => ?_⟩
    · rw [KeyedList.Distinct, hmap]
      exact h.distinct
    · rw [StaMgr.bssids, hmap] at hc
      exact h.rendered c hc

theorem wellFormed_change {m m' : StaMgr} (h : WellFormed m) (hc : Change m m') :
    WellFormed m' := by
  cases hc with
  | grow hg => exact wellFormed_grow h hg
  | del mac =>
    by_cases htracked : bssidText mac ∈ m.bssids
    · rw [delStationEvent_tracked htracked]
      exact ⟨h.distinct.unlink _,
        fun b hb => h.rendered b ((KeyedList.mem_map_unlink h.distinct).mp hb).2⟩
    · rw [delStationEvent_untracked htracked]
      exact ⟨h.distinct, h.rendered⟩
  | remove bssids count =>
    rw [removeSta_eq]
    exact ⟨h.distinct.filter _, fun b hb => h.rendered b (mem_bssids_filter.mp hb).1⟩

/-! ## The time of association -/

/-- How one output changes the time that the log gives for a string. -/
def assocStep (b : CString) (t : Option Int) : Output → Option Int
  | .added bssid now => if bssid = b then some now else t
  | .removed bssid => if bssid = b then none else t
  | .cleared bssid => if bssid = b then none else t
  | .tcpPush _ _ => t
  | .ipcPush _ => t

/-- The time in the last `Added station` line for the string, unless a later line
says that the node was removed or freed. -/
def assocOf (b : CString) (out : List Output) : Option Int := out.foldl (assocStep b) none

theorem assocOf_append (b : CString) (out new : List Output) :
    assocOf b (out ++ new) = new.foldl (assocStep b) (assocOf b out) := List.foldl_append

def Stamped (m : StaMgr) : Prop :=
  ∀ b, (WlanStaMgr.find b m).map Station.assocTime = assocOf b m.out

/-- Lines that take back the time of one station each take back the times of all. -/
theorem assocStep_flatMap {b : CString} {lines : Station → List Output}
    (hlines : ∀ st t, (lines st).foldl (assocStep b) t = if st.bssid = b then none else t)
    (l : List Station) (t : Option Int) :
    (l.flatMap lines).foldl (assocStep b) t = if b ∈ l.map Station.bssid then none else t := by
  induction l generalizing t with
  | nil => rfl
  | cons st l ih =>
    rw [List.flatMap_cons, List.foldl_append, ih, hlines, List.map_cons]
    by_cases hb : st.bssid = b
    · simp [hb]
    · have hb' : ¬b = st.bssid := fun e => hb e.symm
      simp [hb, hb']

theorem assocStep_departures (b : CString) (l : List Station) (t : Option Int) :
    (l.flatMap departure).foldl (assocStep b) t =
      if b ∈ l.map Station.bssid then none else t :=
  assocStep_flatMap (fun _ _ => rfl) l t

theorem assocStep_cleared (b : CString) (l : List Station) (t : Option Int) :
    (l.map (fun curr => Output.cleared curr.bssid)).foldl (assocStep b) t =
      if b ∈ l.map Station.bssid then none else t := by
  rw [List.map_eq_flatMap]
  exact assocStep_flatMap (fun _ _ => rfl) l t

theorem assocStep_push (b : CString) (c : Prop) [Decidable c] (e : StaEvent) (t : Option Int) :
    (if c then [Output.ipcPush e] else []).foldl (assocStep b) t = t := by
  by_cases hc : c <;> simp [hc, assocStep]

theorem stamped_grow {m m' : StaMgr} (h : Stamped m) (hg : Grow m m') : Stamped m' := by
  cases hg with
  | quiet => exact h
  | join mac st hst hnew =>
    intro b
    rw [assocOf_append, ← h b]
    by_cases hb : st.bssid = b
    · simp [WlanStaMgr.find, KeyedList.lookup, arrival, assocStep, hb]
    · simp [WlanStaMgr.find, KeyedList.lookup, arrival, assocStep, hb]
  | seen c r p busy htracked =>
    intro b
    rw [assocOf_append, assocStep_push, ← h b]
    by_cases hb : b = c
    · subst hb
      rw [find_reportTo_self, Option.map_map]
      rfl
    · rw [find_reportTo_ne hb]

theorem stamped_change {m m' : StaMgr} (hw : WellFormed m) (h : Stamped m) (hc : Change m m') :
    Stamped m' := by
  cases hc with
  | grow hg => exact stamped_grow h hg
  | del mac =>
    intro b
    by_cases htracked : bssidText mac ∈ m.bssids
    · rw [delStationEvent_tracked htracked, assocOf_append, assocOf_append, assocStep_push, ← h b]
      by_cases hb : b = bssidText mac
      · subst hb
        simp [WlanStaMgr.find, KeyedList.lookup_unlink_self hw.distinct, assocStep]
      · have hb' : ¬bssidText mac = b := fun e => hb e.symm
        simp [WlanStaMgr.find, KeyedList.lookup_unlink_ne hb, assocStep, hb']
    · rw [delStationEvent_untracked htracked, assocOf_append, assocOf_append, assocStep_push, ← h b]
      rfl
  | remove bssids count =>
    intro b
    rw [removeSta_eq, assocOf_append, assocOf_append, assocStep_push, assocStep_departures, ← h b]
    have hgone := mem_bssids_filter (p := fun c => !stays bssids count c) (l := m.head) (b := b)
    rw [WlanStaMgr.find, KeyedList.lookup_filter]
    by_cases hstay : stays bssids count b = true
    · rw [if_pos hstay, if_neg (fun hb => by simpa [hstay] using (hgone.mp hb).2), WlanStaMgr.find]
    · rw [if_neg hstay]
      by_cases hb : b ∈ m.head.map Station.bssid
      · rw [if_pos (hgone.mpr ⟨hb, by simpa using hstay⟩)]
        rfl
      · rw [if_neg (fun hb' => hb (hgone.mp hb').1), WlanStaMgr.find,
          KeyedList.lookup_eq_none.mpr hb]

theorem stamped_clear {m : StaMgr} (h : Stamped m) : Stamped (WlanStaMgr.clear m) := by
  intro b
  rw [WlanStaMgr.clear, assocOf_append, assocStep_cleared, ← h b]
  by_cases hb : b ∈ m.head.map Station.bssid
  · rw [if_pos hb]
    rfl
  · rw [if_neg hb, WlanStaMgr.find, WlanStaMgr.find, KeyedList.lookup_eq_none.mpr hb]
    rfl

/-! ## The map -/

noncomputable def macOf (b : CString) : Mac := Function.invFun bssidText b

noncomputable def stationMap (m : StaMgr) : Finmap (fun _ : Mac => Station) :=
  KeyedList.toMap (fun st => macOf st.bssid) m.head

def insertIfAbsent (mac : Mac) (st : Station) (f : Finmap (fun _ : Mac => Station)) :
    Finmap (fun _ : Mac => Station) :=
  if mac ∈ f then f else f.insert mac st

theorem macOf_bssidText (mac : Mac) : macOf (bssidText mac) = mac :=
  Function.leftInverse_invFun bssidText_injective mac

theorem WellFormed.bssid_eq {m : StaMgr} (h : WellFormed m) :
    ∀ st ∈ m.head, st.bssid = bssidText (macOf st.bssid) := by
  intro st hst
  obtain ⟨mac, hmac⟩ := h.rendered st.bssid (List.mem_map_of_mem hst)
  rw [hmac, macOf_bssidText]

theorem find_eq_lookup {m : StaMgr} (h : WellFormed m) (mac : Mac) :
    WlanStaMgr.find (bssidText mac) m = (stationMap m).lookup mac := by
  rw [WlanStaMgr.find, stationMap, KeyedList.lookup_toMap,
    KeyedList.lookup_encode bssidText_injective h.bssid_eq]

theorem mem_stationMap {m : StaMgr} (h : WellFormed m) (mac : Mac) :
    mac ∈ stationMap m ↔ bssidText mac ∈ m.bssids := by
  rw [← Finmap.lookup_isSome, ← find_eq_lookup h, WlanStaMgr.find_isSome]

theorem WellFormed.distinct_mac {m : StaMgr} (h : WellFormed m) :
    KeyedList.Distinct (fun st => macOf st.bssid) m.head :=
  KeyedList.distinct_index h.bssid_eq h.distinct

theorem count_eq_card {m : StaMgr} (h : WellFormed m) :
    WlanStaMgr.count m = (stationMap m).keys.card :=
  (KeyedList.card_toMap h.distinct_mac).symm

theorem add_eq_insert {m : StaMgr} (h : WellFormed m) (env : Env) (mac : Mac) :
    stationMap (WlanStaMgr.add env (bssidText mac) m).2 =
      if env.malloc then insertIfAbsent mac (WlanStaMgr.newStation mac env.now) (stationMap m)
      else stationMap m := by
  by_cases htracked : bssidText mac ∈ m.bssids
  · rw [WlanStaMgr.add_tracked htracked, insertIfAbsent,
      if_pos ((mem_stationMap h mac).mpr htracked)]
    simp
  · cases hmem : env.malloc with
    | false => rw [WlanStaMgr.add_failed htracked hmem]; simp
    | true =>
      rw [WlanStaMgr.add_fresh htracked hmem, insertIfAbsent,
        if_neg (fun hmac => htracked ((mem_stationMap h mac).mp hmac)), if_pos rfl]
      have hkey : macOf (WlanStaMgr.newStation mac env.now).bssid = mac := macOf_bssidText mac
      rw [stationMap, KeyedList.toMap_cons, hkey, stationMap]

theorem remove_eq_erase {m : StaMgr} (h : WellFormed m) (mac : Mac) :
    stationMap (WlanStaMgr.remove (bssidText mac) m).2 = (stationMap m).erase mac := by
  by_cases htracked : bssidText mac ∈ m.bssids
  · rw [WlanStaMgr.remove_tracked htracked, stationMap,
      KeyedList.unlink_encode bssidText_injective h.bssid_eq,
      KeyedList.toMap_unlink h.distinct_mac, stationMap]
  · rw [WlanStaMgr.remove_untracked htracked]
    refine (Finmap.ext_lookup (fun mac' => ?_)).symm
    by_cases hmac : mac' = mac
    · subst hmac
      rw [Finmap.lookup_erase, ← find_eq_lookup h, WlanStaMgr.find_eq_none.mpr htracked]
    · exact Finmap.lookup_erase_ne hmac

theorem add_result {m : StaMgr} (h : WellFormed m) (env : Env) (mac : Mac) :
    (WlanStaMgr.add env (bssidText mac) m).1 =
      if mac ∈ stationMap m then 0 else if env.malloc then 1 else -1 := by
  by_cases htracked : bssidText mac ∈ m.bssids
  · rw [WlanStaMgr.add_tracked htracked, if_pos ((mem_stationMap h mac).mpr htracked)]
  · rw [if_neg (fun hmac => htracked ((mem_stationMap h mac).mp hmac))]
    cases hmem : env.malloc with
    | false => rw [WlanStaMgr.add_failed htracked hmem]; rfl
    | true => rw [WlanStaMgr.add_fresh htracked hmem]; rfl

theorem remove_result {m : StaMgr} (h : WellFormed m) (mac : Mac) :
    (WlanStaMgr.remove (bssidText mac) m).1 = if mac ∈ stationMap m then 1 else 0 := by
  by_cases htracked : bssidText mac ∈ m.bssids
  · rw [WlanStaMgr.remove_tracked htracked, if_pos ((mem_stationMap h mac).mpr htracked)]
  · rw [WlanStaMgr.remove_untracked htracked,
      if_neg (fun hmac => htracked ((mem_stationMap h mac).mp hmac))]

/-- The manager's functions are the operations of the finite map, and the time of
every station is the one that the log gives. -/
structure RefinesMap (m : StaMgr) : Prop where
  distinct : (m.head.map Station.bssid).Nodup
  rendered : ∀ st ∈ m.head, ∃ mac, st.bssid = bssidText mac ∧ st.bssid.length = 17 ∧
    ∀ c ∈ st.bssid, c.isDigit = true ∨ c.isUpper = true ∨ c = ':'
  find : ∀ mac, WlanStaMgr.find (bssidText mac) m = (stationMap m).lookup mac
  count : WlanStaMgr.count m = (stationMap m).keys.card
  add : ∀ env mac, stationMap (WlanStaMgr.add env (bssidText mac) m).2 =
    if env.malloc then insertIfAbsent mac (WlanStaMgr.newStation mac env.now) (stationMap m)
    else stationMap m
  added : ∀ env mac, (WlanStaMgr.add env (bssidText mac) m).1 =
    if mac ∈ stationMap m then 0 else if env.malloc then 1 else -1
  remove : ∀ mac, stationMap (WlanStaMgr.remove (bssidText mac) m).2 = (stationMap m).erase mac
  removed : ∀ mac, (WlanStaMgr.remove (bssidText mac) m).1 = if mac ∈ stationMap m then 1 else 0
  assoc : ∀ st ∈ m.head, assocOf st.bssid m.out = some st.assocTime

theorem refinesMap_of_wellFormed {m : StaMgr} (hw : WellFormed m) (hs : Stamped m) :
    RefinesMap m where
  distinct := hw.distinct
  rendered := by
    intro st hst
    obtain ⟨mac, hmac⟩ := hw.rendered st.bssid (List.mem_map_of_mem hst)
    refine ⟨mac, hmac, ?_, ?_⟩
    · rw [hmac, bssidText_length]
    · rw [hmac]
      exact bssidText_upper mac
  find := find_eq_lookup hw
  count := count_eq_card hw
  add := add_eq_insert hw
  added := add_result hw
  remove := remove_eq_erase hw
  removed := remove_result hw
  assoc := by
    intro st hst
    rw [← hs st.bssid, WlanStaMgr.find, KeyedList.lookup_of_mem hw.distinct hst, Option.map_some]

/-- A tracked station stays, with its time, until a line says that it was removed. -/
def Kept (b : CString) (t : Int) (out : List Output) (m : StaMgr) : Prop :=
  ∃ new, m.out = out ++ new ∧
    (.removed b ∈ new ∨ ∃ st ∈ m.head, st.bssid = b ∧ st.assocTime = t)

/-- A line that is in the log stays there, so only what a change adds matters. -/
theorem Kept.later {b : CString} {t : Int} {out more : List Output} {m m' : StaMgr}
    (h : Kept b t out m) (hmore : m'.out = m.out ++ more)
    (hchange : .removed b ∈ more ∨ ((∃ st ∈ m.head, st.bssid = b ∧ st.assocTime = t) →
      ∃ st ∈ m'.head, st.bssid = b ∧ st.assocTime = t)) : Kept b t out m' := by
  obtain ⟨new, hout, hkept⟩ := h
  refine ⟨new ++ more, by rw [hmore, hout, List.append_assoc], ?_⟩
  rcases hkept with hgone | hst
  · exact .inl (List.mem_append_left _ hgone)
  · rcases hchange with hgone | hchange
    · exact .inl (List.mem_append_right _ hgone)
    · exact .inr (hchange hst)

theorem kept_change {b : CString} {t : Int} {out : List Output} {m m' : StaMgr}
    (h : Kept b t out m) (hc : Change m m') : Kept b t out m' := by
  cases hc with
  | grow hg =>
    cases hg with
    | quiet => exact h
    | join mac st hst hnew =>
      refine h.later rfl (.inr ?_)
      rintro ⟨st', hst', hb, ht⟩
      exact ⟨st', List.mem_cons_of_mem _ hst', hb, ht⟩
    | seen c r p busy htracked =>
      refine h.later rfl (.inr ?_)
      rintro ⟨st', hst', hb, ht⟩
      rcases KeyedList.mem_update (Station.report r p) (k := c) hst' with hmem | hmem
      · exact ⟨st', hmem, hb, ht⟩
      · exact ⟨Station.report r p st', hmem, hb, ht⟩
  | del mac =>
    by_cases htracked : bssidText mac ∈ m.bssids
    · rw [delStationEvent_tracked htracked]
      refine h.later (List.append_assoc _ _ _) ?_
      by_cases hb : bssidText mac = b
      · exact .inl (by simp [hb])
      · refine .inr ?_
        rintro ⟨st', hst', hb', ht⟩
        exact ⟨st', KeyedList.mem_unlink hst' (fun e => hb (e.symm.trans hb')), hb', ht⟩
    · rw [delStationEvent_untracked htracked]
      exact h.later (List.append_assoc _ _ _) (.inr id)
  | remove bssids count =>
    rw [removeSta_eq]
    refine h.later (List.append_assoc _ _ _) ?_
    by_cases hstay : stays bssids count b = true
    · refine .inr ?_
      rintro ⟨st', hst', rfl, ht⟩
      exact ⟨st', List.mem_filter.mpr ⟨hst', hstay⟩, rfl, ht⟩
    · by_cases hb : ∃ st ∈ m.head, st.bssid = b
      · obtain ⟨st, hst, rfl⟩ := hb
        refine .inl (List.mem_append_left _ (List.mem_flatMap.mpr ⟨st, ?_, by simp [departure]⟩))
        exact List.mem_filter.mpr ⟨hst, by simpa using hstay⟩
      · refine .inr ?_
        rintro ⟨st, hst, hb', -⟩
        exact absurd ⟨st, hst, hb'⟩ hb

/-- In every state of a run from the empty list, and after the list is freed at the
end, the list refines the finite map from addresses to stations.  The text is an
injective image of the addresses, and a station that is tracked keeps its time of
association through every further run until it is removed. -/
theorem station_list_refines_map {d d' : Daemon} {xs : List MainStep}
    (hinit : d.mgr = WlanStaMgr.init) (hrun : exec mainStep d xs = some d') :
    Function.Injective bssidText ∧ RefinesMap d'.mgr ∧ RefinesMap (WlanStaMgr.clear d'.mgr) ∧
      ∀ ys d'', exec mainStep d' ys = some d'' → ∀ st ∈ d'.mgr.head,
        ∃ new, d''.mgr.out = d'.mgr.out ++ new ∧ (.removed st.bssid ∉ new →
          ∃ st' ∈ d''.mgr.head, st'.bssid = st.bssid ∧ st'.assocTime = st.assocTime) := by
  have hinv : WellFormed d'.mgr ∧ Stamped d'.mgr := by
    refine run_invariant (I := fun m => WellFormed m ∧ Stamped m) (fun m m' hm hc => ?_) ?_ hrun
    · exact ⟨wellFormed_change hm.1 hc, stamped_change hm.1 hm.2 hc⟩
    · rw [hinit]
      exact ⟨wellFormed_init, fun b => rfl⟩
  refine ⟨bssidText_injective, refinesMap_of_wellFormed hinv.1 hinv.2,
    refinesMap_of_wellFormed (wellFormed_clear d'.mgr) (stamped_clear hinv.2), ?_⟩
  intro ys d'' hys st hst
  have hkept : Kept st.bssid st.assocTime d'.mgr.out d''.mgr :=
    run_invariant (I := Kept st.bssid st.assocTime d'.mgr.out) (fun m m' hm hc => kept_change hm hc)
      ⟨[], by simp, .inr ⟨st, hst, rfl, rfl⟩⟩ hys
  obtain ⟨new, hout, hkept⟩ := hkept
  exact ⟨new, hout, fun hgone => hkept.resolve_left hgone⟩

/-- The first of two stations leaves, and the second one keeps its time of association. -/
theorem station_list_refines_map_twoJoin :
    ∃ d' d'', exec mainStep (boot "wlan0".toList 3 28) twoJoin = some d' ∧
      RefinesMap d'.mgr ∧ RefinesMap (WlanStaMgr.clear d'.mgr) ∧
      exec mainStep d' [leaves 10 1, joins 11 2] = some d'' ∧
      ∃ st ∈ d''.mgr.head, st.bssid = bssidText (localMac 2) ∧ st.assocTime = 8 := by
  obtain ⟨d', hrun⟩ : ∃ d', exec mainStep (boot "wlan0".toList 3 28) twoJoin = some d' := ⟨_, rfl⟩
  obtain ⟨-, hmap, hclear, hstays⟩ := station_list_refines_map rfl hrun
  obtain ⟨d'', hback⟩ : ∃ d'', exec mainStep d' [leaves 10 1, joins 11 2] = some d'' := by
    obtain rfl := Option.some.inj hrun
    exact ⟨_, rfl⟩
  obtain ⟨st, hst, hbssid, htime⟩ :
      ∃ st ∈ d'.mgr.head, st.bssid = bssidText (localMac 2) ∧ st.assocTime = 8 := by
    obtain rfl := Option.some.inj hrun
    decide +kernel
  have hnotRemoved : .removed (bssidText (localMac 2)) ∉ d''.mgr.out := by
    obtain rfl := Option.some.inj hrun
    obtain rfl := Option.some.inj hback
    decide +kernel
  obtain ⟨new, hout, hkept⟩ := hstays _ d'' hback st hst
  rw [hbssid, htime] at hkept
  refine ⟨d', d'', hrun, hmap, hclear, hback, hkept (fun hmem => hnotRemoved ?_)⟩
  rw [hout]
  exact List.mem_append_right _ hmem

end Wlinkd
end LinuxLab
