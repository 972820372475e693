import LinuxLab.Wlinkd.Ipc
import LinuxLab.Wlinkd.Refresh

/-!
# What the readers of the status are told

The status text reaches its readers through buffers of three sizes: the TCP client's
of 2048 bytes, the reply of `ipc_handler` of 4096 bytes, and the one read of at most
1023 bytes that the `wlan` command makes of that reply.  None of the sizes comes from
the number of stations, and each reader sees the whole text exactly if it fits.

The other question a reader asks is whether the interface is an access point.  The
answer is reset before the kernel is asked, while the list is only emptied once the
kernel has answered.
-/

namespace LinuxLab
namespace Wlinkd

open Lib WlanUtils WlanLibnl WlanNl80211 WlanCore

/-! ## The length of the status -/

/-- The reply of `client_handler` to `status`; `resp` has the cells of its buffer. -/
def tcpStatus (d : Daemon) (resp : List Char) : CString := stringAt (buildStatus d resp 2048)

/-- The reply of `ipc_handler` to `WLAN_DUMP`. -/
def ipcDump (d : Daemon) : CString := Ipc.reply d "WLAN_DUMP".toList

/-- What `toy_wlan` prints: one `read` of the reply into a buffer of zeros. -/
def toyWlan (reply : CString) : CString :=
  stringAt (store (List.replicate 1024 nul) 0 (reply.take 1023))

/-- The text has the two headers, which say how many stations there are, and then the
record of each station in list order. -/
def Complete (d : Daemon) (text : CString) : Prop :=
  text = apSection d.apInfo (WlanStaMgr.count d.mgr) ++ staHeader (WlanStaMgr.count d.mgr) ++
    d.mgr.head.flatMap record

/-- The texts of a state are C strings: none has a NUL. -/
structure CStrings (d : Daemon) : Prop where
  mode : nul ∉ d.apInfo.mode
  iface : nul ∉ d.apInfo.iface
  ip : nul ∉ d.apInfo.ip
  channel : nul ∉ d.apInfo.channel
  bssids : ∀ st ∈ d.mgr.head, nul ∉ st.bssid

theorem nul_notMem_flatten {pieces : List CString} (h : ∀ s ∈ pieces, nul ∉ s) :
    nul ∉ pieces.flatten := by
  rw [List.mem_flatten]
  rintro ⟨s, hs, hnul⟩
  exact h s hs hnul

theorem nul_notMem_apSection {info : ApInfo} (hmode : nul ∉ info.mode) (hiface : nul ∉ info.iface)
    (hip : nul ∉ info.ip) (hchannel : nul ∉ info.channel) (count : Nat) :
    nul ∉ apSection info count := by
  unfold apSection
  refine nul_notMem_flatten ?_
  simp only [List.forall_mem_cons, List.not_mem_nil, false_implies, implies_true, and_true, hmode,
    hiface, hip, hchannel, nul_notMem_formatSigned, not_false_eq_true, true_and]
  decide

theorem nul_notMem_staHeader (count : Nat) : nul ∉ staHeader count := by
  unfold staHeader
  refine nul_notMem_flatten ?_
  simp only [List.forall_mem_cons, List.not_mem_nil, false_implies, implies_true, and_true,
    nul_notMem_formatSigned, not_false_eq_true, true_and]
  decide

theorem nul_notMem_record {st : Station} (h : nul ∉ st.bssid) : nul ∉ record st := by
  unfold record
  refine nul_notMem_flatten ?_
  simp only [List.forall_mem_cons, List.not_mem_nil, false_implies, implies_true, and_true, h,
    nul_notMem_formatSigned, nul_notMem_formatUnsigned, not_false_eq_true, true_and]
  decide

theorem CStrings.statusText {d : Daemon} (h : CStrings d) : nul ∉ statusText d := by
  unfold WlanCore.statusText
  rw [List.mem_append, List.mem_append, not_or, not_or]
  refine ⟨⟨nul_notMem_apSection h.mode h.iface h.ip h.channel _, nul_notMem_staHeader _⟩, ?_⟩
  rw [List.mem_flatMap]
  rintro ⟨st, hst, hnul⟩
  exact nul_notMem_record (h.bssids st hst) hnul

theorem CStrings.stringAt_buildStatus {d : Daemon} (h : CStrings d) (mem : List Char) {size : Nat}
    (hpos : 0 < size) (hmax : size ≤ intMax) :
    stringAt (buildStatus d mem size) = (WlanCore.statusText d).take (size - 1) := by
  rw [buildStatus_eq d mem hpos hmax, stringAt_store_zero]
  exact stringAt_of_notMem (fun hnul => h.statusText (List.mem_of_mem_take hnul))

theorem CStrings.tcpStatus {d : Daemon} (h : CStrings d) (resp : List Char) :
    tcpStatus d resp = (WlanCore.statusText d).take 2047 :=
  h.stringAt_buildStatus resp (by decide) (by decide)

theorem CStrings.ipcDump {d : Daemon} (h : CStrings d) :
    ipcDump d = (WlanCore.statusText d).take 4095 :=
  h.stringAt_buildStatus _ (by decide) (by decide)

theorem CStrings.toyWlan {d : Daemon} (h : CStrings d) :
    toyWlan (Wlinkd.ipcDump d) = (WlanCore.statusText d).take 1023 := by
  rw [h.ipcDump, Wlinkd.toyWlan, stringAt_store_zero, List.take_take]
  exact stringAt_of_notMem (fun hnul => h.statusText (List.mem_of_mem_take hnul))

theorem complete_take_iff (d : Daemon) (n : Nat) :
    Complete d ((statusText d).take n) ↔ (statusText d).length ≤ n :=
  List.take_eq_self_iff (statusText d)

/-- Each of the three readers of the status gets the record of every station exactly if
the text is not longer than what its buffer leaves for it. -/
theorem status_complete_iff {d : Daemon} (htexts : CStrings d) (resp : List Char) :
    (Complete d (tcpStatus d resp) ↔ (statusText d).length ≤ 2047) ∧
      (Complete d (ipcDump d) ↔ (statusText d).length ≤ 4095) ∧
      (Complete d (toyWlan (ipcDump d)) ↔ (statusText d).length ≤ 1023) := by
  rw [htexts.tcpStatus, htexts.toyWlan, htexts.ipcDump]
  exact ⟨complete_take_iff d 2047, complete_take_iff d 4095, complete_take_iff d 1023⟩

theorem cStrings_serving : CStrings serving where
  mode := by decide
  iface := by decide
  ip := by decide
  channel := by decide
  bssids := by decide

/-- With one station everybody sees everything. -/
theorem status_complete_serving :
    Complete serving (tcpStatus serving []) ∧ Complete serving (ipcDump serving) ∧
      Complete serving (toyWlan (ipcDump serving)) := by
  have hlength : (statusText serving).length ≤ 1023 := by decide +kernel
  obtain ⟨htcp, hipc, hcli⟩ := status_complete_iff cStrings_serving []
  exact ⟨htcp.mpr (by omega), hipc.mpr (by omega), hcli.mpr hlength⟩

/-! A full list of busy stations is too long for each of the buffers. -/

theorem record_length (st : Station) :
    (record st).length = 36 + st.bssid.length + (formatSigned st.rssi).length +
      (formatUnsigned st.privPkts).length + (formatSigned st.assocTime).length := by
  have hbssid : "-----\nBSSID=".toList.length = 12 := rfl
  have hrssi : "\nRSSI=".toList.length = 6 := rfl
  have hpkts : "\nPKTS=".toList.length = 6 := rfl
  have hconnected : "\nCONNECTED=".toList.length = 11 := rfl
  have hend : "\n".toList.length = 1 := rfl
  unfold record
  simp only [List.length_flatten, List.map_cons, List.map_nil, List.sum_cons, List.sum_nil,
    hbssid, hrssi, hpkts, hconnected, hend]
  omega

theorem formatSigned_length_pos (n : Int) : 0 < (formatSigned n).length := by
  unfold formatSigned
  split
  · exact Nat.succ_pos _
  · exact Nat.length_toDigits_pos

theorem records_length_ge {n : Nat} {l : List Station} (h : ∀ st ∈ l, n ≤ (record st).length) :
    l.length * n ≤ (l.flatMap record).length := by
  induction l with
  | nil => simp
  | cons st l ih =>
    have hst := h st List.mem_cons_self
    have hrest := ih (fun st' hst' => h st' (List.mem_cons_of_mem st hst'))
    rw [List.flatMap_cons, List.length_append, List.length_cons, Nat.succ_mul]
    omega

theorem not_complete_of_length {d : Daemon} {text : CString}
    (h : text.length < (statusText d).length) : ¬Complete d text := by
  intro hcomplete
  have heq : text = statusText d := hcomplete
  rw [heq] at h
  exact Nat.lt_irrefl _ h

theorem stringAt_buildStatus_length (d : Daemon) (mem : List Char) {size : Nat} (hpos : 0 < size)
    (hmax : size ≤ intMax) : (stringAt (buildStatus d mem size)).length ≤ size - 1 := by
  rw [buildStatus_eq d mem hpos hmax, stringAt_store_zero]
  exact Nat.le_trans (stringAt_length_le _) (List.length_take_le _ _)

/-- Sixty-four stations that have sent and received as much as the counters can say. -/
def busyCrowd : List (Env × NlMsg) :=
  (List.range 64).map (fun i =>
    (Env.at 1700000000,
      { stationMsg .newStation 3 (localMac (UInt8.ofNat i)) with
        staInfo := .parsed { signal := some 206, txBitrate := .absent,
                             txPackets := some 4294967295, rxPackets := some 4294967295 } }))

theorem dumpMacs_busyCrowd :
    dumpMacs busyCrowd = (List.range 64).map (fun i => localMac (UInt8.ofNat i)) := rfl

theorem record_length_busy {st : Station} (hrssi : st.rssi = -50)
    (hpkts : st.privPkts = 8589934590) (hbssid : st.bssid.length = 17) :
    67 ≤ (record st).length := by
  have htime := formatSigned_length_pos st.assocTime
  have hrssi' : (formatSigned (-50)).length = 3 := by decide
  have hpkts' : (formatUnsigned 8589934590).length = 10 := by decide
  rw [record_length, hrssi, hpkts, hbssid, hrssi', hpkts']
  omega

theorem refresh_busyCrowd :
    ∃ d', refresh (apRefresh 3 busyCrowd 0) (boot "wlan0".toList 3 28) = some d' ∧
      WlanStaMgr.count d'.mgr = 64 ∧ 4095 < (statusText d').length := by
  have hdump : CompletedDump (apRefresh 3 busyCrowd 0) (boot "wlan0".toList 3 28) busyCrowd := by
    refine completedDump_boot WlanStaMgr.init ?_ ?_
    · rw [dumpMacs_busyCrowd]
      exact nodup_localMacs (by decide)
    · intro p hp
      obtain ⟨i, -, rfl⟩ := List.mem_map.mp hp
      rfl
  obtain ⟨d', m₂, bssids, hrefresh, hmgr, hdumped, hbssids⟩ := refresh_of_completed hdump
  have hrec : Reconciled WlanStaMgr.init busyCrowd d'.mgr := by
    rw [hmgr]
    exact (reconciled_iff hdumped hdump.distinct hbssids).mpr (by rw [dumpMacs_busyCrowd]; rfl)
  have hnodup : d'.mgr.bssids.Nodup := hrec.distinct List.nodup_nil
  have hperm : d'.mgr.bssids.Perm (dumpTexts busyCrowd) :=
    (List.perm_ext_iff_of_nodup hnodup (hdump.distinct.map bssidText_injective)).mpr hrec.tracked
  have hcount : d'.mgr.head.length = 64 := by
    have hlength := hperm.length_eq
    rw [StaMgr.bssids, List.length_map] at hlength
    rw [hlength]
    rfl
  have hrecord : ∀ st ∈ d'.mgr.head, 67 ≤ (record st).length := by
    intro st hst
    obtain ⟨mac, hmac, hbssid⟩ :=
      List.mem_map.mp ((hrec.tracked st.bssid).mp (List.mem_map_of_mem hst))
    obtain ⟨p, hp, hpmac⟩ := List.mem_filterMap.mp hmac
    obtain ⟨st', hst', hrssi, hpkts⟩ := hrec.reported p hp mac hpmac
    rw [hbssid, WlanStaMgr.find, KeyedList.lookup_of_mem hnodup hst, Option.some.injEq] at hst'
    subst hst'
    obtain ⟨i, -, rfl⟩ := List.mem_map.mp hp
    exact record_length_busy hrssi hpkts (by rw [← hbssid]; exact bssidText_length mac)
  refine ⟨d', hrefresh, hcount, ?_⟩
  have hrecords := records_length_ge hrecord
  have hle : (d'.mgr.head.flatMap record).length ≤ (statusText d').length := by
    unfold statusText
    rw [List.length_append]
    exact Nat.le_add_left _ _
  omega

theorem status_incomplete_busyCrowd :
    ∃ d', refresh (apRefresh 3 busyCrowd 0) (boot "wlan0".toList 3 28) = some d' ∧
      WlanStaMgr.count d'.mgr = 64 ∧ (∀ resp, ¬Complete d' (tcpStatus d' resp)) ∧
      ¬Complete d' (ipcDump d') ∧ ¬Complete d' (toyWlan (ipcDump d')) := by
  obtain ⟨d', hrefresh, hcount, hlength⟩ := refresh_busyCrowd
  have hipc : (ipcDump d').length ≤ 4095 :=
    stringAt_buildStatus_length d' _ (by decide) (by decide)
  refine ⟨d', hrefresh, hcount, fun resp => ?_, ?_, ?_⟩
  · have htcp : (tcpStatus d' resp).length ≤ 2047 :=
      stringAt_buildStatus_length d' resp (by decide) (by decide)
    exact not_complete_of_length (by omega)
  · exact not_complete_of_length (by omega)
  · have hcli : (toyWlan (ipcDump d')).length ≤ 1023 := by
      rw [toyWlan, stringAt_store_zero]
      exact Nat.le_trans (stringAt_length_le _) (List.length_take_le _ _)
    exact not_complete_of_length (by omega)

/-! ## The mode of the interface -/

/-- The reader is told that the interface is not an access point: by the flag, by the
answer to `WLAN_PING`, or by the mode in the status. -/
def NonAp (d : Daemon) : Prop :=
  d.isApMode = false ∨ Ipc.reply d "WLAN_PING".toList ≠ "PONG AP\n".toList ∨
    d.apInfo.mode ≠ "AP".toList

/-- The request `GET_INTERFACE` of a refresh fails, or its message cannot be allocated. -/
def InterfaceFails (r : RefreshInput) (d : Daemon) : Prop :=
  r.ifAlloc = false ∨
    ∃ err d₁, getInterface r (resetApInfo r.ifaddrs d) = some (err, d₁) ∧ err < 0

/-- No station is tracked on an interface that is said not to be an access point. -/
def Coherent (d : Daemon) : Prop := NonAp d → d.mgr.head = []

/-- What is said of the interface is as it was. -/
def ViewKept (d d' : Daemon) : Prop := d'.apInfo = d.apInfo ∧ d'.isApMode = d.isApMode

/-- The flag and the text of the mode say the same. -/
def ModeAgrees (d : Daemon) : Prop := d.apInfo.mode = "AP".toList ↔ d.isApMode = true

theorem ping_ap {d : Daemon} (h : d.isApMode = true) :
    Ipc.reply d "WLAN_PING".toList = "PONG AP\n".toList := by
  rw [Ipc.reply, if_pos rfl, h]
  decide

theorem not_nonAp {d : Daemon} (hmode : ModeAgrees d) (h : d.isApMode = true) : ¬NonAp d := by
  rintro (hflag | hping | hinfo)
  · rw [h] at hflag
    cases hflag
  · exact hping (ping_ap h)
  · exact hinfo (hmode.mpr h)

theorem fillIpAddress_mode (ifaddrs : Option (List IfAddr)) (ifname : CString) (info : ApInfo) :
    (fillIpAddress ifaddrs ifname info).mode = info.mode := by
  unfold fillIpAddress
  split
  · rfl
  · split <;> rfl

theorem modeAgrees_resetApInfo (ifaddrs : Option (List IfAddr)) (d : Daemon) :
    ModeAgrees (resetApInfo ifaddrs d) := by
  show (fillIpAddress _ _ _).mode = "AP".toList ↔ false = true
  rw [fillIpAddress_mode]
  show wlanMode = "AP".toList ↔ false = true
  decide

theorem modeAgrees_interfaceReply (env : Env) (msg : NlMsg) {d : Daemon} (h : ModeAgrees d) :
    ModeAgrees (interfaceReply env msg d) := by
  unfold ModeAgrees interfaceReply
  dsimp only
  rw [fillIpAddress_mode]
  -- The attributes before the type do not touch the mode.
  cases msg.iftype with
  | none => cases msg.ifname <;> cases msg.wiphyFreq <;> cases msg.channelWidth <;> exact h
  | some iftype =>
    cases iftype with
    | ap => exact iff_of_true rfl rfl
    | p2pGo => exact iff_of_true rfl rfl
    | monitor => exact iff_of_false (by decide : "MONITOR".toList ≠ "AP".toList) Bool.false_ne_true
    | other => exact iff_of_false (by decide : "UNKNOWN".toList ≠ "AP".toList) Bool.false_ne_true

theorem modeAgrees_handled (env : Env) (msg : NlMsg) (d d' : Daemon) (h : ModeAgrees d)
    (hd' : Handled env msg d d') : ModeAgrees d' := by
  cases hd' with
  | ignored => exact h
  | newStation => exact h
  | delStation => exact h
  | interface => exact modeAgrees_interfaceReply env msg h

/-- What each message of the answer keeps, the request `GET_INTERFACE` keeps. -/
theorem getInterface_invariant {I : Daemon → Prop}
    (hhandled : ∀ env msg d d', I d → Handled env msg d d' → I d') {r : RefreshInput}
    {d d₁ : Daemon} {err : Int} (hlive : Live d) (hreset : I (resetApInfo r.ifaddrs d))
    (h : getInterface r (resetApInfo r.ifaddrs d) = some (err, d₁)) : I d₁ := by
  have hsock : (resetApInfo r.ifaddrs d).reqSock = true := hlive.1
  obtain ⟨msgs, -, rfl⟩ := getInterface_eq hsock h
  exact List.foldlRecOn msgs _ hreset
    (fun d hd p _ => hhandled p.1 p.2 d _ hd (netdevInfoHandlerCb_handled p d))

theorem modeAgrees_getInterface {r : RefreshInput} {d d₁ : Daemon} {err : Int} (hlive : Live d)
    (h : getInterface r (resetApInfo r.ifaddrs d) = some (err, d₁)) : ModeAgrees d₁ :=
  getInterface_invariant modeAgrees_handled hlive (modeAgrees_resetApInfo r.ifaddrs d) h

/-- The station dump leaves the mode alone. -/
theorem getStation_mode {r : RefreshInput} {d d₂ : Daemon} {err : Int}
    {bssids : List CString} (hlive : Live d) (hagrees : ModeAgrees d) (hmode : d.isApMode = true)
    (h : getStation r d = some (err, d₂, bssids)) : ModeAgrees d₂ ∧ d₂.isApMode = true := by
  have hview := getStation_unchanged (fun d => (d.isApMode, d.apInfo.mode)) ?_ hlive.1 h
  · obtain ⟨hflag, htext⟩ := Prod.mk.inj hview
    rw [ModeAgrees, ← hflag, ← htext] at hagrees
    exact ⟨hagrees, hflag.trans hmode⟩
  · intro p s
    cases hmac : p.2.mac with
    | none => rw [getLinkSignalCb_none hmac]
    | some mac => simp only [getLinkSignalCb, hmac]

/-! The sockets of the daemon stay open. -/

theorem live_handled (env : Env) (msg : NlMsg) (d d' : Daemon) (h : Live d)
    (hd' : Handled env msg d d') : Live d' := by
  cases hd' with
  | ignored => exact h
  | newStation => exact h
  | delStation => exact h
  | interface => exact h

theorem live_getInterface {r : RefreshInput} {d d₁ : Daemon} {err : Int} (hlive : Live d)
    (h : getInterface r (resetApInfo r.ifaddrs d) = some (err, d₁)) : Live d₁ :=
  getInterface_invariant live_handled hlive hlive h

theorem live_getStation {r : RefreshInput} {d d₂ : Daemon} {err : Int} {bssids : List CString}
    (hlive : Live d) (h : getStation r d = some (err, d₂, bssids)) : Live d₂ := by
  have hview := getStation_unchanged (fun d => (d.reqSock, d.nl80211Id)) ?_ hlive.1 h
  · obtain ⟨hsock, hid⟩ := Prod.mk.inj hview
    rw [Live, hsock, hid]
    exact hlive
  · intro p s
    cases hmac : p.2.mac with
    | none => rw [getLinkSignalCb_none hmac]
    | some mac => simp only [getLinkSignalCb, hmac]

theorem live_mainStep (d : Daemon) (x : MainStep) (d' : Daemon) (hlive : Live d)
    (h : mainStep d x = some d') : Live d' := by
  cases x with
  | event env msg =>
    rw [mainStep, Option.some.injEq] at h
    exact h ▸ live_handled env msg d _ hlive (netdevInfoHandlerCb_handled (env, msg) d)
  | refresh r =>
    cases refreshed_of_refresh h with
    | idle => exact hlive
    | noIfMsg => exact hlive
    | ifFailed _ _ hif _ => exact live_getInterface hlive hif
    | notAp _ _ hif _ _ =>
      have hlive₁ := live_getInterface hlive hif
      exact hlive₁
    | noStaMsg _ _ hif _ _ _ => exact live_getInterface hlive hif
    | staFailed _ _ hif _ _ _ hsta _ => exact live_getStation (live_getInterface hlive hif) hsta
    | dumped _ _ hif _ _ _ hsta _ =>
      have hlive₂ := live_getStation (live_getInterface hlive hif) hsta
      exact hlive₂

theorem live_boot (ifname : CString) (wlanIdx : UInt32) {nl80211Id : Int} (h : 0 ≤ nl80211Id) :
    Live (boot ifname wlanIdx nl80211Id) := ⟨rfl, h⟩

theorem removeSta_none (m : StaMgr) : (removeSta none (-1) m).head = [] := by
  simp [removeSta_eq, stays]

/-- In every state that the daemon reaches from its start, a refresh whose request
`GET_INTERFACE` does not fail leaves a coherent view, whatever happens to it after
that request. -/
theorem refresh_coherent {ifname : CString} {wlanIdx : UInt32} {nl80211Id : Int} {d d' : Daemon}
    {xs : List MainStep} {r : RefreshInput} (hid : 0 ≤ nl80211Id)
    (hrun : exec mainStep (boot ifname wlanIdx nl80211Id) xs = some d)
    (hrefresh : refresh r d = some d') (hok : ¬InterfaceFails r d) : Coherent d' := by
  have hlive : Live d := exec_invariant live_mainStep (live_boot ifname wlanIdx hid) hrun
  intro hnonAp
  cases refreshed_of_refresh hrefresh with
  | idle hidle => exact absurd hlive hidle
  | noIfMsg _ halloc => exact absurd (Or.inl halloc) hok
  | ifFailed _ _ hif herr => exact absurd (Or.inr ⟨_, _, hif, herr⟩) hok
  | notAp => exact removeSta_none _
  | noStaMsg _ _ hif _ hmode _ =>
    exact absurd hnonAp (not_nonAp (modeAgrees_getInterface hlive hif) hmode)
  | staFailed _ _ hif _ hmode _ hsta _ =>
    obtain ⟨hagrees, hap⟩ := getStation_mode (live_getInterface hlive hif)
      (modeAgrees_getInterface hlive hif) hmode hsta
    exact absurd hnonAp (not_nonAp hagrees hap)
  | dumped _ _ hif _ hmode _ hsta _ =>
    obtain ⟨hagrees, hap⟩ := getStation_mode (live_getInterface hlive hif)
      (modeAgrees_getInterface hlive hif) hmode hsta
    exact absurd hnonAp (not_nonAp hagrees hap)

/-- A refresh whose request fails before an answer has come does nothing but reset what is
said of the interface. -/
theorem refresh_of_interfaceFails {r : RefreshInput} {d d' : Daemon} (hlive : Live d)
    (hfails : InterfaceFails r d)
    (hquiet : ∀ err msgs, transcript r.ifExchange = some (err, msgs) → msgs = [])
    (hrefresh : refresh r d = some d') : d' = resetApInfo r.ifaddrs d := by
  have hreset : ∀ err d₁, getInterface r (resetApInfo r.ifaddrs d) = some (err, d₁) →
      d₁ = resetApInfo r.ifaddrs d := by
    intro err d₁ hif
    have hsock : (resetApInfo r.ifaddrs d).reqSock = true := hlive.1
    obtain ⟨msgs, htranscript, rfl⟩ := getInterface_eq hsock hif
    rw [hquiet err msgs htranscript]
    rfl
  -- Past the request there is nothing: it has failed.
  have hnot : ∀ err d₁, r.ifAlloc = true →
      getInterface r (resetApInfo r.ifaddrs d) = some (err, d₁) → ¬0 ≤ err := by
    intro err d₁ halloc hif herr
    rcases hfails with hnone | ⟨err', d₁', hif', herr'⟩
    · exact Bool.false_ne_true (hnone.symm.trans halloc)
    · obtain ⟨rfl, -⟩ := Prod.mk.inj (Option.some.inj (hif.symm.trans hif'))
      exact Int.not_lt.mpr herr herr'
  cases refreshed_of_refresh hrefresh with
  | idle hidle => exact absurd hlive hidle
  | noIfMsg => rfl
  | ifFailed _ _ hif _ => exact hreset _ _ hif
  | notAp _ halloc hif herr _ => exact absurd herr (hnot _ _ halloc hif)
  | noStaMsg _ halloc hif herr _ _ => exact absurd herr (hnot _ _ halloc hif)
  | staFailed _ halloc hif herr _ _ _ _ => exact absurd herr (hnot _ _ halloc hif)
  | dumped _ halloc hif herr _ _ _ _ => exact absurd herr (hnot _ _ halloc hif)

/-- Such a refresh leaves a coherent view only if there was no station, and keeps the view
only if the interface was not said to be an access point before. -/
theorem coherent_of_interfaceFails {r : RefreshInput} {d d' : Daemon} (hlive : Live d)
    (hfails : InterfaceFails r d)
    (hquiet : ∀ err msgs, transcript r.ifExchange = some (err, msgs) → msgs = [])
    (hrefresh : refresh r d = some d') :
    (Coherent d' ↔ d.mgr.head = []) ∧ (ViewKept d d' → d.isApMode = false) := by
  rw [refresh_of_interfaceFails hlive hfails hquiet hrefresh]
  exact ⟨⟨fun h => h (.inl rfl), fun h _ => h⟩, fun h => h.2.symm⟩

def oneStationRefresh : RefreshInput :=
  apRefresh 3 [(Env.at 9, stationMsg .newStation 3 (localMac 1))] 0

/-- A refresh whose first request cannot be sent. -/
def unsentRefresh : RefreshInput :=
  { oneStationRefresh with ifExchange := { cbAlloc := true, send := -1, recvs := [] } }

theorem refresh_coherent_oneStation :
    ∃ d', refresh oneStationRefresh (boot "wlan0".toList 3 28) = some d' ∧
      Coherent d' ∧ d'.mgr.head ≠ [] := by
  obtain ⟨d', hrefresh, hhead⟩ : ∃ d',
      refresh oneStationRefresh (boot "wlan0".toList 3 28) = some d' ∧ d'.mgr.head ≠ [] :=
    ⟨_, rfl, List.cons_ne_nil _ _⟩
  refine ⟨d', hrefresh, ?_, hhead⟩
  refine refresh_coherent (by decide : (0 : Int) ≤ 28) (exec_nil _) hrefresh ?_
  rintro (halloc | ⟨err, d₁, hif, herr⟩)
  · exact absurd halloc (by decide)
  · have hdone : getInterface oneStationRefresh (resetApInfo none (boot "wlan0".toList 3 28)) =
        some (0, _) := rfl
    obtain ⟨rfl, -⟩ := Prod.mk.inj (Option.some.inj (hdone.symm.trans hif))
    exact absurd herr (by decide)

/-- A station is tracked, and then the kernel cannot be asked once. -/
theorem not_coherent_unsentRefresh :
    ∃ d d', exec mainStep (boot "wlan0".toList 3 28) [.refresh oneStationRefresh] = some d ∧
      refresh unsentRefresh d = some d' ∧ d.isApMode = true ∧ d'.isApMode = false ∧
      Ipc.reply d' "WLAN_PING".toList = "PONG MONITOR\n".toList ∧
      d'.apInfo.mode = "UNKNOWN".toList ∧ d'.mgr.head ≠ [] ∧ ¬Coherent d' ∧
      InterfaceFails unsentRefresh d ∧ ¬ViewKept d d' := by
  obtain ⟨d, hrun⟩ : ∃ d, exec mainStep (boot "wlan0".toList 3 28) [.refresh oneStationRefresh] =
      some d := ⟨_, rfl⟩
  obtain ⟨hlive, hmode, hhead⟩ : Live d ∧ d.isApMode = true ∧ d.mgr.head ≠ [] := by
    obtain rfl := Option.some.inj hrun
    exact ⟨⟨rfl, by decide⟩, rfl, List.cons_ne_nil _ _⟩
  have hfails : InterfaceFails unsentRefresh d := by
    obtain rfl := Option.some.inj hrun
    exact .inr ⟨-eBadF, _, rfl, by decide⟩
  obtain ⟨d', hrefresh⟩ : ∃ d', refresh unsentRefresh d = some d' := by
    obtain rfl := Option.some.inj hrun
    exact ⟨_, rfl⟩
  have hquiet : ∀ err msgs, transcript unsentRefresh.ifExchange = some (err, msgs) → msgs = [] := by
    rintro err msgs h
    obtain ⟨-, rfl⟩ := Prod.mk.inj (Option.some.inj h)
    rfl
  have hreset := refresh_of_interfaceFails hlive hfails hquiet hrefresh
  obtain ⟨hcoherent, hkept⟩ := coherent_of_interfaceFails hlive hfails hquiet hrefresh
  have hview : d'.isApMode = false ∧ Ipc.reply d' "WLAN_PING".toList = "PONG MONITOR\n".toList ∧
      d'.apInfo.mode = "UNKNOWN".toList ∧ d'.mgr.head ≠ [] := by
    rw [hreset]
    exact ⟨rfl, rfl, rfl, hhead⟩
  obtain ⟨hflag, hping, htext, htracked⟩ := hview
  exact ⟨d, d', hrun, hrefresh, hmode, hflag, hping, htext, htracked,
    fun h => hhead (hcoherent.mp h), hfails,
    fun h => Bool.false_ne_true ((hkept h).symm.trans hmode)⟩

end Wlinkd
end LinuxLab
