import LinuxLab.Wlinkd.Libnl
import LinuxLab.Wlinkd.StaMgr

/-!
# wlan_nl80211: events, dumps and the periodic refresh

The two valid callbacks of `wlan_nl80211.c`, the functions they call, and
`wlan_nl80211_refresh`.  A message is given as its parsed attributes.  Each
message comes with the `Env` in which its callback runs, so that time and
allocation may differ from one callback to the next.

The definitions of `WlanNl80211` are the functions of the file without the prefix
`wlan_nl80211_`.  The enumerations have the values that the code tells apart.
-/

namespace LinuxLab
namespace Wlinkd

open Lib WlanUtils WlanLibnl

/-- `gnlh->cmd`, as far as it is told apart. -/
inductive Nl80211Cmd where
  | newStation
  | delStation
  | newInterface
  | other
deriving DecidableEq, Repr

inductive IfType where
  | ap
  | p2pGo
  | monitor
  | other
deriving DecidableEq, Repr

inductive ChanWidth where
  | w5
  | w10
  | w20NoHt
  | w20
  | w40
  | w80
  | w80P80
  | w160
  | other
deriving DecidableEq, Repr

/-- A nested attribute: not there, refused by `nla_parse_nested`, or parsed. -/
inductive Nested (α : Type) where
  | absent
  | malformed
  | parsed (a : α)
deriving DecidableEq, Repr

structure RateInfo where
  bitrate32 : Option UInt32
  bitrate : Option UInt16
deriving DecidableEq, Repr

structure StaInfo where
  signal : Option UInt8
  txBitrate : Nested RateInfo
  txPackets : Option UInt32
  rxPackets : Option UInt32
deriving DecidableEq, Repr

/-- A netlink message after `nla_parse`. -/
structure NlMsg where
  cmd : Nl80211Cmd
  ifindex : Option UInt32
  mac : Option Mac
  ifname : Option CString
  wiphyFreq : Option UInt32
  channelWidth : Option ChanWidth
  iftype : Option IfType
  staInfo : Nested StaInfo
deriving DecidableEq, Repr

namespace NlMsg

def rssiDbm (msg : NlMsg) : Int :=
  match msg.staInfo with
  | .parsed { signal := some v, .. } => v.toBitVec.toInt
  | _ => 0

/-- The packet total that a dump entry reports, zero when it reports none.  Two
32-bit counters cannot overflow the 64-bit sum. -/
def totalPackets (msg : NlMsg) : Nat :=
  match msg.staInfo with
  | .parsed info =>
    (info.txPackets.map UInt32.toNat).getD 0 + (info.rxPackets.map UInt32.toNat).getD 0
  | _ => 0

/-- What a dump entry does to `phy_rate_mbps`. -/
def phyRateMbps (msg : NlMsg) (old : Int) : Int :=
  match msg.staInfo with
  | .parsed { txBitrate := .parsed { bitrate32 := some v, .. }, .. } => v.toNat / 10
  | .parsed { txBitrate := .parsed { bitrate32 := none, bitrate := some v }, .. } => v.toNat / 10
  | .parsed { txBitrate := .malformed, .. } => 0
  | _ => old

end NlMsg

/-- The two assignments of `wlan_nl80211_update_sta` to a node. -/
def Station.report (rssiDbm : Int) (totalPkts : Nat) (sta : Station) : Station :=
  { sta with rssi := rssiDbm, privPkts := totalPkts }

structure Daemon where
  reqSock : Bool
  nl80211Id : Int
  wlanIdx : UInt32
  wlanIfname : CString
  isApMode : Bool
  apInfo : ApInfo
  mgr : StaMgr
deriving DecidableEq, Repr

namespace WlanNl80211

def maxStas : Nat := 64

def widthToMhz : ChanWidth → Int
  | .w5 => 5
  | .w10 => 10
  | .w20NoHt | .w20 => 20
  | .w40 => 40
  | .w80 => 80
  | .w80P80 | .w160 => 160
  | .other => 0

/-! ## Event messages -/

/-- The branch of `wlan_nl80211_netdev_info_handler_cb` for `NL80211_CMD_NEW_STATION`. -/
def newStationEvent (env : Env) (bssid : CString) (m : StaMgr) : StaMgr :=
  if bssid ≠ [] then
    let (added, m) := WlanStaMgr.add env bssid m
    if 0 < added then WlanStaMgr.join bssid m else m
  else m

/-- The branch of `wlan_nl80211_netdev_info_handler_cb` for `NL80211_CMD_DEL_STATION`. -/
def delStationEvent (bssid : CString) (m : StaMgr) : StaMgr :=
  if bssid ≠ [] then
    let m := WlanStaMgr.leave bssid m
    let m := (WlanStaMgr.remove bssid m).2
    if WlanStaMgr.count m = 0 then WlanStaMgr.ledOff m else m
  else m

/-- The rest of `wlan_nl80211_netdev_info_handler_cb`, for a reply to `GET_INTERFACE`. -/
def interfaceReply (env : Env) (msg : NlMsg) (d : Daemon) : Daemon :=
  let info := d.apInfo
  let info := match msg.ifname with
    | some name => { info with iface := strncpy name 31 }
    | none => info
  let info := match msg.wiphyFreq with
    | some freq => { info with channel := formatChannel freq 32 }
    | none => info
  let info := match msg.channelWidth with
    | some width => { info with bandwidthMhz := widthToMhz width }
    | none => info
  let (info, isApMode) := match msg.iftype with
    | some .ap | some .p2pGo => ({ info with mode := "AP".toList }, true)
    | some .monitor => ({ info with mode := "MONITOR".toList }, false)
    | some .other => ({ info with mode := "UNKNOWN".toList }, false)
    | none => (info, d.isApMode)
  { d with apInfo := fillIpAddress env.ifaddrs info.iface info, isApMode := isApMode }

/-- `wlan_nl80211_netdev_info_handler_cb`.  It answers `NL_SKIP` on every path. -/
def netdevInfoHandlerCb (p : Env × NlMsg) (d : Daemon) : Daemon :=
  let (env, msg) := p
  match msg.ifindex with
  | none => d
  | some ifindex =>
    if ifindex ≠ d.wlanIdx then d
    else
      let bssid := match msg.mac with
        | some mac => formatBssid mac [] macAddrLen
        | none => []
      match msg.cmd with
      | .newStation => { d with mgr := newStationEvent env bssid d.mgr }
      | .delStation => { d with mgr := delStationEvent bssid d.mgr }
      | _ => interfaceReply env msg d

/-! ## The station dump -/

def updateSta (env : Env) (bssid : CString) (rssiDbm : Int) (totalPkts : Nat) (m : StaMgr) :
    StaMgr :=
  if bssid = [] then m
  else
    let (added, m) := WlanStaMgr.add env bssid m
    match WlanStaMgr.find bssid m with
    | none => m
    | some sta =>
      let privPkts := sta.privPkts
      let m := { m with
        head := KeyedList.update Station.bssid bssid (Station.report rssiDbm totalPkts) m.head }
      if 0 < added then WlanStaMgr.join bssid m
      else if privPkts < totalPkts then WlanStaMgr.traffic m
      else m

/-- `wlan_nl80211_get_link_signal_cb`.  The second component is the array that
`ctx` points to, up to its count.  It answers `NL_SKIP` on every path. -/
def getLinkSignalCb (p : Env × NlMsg) (s : Daemon × List CString) : Daemon × List CString :=
  let (env, msg) := p
  let (d, ctx) := s
  match msg.mac with
  | none => (d, ctx)
  | some mac =>
    let bssidText := formatBssid mac [] macAddrLen
    let ctx := if ctx.length < maxStas then ctx ++ [strncpy bssidText (macAddrLen - 1)] else ctx
    let info := { d.apInfo with
      phyRateMbps := msg.phyRateMbps d.apInfo.phyRateMbps,
      rssiDbm := msg.rssiDbm }
    let mgr := updateSta env bssidText msg.rssiDbm msg.totalPackets d.mgr
    ({ d with apInfo := info, mgr := mgr }, ctx)

/-- The loop of `wlan_nl80211_remove_sta`.  The list of nodes still to be visited
is the one seen at the start: the next pointer is read before the node goes, and
taking a node out changes only the link that led to it. -/
def removeWalk (stays : CString → Bool) : List Station → StaMgr → Nat → StaMgr × Nat
  | [], m, removed => (m, removed)
  | curr :: next, m, removed =>
    if stays curr.bssid then removeWalk stays next m removed
    else
      let m := WlanStaMgr.leave curr.bssid m
      let m := (WlanStaMgr.remove curr.bssid m).2
      removeWalk stays next m (removed + 1)

/-- Whether `wlan_nl80211_remove_sta` leaves a station alone.  Without an array, or
with a negative count, every station goes. -/
def stays (bssids : Option (List CString)) (count : Int) (bssid : CString) : Bool :=
  if bssids = none ∨ count < 0 then false else findSta bssid bssids count

/-- `wlan_nl80211_remove_sta`.  A missing array is `none`. -/
def removeSta (bssids : Option (List CString)) (count : Int) (m : StaMgr) : StaMgr :=
  let (m, removed) := removeWalk (stays bssids count) m.head m 0
  if 0 < removed ∧ WlanStaMgr.count m = 0 then WlanStaMgr.ledOff m else m

/-! ## The refresh -/

def resetApInfo (ifaddrs : Option (List IfAddr)) (d : Daemon) : Daemon :=
  let info : ApInfo :=
    { iface := strncpy d.wlanIfname 31, mode := wlanMode, ip := wlanNotAvailable,
      channel := wlanNotAvailable, up := false, bandwidthMhz := 0, phyRateMbps := 0,
      rssiDbm := 0 }
  { d with isApMode := false, apInfo := fillIpAddress ifaddrs info.iface info }

/-- Everything outside the daemon that one refresh meets: the answer of
`getifaddrs`, the two `nlmsg_alloc` calls and the two exchanges. -/
structure RefreshInput where
  ifaddrs : Option (List IfAddr)
  ifAlloc : Bool
  ifExchange : NlExchange (Env × NlMsg)
  staAlloc : Bool
  staExchange : NlExchange (Env × NlMsg)
deriving DecidableEq, Repr

/-- The request `NL80211_CMD_GET_INTERFACE`. -/
def getInterface (r : RefreshInput) (d : Daemon) : Option (Int × Daemon) :=
  sendAndRecv d.reqSock (skipping netdevInfoHandlerCb) r.ifExchange d

/-- The request `NL80211_CMD_GET_STATION`, with an empty array to collect into. -/
def getStation (r : RefreshInput) (d : Daemon) : Option (Int × Daemon × List CString) :=
  sendAndRecv d.reqSock (skipping getLinkSignalCb) r.staExchange (d, [])

/-- `wlan_nl80211_refresh`.  It is `none` while an exchange has not returned. -/
def refresh (r : RefreshInput) (d : Daemon) : Option Daemon :=
  if d.reqSock = false ∨ d.nl80211Id < 0 then some d
  else
    let d := resetApInfo r.ifaddrs d
    if r.ifAlloc = false then some d
    else
      match getInterface r d with
      | none => none
      | some (err, d) =>
        if err < 0 then some d
        else if d.isApMode = false then some { d with mgr := removeSta none (-1) d.mgr }
        else if r.staAlloc = false then some d
        else
          match getStation r d with
          | none => none
          | some (err, d, bssids) =>
            if err < 0 then some d
            else some { d with mgr := removeSta (some bssids) bssids.length d.mgr }

/-! ## The main loop -/

/-- One pass of the poll loop in `main.c`, as far as it touches the stations. -/
inductive MainStep where
  -- One message read by `wlan_core_handler` from the event socket.
  | event (env : Env) (msg : NlMsg)
  -- The timer: `wlan_core_refresh`.
  | refresh (r : RefreshInput)
deriving DecidableEq, Repr

def mainStep (d : Daemon) : MainStep → Option Daemon
  | .event env msg => some (netdevInfoHandlerCb (env, msg) d)
  | .refresh r => refresh r d

end WlanNl80211
end Wlinkd
end LinuxLab
