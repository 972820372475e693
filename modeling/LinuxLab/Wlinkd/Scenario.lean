import LinuxLab.Wlinkd.Changes

/-!
# Ordinary inputs

The state in which `wlan_nl80211_init` leaves the daemon before its first refresh,
and the messages and exchanges of a kernel that answers normally.  The concrete
runs beside the theorems are put together from these.
-/

namespace LinuxLab
namespace Wlinkd

open Lib WlanLibnl

/-- The globals after the sockets have been opened on an interface. -/
def boot (ifname : CString) (wlanIdx : UInt32) (nl80211Id : Int) : Daemon :=
  WlanNl80211.resetApInfo none
    { reqSock := true, nl80211Id := nl80211Id, wlanIdx := wlanIdx,
      wlanIfname := strncpy ifname 15, isApMode := false,
      apInfo := { iface := [], mode := [], ip := [], channel := [], up := false,
                  bandwidthMhz := 0, phyRateMbps := 0, rssiDbm := 0 },
      mgr := WlanStaMgr.init }

def Env.at (now : Int) : Env := { now := now, malloc := true, ifaddrs := none }

def localMac (n : UInt8) : Mac := ⟨2, 0, 0, 0, 0, n⟩

def serving : Daemon :=
  { boot "wlan0".toList 3 28 with
    mgr := { head := [WlanStaMgr.newStation (localMac 1) 7], out := [] } }

/-- A station event, or a dump entry without `STA_INFO`. -/
def stationMsg (cmd : Nl80211Cmd) (wlanIdx : UInt32) (mac : Mac) : NlMsg :=
  { cmd := cmd, ifindex := some wlanIdx, mac := some mac, ifname := none, wiphyFreq := none,
    channelWidth := none, iftype := none, staInfo := .absent }

def interfaceMsg (wlanIdx : UInt32) (iftype : IfType) : NlMsg :=
  { cmd := .newInterface, ifindex := some wlanIdx, mac := none, ifname := none, wiphyFreq := none,
    channelWidth := none, iftype := some iftype, staInfo := .absent }

/-- A dump that arrives in one batch and ends with the given status. -/
def dumpExchange (msgs : List (Env × NlMsg)) (status : Int) : NlExchange (Env × NlMsg) :=
  { cbAlloc := true, send := 0,
    recvs := [{ events := msgs.map .valid ++ [.done status], res := 0 }] }

/-- A refresh in AP mode whose station dump has the given entries and end status. -/
def apRefresh (wlanIdx : UInt32) (entries : List (Env × NlMsg)) (status : Int) :
    WlanNl80211.RefreshInput :=
  { ifaddrs := none, ifAlloc := true,
    ifExchange := dumpExchange [(Env.at 0, interfaceMsg wlanIdx .ap)] 0,
    staAlloc := true, staExchange := dumpExchange entries status }

def joins (now : Int) (n : UInt8) : WlanNl80211.MainStep :=
  .event (Env.at now) (stationMsg .newStation 3 (localMac n))

def leaves (now : Int) (n : UInt8) : WlanNl80211.MainStep :=
  .event (Env.at now) (stationMsg .delStation 3 (localMac n))

/-- Two stations join, and a refresh finds both of them. -/
def twoJoin : List WlanNl80211.MainStep :=
  [joins 7 1, joins 8 2,
    .refresh (apRefresh 3
      [(Env.at 9, stationMsg .newStation 3 (localMac 1)),
        (Env.at 9, stationMsg .newStation 3 (localMac 2))] 0)]

theorem nlRecvmsgs_valid_done {μ : Type} (msgs seen : List μ) (status err : Int) :
    nlRecvmsgs (skipping (fun msg seen => seen ++ [msg])) (msgs.map .valid ++ [.done status]) err
      seen = (0, seen ++ msgs) := by
  induction msgs generalizing seen err with
  | nil => simp [nlRecvmsgs, dispatch, finishCb]
  | cons msg msgs ih =>
    simp only [List.map_cons, List.cons_append, nlRecvmsgs, dispatch, skipping]
    exact (ih (seen ++ [msg]) err).trans (by simp)

/-- The whole dump reaches the callback, and its status makes no difference. -/
theorem transcript_dumpExchange (msgs : List (Env × NlMsg)) (status : Int) :
    transcript (dumpExchange msgs status) = some (0, msgs) := by
  simp [transcript, sendAndRecv, dumpExchange, recvLoop, nlRecvmsgs_valid_done, nleDumpIntr]

theorem kernelReplies_apRefresh (wlanIdx : UInt32) (entries : List (Env × NlMsg)) (status : Int) :
    KernelReplies (apRefresh wlanIdx entries status).ifExchange := by
  intro err msgs htrans p hp
  have hsome : some (0, [(Env.at 0, interfaceMsg wlanIdx .ap)]) = some (err, msgs) := htrans
  obtain ⟨rfl, rfl⟩ := Prod.mk.inj (Option.some.inj hsome)
  rw [List.mem_singleton.mp hp]
  simp [interfaceMsg]

end Wlinkd
end LinuxLab
