import LinuxLab.Wlinkd.Utils

/-!
# wlan_sta_mgr: the station list

`wlan_sta_mgr.c` keeps the stations in a singly linked list and announces what
happens to them.  `StaMgr` is the list behind `sta_mgr_head` together with
everything the manager has sent out so far, oldest first: the calls of
`tcp_server_push_event` and `ipc_push_event`, and the three log lines that say
when a node is linked, unlinked or freed.  The remaining log lines carry nothing
that these do not and are left out.

The definitions of `WlanStaMgr` are the functions of the file without the prefix
`wlan_sta_mgr_`.
-/

namespace LinuxLab
namespace Wlinkd

open Lib WlanUtils

inductive StaEvent where
  | staJoin
  | staLeave
  | traffic
deriving DecidableEq, Repr

def StaEvent.text : StaEvent → CString
  | .staJoin => "sta_join".toList
  | .staLeave => "sta_leave".toList
  | .traffic => "traffic".toList

/-- The bytes of `ipc_push_event` for an event word. -/
def StaEvent.line (e : StaEvent) : CString := e.text ++ ['\n']

/-- One thing the manager sends out. -/
inductive Output where
  -- `tcp_server_push_event(arg, bssid)`.
  | tcpPush (arg : StaEvent) (bssid : CString)
  -- `ipc_push_event` of the word and a line feed.
  | ipcPush (msg : StaEvent)
  -- The log line `Added station`, with the time the node was stamped with.
  | added (bssid : CString) (now : Int)
  -- The log line `Removed station`.
  | removed (bssid : CString)
  -- The log line `clear station`.
  | cleared (bssid : CString)
deriving DecidableEq, Repr

/-- What a callback reads from the system: `time(NULL)`, whether `malloc` finds
memory, and the answer of `getifaddrs`. -/
structure Env where
  now : Int
  malloc : Bool
  ifaddrs : Option (List IfAddr)
deriving DecidableEq, Repr

structure StaMgr where
  head : List Station
  out : List Output
deriving DecidableEq, Repr

namespace StaMgr

def emit (o : Output) (m : StaMgr) : StaMgr := { m with out := m.out ++ [o] }

def bssids (m : StaMgr) : List CString := m.head.map Station.bssid

end StaMgr

namespace WlanStaMgr

def init : StaMgr := { head := [], out := [] }

def clear (m : StaMgr) : StaMgr :=
  { head := [], out := m.out ++ m.head.map (fun curr => .cleared curr.bssid) }

def find (bssid : CString) (m : StaMgr) : Option Station :=
  KeyedList.lookup Station.bssid bssid m.head

def add (env : Env) (bssid : CString) (m : StaMgr) : Int × StaMgr :=
  if bssid = [] then (-1, m)
  else if (find bssid m).isSome then (0, m)
  else if env.malloc = false then (-1, m)
  else
    let newSta : Station :=
      { bssid := strncpy bssid (macAddrLen - 1), rssi := 0, privPkts := 0, assocTime := env.now }
    (1, { m with head := newSta :: m.head }.emit (.added bssid env.now))

def remove (bssid : CString) (m : StaMgr) : Int × StaMgr :=
  match find bssid m with
  | some _ =>
    (1, { m with head := KeyedList.unlink Station.bssid bssid m.head }.emit (.removed bssid))
  | none => (0, m)

def count (m : StaMgr) : Nat := m.head.length

def join (bssid : CString) (m : StaMgr) : StaMgr :=
  (m.emit (.ipcPush .staJoin)).emit (.tcpPush .staJoin bssid)

def leave (bssid : CString) (m : StaMgr) : StaMgr := m.emit (.tcpPush .staLeave bssid)

def ledOff (m : StaMgr) : StaMgr := m.emit (.ipcPush .staLeave)

def traffic (m : StaMgr) : StaMgr := m.emit (.ipcPush .traffic)

/-- The node that `add` links in for an address. -/
def newStation (mac : Mac) (now : Int) : Station :=
  { bssid := bssidText mac, rssi := 0, privPkts := 0, assocTime := now }

theorem find_isSome {bssid : CString} {m : StaMgr} :
    (find bssid m).isSome = true ↔ bssid ∈ m.bssids :=
  KeyedList.lookup_isSome

theorem find_eq_none {bssid : CString} {m : StaMgr} : find bssid m = none ↔ bssid ∉ m.bssids :=
  KeyedList.lookup_eq_none

theorem exists_find {bssid : CString} {m : StaMgr} (h : bssid ∈ m.bssids) :
    ∃ st, find bssid m = some st := by
  rw [← Option.isSome_iff_exists, find_isSome]
  exact h

theorem mem_bssids_of_find {bssid : CString} {m : StaMgr} {st : Station}
    (h : find bssid m = some st) : bssid ∈ m.bssids := by
  rw [← find_isSome, h]
  rfl

theorem add_tracked {env : Env} {mac : Mac} {m : StaMgr} (h : bssidText mac ∈ m.bssids) :
    add env (bssidText mac) m = (0, m) := by
  rw [add, if_neg (bssidText_ne_nil mac), if_pos (find_isSome.mpr h)]

theorem add_failed {env : Env} {mac : Mac} {m : StaMgr} (h : bssidText mac ∉ m.bssids)
    (hmem : env.malloc = false) : add env (bssidText mac) m = (-1, m) := by
  rw [add, if_neg (bssidText_ne_nil mac), if_neg (fun hs => h (find_isSome.mp hs)), if_pos hmem]

theorem add_fresh {env : Env} {mac : Mac} {m : StaMgr} (h : bssidText mac ∉ m.bssids)
    (hmem : env.malloc = true) :
    add env (bssidText mac) m =
      (1, { head := newStation mac env.now :: m.head,
            out := m.out ++ [.added (bssidText mac) env.now] }) := by
  rw [add, if_neg (bssidText_ne_nil mac), if_neg (fun hs => h (find_isSome.mp hs)),
    if_neg (by simp [hmem])]
  simp only [strncpy_bssidText, StaMgr.emit, newStation]

theorem remove_tracked {bssid : CString} {m : StaMgr} (h : bssid ∈ m.bssids) :
    remove bssid m =
      (1, { head := KeyedList.unlink Station.bssid bssid m.head,
            out := m.out ++ [.removed bssid] }) := by
  obtain ⟨st, hst⟩ := exists_find h
  rw [remove, hst]
  rfl

theorem remove_untracked {bssid : CString} {m : StaMgr} (h : bssid ∉ m.bssids) :
    remove bssid m = (0, m) := by
  rw [remove, find_eq_none.mpr h]

end WlanStaMgr
end Wlinkd
end LinuxLab
