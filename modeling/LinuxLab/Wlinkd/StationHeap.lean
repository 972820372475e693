import Mathlib.Order.Lattice.Nat
import LinuxLab.Lib.LinkedHeap
import LinuxLab.Wlinkd.Scenario

/-!
# The station list in memory

`StaMgr` has the stations as a list.  Here are the same functions with the pointers that
`wlan_sta_mgr.c` and `wlan_nl80211.c` have: blocks that are allocated, linked, taken out by
way of the pointer that led to them, and freed.  A function answers `none` when it follows a
null pointer or one to a freed block, and when a walk meets more nodes than there are blocks,
which it only does if it goes round in a circle.

A name that is passed on may lie in the node itself, as in `wlan_nl80211_remove_sta`, which
hands `curr->bssid` to the function that frees `curr`; `BssidArg` keeps the two kinds apart,
and a name in a node is read again at every use.

The result is that none of this happens: the pointers stand for the list of the model at
every step of the main loop, and the blocks in use are the nodes of that list.
-/

namespace LinuxLab
namespace Wlinkd

open Lib WlanUtils WlanLibnl

/-- The argument `const char *bssid`: a text of the caller, or the field of a node. -/
inductive BssidArg where
  | text (bssid : CString)
  | field (node : Addr)
deriving DecidableEq, Repr

def BssidArg.read (h : Heap Station) : BssidArg → Option CString
  | .text bssid => some bssid
  | .field node => (h.lookup node).map (fun cell => cell.val.bssid)

/-- `sta_mgr_head`, the blocks of the list, and what has been sent out. -/
structure StationHeap where
  staMgrHead : Option Addr
  heap : Heap Station
  out : List Output

namespace StationHeap

def init : StationHeap := ⟨none, ∅, []⟩

def emit (o : Output) (s : StationHeap) : StationHeap := { s with out := s.out ++ [o] }

/-- How many nodes a walk may meet. -/
def fuel (s : StationHeap) : Nat := s.heap.keys.card

def findLoop (h : Heap Station) (bssid : CString) : Nat → Option Addr → Option (Option Addr)
  | _, none => some none
  | 0, some _ => none
  | fuel + 1, some curr =>
    (h.lookup curr).bind fun cell =>
      if cell.val.bssid = bssid then some (some curr) else findLoop h bssid fuel cell.next

/-- `wlan_sta_mgr_find`: the address of the node, or null. -/
def find (bssid : CString) (s : StationHeap) : Option (Option Addr) :=
  findLoop s.heap bssid s.fuel s.staMgrHead

def add (place : Placement) (env : Env) (bssid : CString) (s : StationHeap) :
    Option (Int × StationHeap) :=
  if bssid = [] then some (-1, s)
  else
    (find bssid s).bind fun found =>
      if found.isSome then some (0, s)
      else if env.malloc = false then some (-1, s)
      else
        let newSta := place.place s.heap.keys
        let sta : Station :=
          { bssid := strncpy bssid (macAddrLen - 1), rssi := 0, privPkts := 0,
            assocTime := env.now }
        some (1, ⟨some newSta, s.heap.insert newSta ⟨sta, s.staMgrHead⟩,
          s.out ++ [.added bssid env.now]⟩)

/-- The node that was found is taken out: its predecessor, or the head, gets its next
pointer, the name is logged, and the node is freed. -/
def takeOut (bssid : BssidArg) (prev : Option Addr) (curr : Addr) (next : Option Addr)
    (s : StationHeap) : Option (Int × StationHeap) :=
  (relink prev next s.staMgrHead s.heap).bind fun linked =>
    (bssid.read linked.2).bind fun name =>
      (free curr linked.2).bind fun heap =>
        some (1, ⟨linked.1, heap, s.out ++ [.removed name]⟩)

def removeLoop (bssid : BssidArg) (s : StationHeap) :
    Nat → Option Addr → Option Addr → Option (Int × StationHeap)
  | _, _, none => some (0, s)
  | 0, _, some _ => none
  | fuel + 1, prev, some curr =>
    (s.heap.lookup curr).bind fun cell =>
      (bssid.read s.heap).bind fun name =>
        if cell.val.bssid = name then takeOut bssid prev curr cell.next s
        else removeLoop bssid s fuel (some curr) cell.next

def remove (bssid : BssidArg) (s : StationHeap) : Option (Int × StationHeap) :=
  removeLoop bssid s s.fuel none s.staMgrHead

def countLoop (h : Heap Station) : Nat → Option Addr → Nat → Option Nat
  | _, none, count => some count
  | 0, some _, _ => none
  | fuel + 1, some curr, count =>
    (h.lookup curr).bind fun cell => countLoop h fuel cell.next (count + 1)

def count (s : StationHeap) : Option Nat := countLoop s.heap s.fuel s.staMgrHead 0

/-- The loop of `wlan_sta_mgr_clear`.  The head is set after it. -/
def clearLoop : Nat → Option Addr → StationHeap → Option StationHeap
  | _, none, s => some { s with staMgrHead := none }
  | 0, some _, _ => none
  | fuel + 1, some curr, s =>
    (s.heap.lookup curr).bind fun cell =>
      (free curr s.heap).bind fun heap =>
        clearLoop fuel cell.next ({ s with heap := heap }.emit (.cleared cell.val.bssid))

def clear (s : StationHeap) : Option StationHeap := clearLoop s.fuel s.staMgrHead s

def join (bssid : CString) (s : StationHeap) : StationHeap :=
  (s.emit (.ipcPush .staJoin)).emit (.tcpPush .staJoin bssid)

def leave (bssid : BssidArg) (s : StationHeap) : Option StationHeap :=
  (bssid.read s.heap).map fun name => s.emit (.tcpPush .staLeave name)

def ledOff (s : StationHeap) : StationHeap := s.emit (.ipcPush .staLeave)

def traffic (s : StationHeap) : StationHeap := s.emit (.ipcPush .traffic)

/-! ## The callers -/

def newStationEvent (place : Placement) (env : Env) (bssid : CString) (s : StationHeap) :
    Option StationHeap :=
  if bssid ≠ [] then
    (add place env bssid s).map fun r => if 0 < r.1 then join bssid r.2 else r.2
  else some s

/-- `led_off` when no station is left. -/
def ledOffIfEmpty (s : StationHeap) : Option StationHeap :=
  (count s).map fun n => if n = 0 then ledOff s else s

def delStationEvent (bssid : CString) (s : StationHeap) : Option StationHeap :=
  if bssid ≠ [] then
    (leave (.text bssid) s).bind fun s => (remove (.text bssid) s).bind fun r => ledOffIfEmpty r.2
  else some s

/-- `wlan_nl80211_update_sta`: the node is found again and written through its pointer. -/
def updateSta (place : Placement) (env : Env) (bssid : CString) (rssiDbm : Int) (totalPkts : Nat)
    (s : StationHeap) : Option StationHeap :=
  if bssid = [] then some s
  else
    (add place env bssid s).bind fun r =>
      (find bssid r.2).bind fun found =>
        match found with
        | none => some r.2
        | some sta =>
          (r.2.heap.lookup sta).map fun cell =>
            let s := { r.2 with
              heap := r.2.heap.insert sta ⟨cell.val.report rssiDbm totalPkts, cell.next⟩ }
            if 0 < r.1 then join bssid s
            else if cell.val.privPkts < totalPkts then traffic s
            else s

/-- The loop of `wlan_nl80211_remove_sta`: the next pointer is read before the node goes. -/
def removeWalk (stays : CString → Bool) :
    Nat → Option Addr → StationHeap → Nat → Option (StationHeap × Nat)
  | _, none, s, removed => some (s, removed)
  | 0, some _, _, _ => none
  | fuel + 1, some curr, s, removed =>
    (s.heap.lookup curr).bind fun cell =>
      if stays cell.val.bssid then removeWalk stays fuel cell.next s removed
      else
        (leave (.field curr) s).bind fun s =>
          (remove (.field curr) s).bind fun r => removeWalk stays fuel cell.next r.2 (removed + 1)

def removeSta (bssids : Option (List CString)) (count : Int) (s : StationHeap) :
    Option StationHeap :=
  (removeWalk (WlanNl80211.stays bssids count) s.fuel s.staMgrHead s 0).bind fun r =>
    if 0 < r.2 then ledOffIfEmpty r.1 else some r.1

/-! ## What the pointers stand for -/

/-- The pointers lead through the stations of the list, and no other block is in use. -/
def Stands (s : StationHeap) (m : StaMgr) : Prop :=
  ∃ cells, Represents s.heap s.staMgrHead cells ∧ m = ⟨cells.map Prod.snd, s.out⟩

theorem stands_init : Stands init WlanStaMgr.init := ⟨[], .empty, rfl⟩

theorem Stands.emit {s : StationHeap} {m : StaMgr} (h : Stands s m) (o : Output) :
    Stands (s.emit o) (m.emit o) := by
  obtain ⟨cells, hrep, rfl⟩ := h
  exact ⟨cells, hrep, rfl⟩

theorem Stands.join {s : StationHeap} {m : StaMgr} (h : Stands s m) (bssid : CString) :
    Stands (join bssid s) (WlanStaMgr.join bssid m) :=
  (h.emit _).emit _

def names (cells : List (Addr × Station)) : List CString := cells.map (fun cell => cell.2.bssid)

theorem names_eq (cells : List (Addr × Station)) :
    names cells = (cells.map Prod.snd).map Station.bssid := by
  rw [List.map_map]
  rfl

theorem notMem_names_cons {name : CString} {cell : Addr × Station} {cells : List (Addr × Station)}
    (h : name ∉ names (cell :: cells)) : cell.2.bssid ≠ name ∧ name ∉ names cells :=
  ⟨fun hname => h (hname ▸ List.mem_cons_self), fun hmem => h (List.mem_cons_of_mem _ hmem)⟩

theorem length_eq_fuel {s : StationHeap} {cells : List (Addr × Station)}
    (hrep : Represents s.heap s.staMgrHead cells) : s.fuel = cells.length :=
  hrep.card_keys

/-- The first node with a name. -/
theorem exists_first {bssid : CString} {cells : List (Addr × Station)} (h : bssid ∈ names cells) :
    ∃ front a st back, cells = front ++ (a, st) :: back ∧ st.bssid = bssid ∧
      bssid ∉ names front := by
  obtain ⟨as, bs, hsplit, hfirst⟩ := List.eq_append_cons_of_mem h
  obtain ⟨front, rest, rfl, rfl, hrest⟩ := List.map_eq_append_iff.mp hsplit
  obtain ⟨⟨a, st⟩, back, rfl, hst, -⟩ := List.map_eq_cons_iff.mp hrest
  exact ⟨front, a, st, back, rfl, hst, hfirst⟩

/-! ## find and count -/

theorem findLoop_miss {h : Heap Station} {bssid : CString} {cells : List (Addr × Station)}
    {fuel : Nat} {p : Option Addr} (hlinked : Linked h p cells none) (hmiss : bssid ∉ names cells)
    (hfuel : cells.length ≤ fuel) : findLoop h bssid fuel p = some none := by
  induction cells generalizing p fuel with
  | nil =>
    obtain rfl : p = none := hlinked
    rw [findLoop]
  | cons cell cells ih =>
    obtain ⟨a, st⟩ := cell
    obtain ⟨rfl, next, hcell, hrest⟩ := hlinked
    obtain ⟨fuel, rfl⟩ := Nat.exists_eq_add_one.mpr (Nat.zero_lt_of_lt hfuel)
    obtain ⟨hne, hmiss⟩ := notMem_names_cons hmiss
    rw [findLoop, hcell, Option.bind_some, if_neg hne]
    exact ih hrest hmiss (Nat.le_of_succ_le_succ hfuel)

theorem findLoop_hit {h : Heap Station} {front back : List (Addr × Station)} {a : Addr}
    {st : Station} {fuel : Nat} {p : Option Addr}
    (hlinked : Linked h p (front ++ (a, st) :: back) none) (hfirst : st.bssid ∉ names front)
    (hfuel : front.length < fuel) : findLoop h st.bssid fuel p = some (some a) := by
  induction front generalizing p fuel with
  | nil =>
    obtain ⟨rfl, next, hcell, -⟩ := hlinked
    obtain ⟨fuel, rfl⟩ := Nat.exists_eq_add_one.mpr (Nat.zero_lt_of_lt hfuel)
    rw [findLoop, hcell, Option.bind_some, if_pos rfl]
  | cons cell front ih =>
    obtain ⟨c, x⟩ := cell
    obtain ⟨rfl, next, hcell, hrest⟩ := hlinked
    obtain ⟨fuel, rfl⟩ := Nat.exists_eq_add_one.mpr (Nat.zero_lt_of_lt hfuel)
    obtain ⟨hne, hfirst⟩ := notMem_names_cons hfirst
    rw [findLoop, hcell, Option.bind_some, if_neg hne]
    exact ih hrest hfirst (Nat.lt_of_succ_lt_succ hfuel)

theorem countLoop_eq {h : Heap Station} {cells : List (Addr × Station)} {fuel : Nat}
    {p : Option Addr} (hlinked : Linked h p cells none) (hfuel : cells.length ≤ fuel) (n : Nat) :
    countLoop h fuel p n = some (n + cells.length) := by
  induction cells generalizing p fuel n with
  | nil =>
    obtain rfl : p = none := hlinked
    rw [countLoop, List.length_nil, Nat.add_zero]
  | cons cell cells ih =>
    obtain ⟨a, st⟩ := cell
    obtain ⟨rfl, next, hcell, hrest⟩ := hlinked
    obtain ⟨fuel, rfl⟩ := Nat.exists_eq_add_one.mpr (Nat.zero_lt_of_lt hfuel)
    rw [countLoop, hcell, Option.bind_some, ih hrest (Nat.le_of_succ_le_succ hfuel),
      List.length_cons, Nat.add_assoc, Nat.add_comm 1]

theorem count_stands {s : StationHeap} {m : StaMgr} (h : Stands s m) :
    count s = some (WlanStaMgr.count m) := by
  obtain ⟨cells, hrep, rfl⟩ := h
  rw [count, countLoop_eq hrep.linked (Nat.le_of_eq (length_eq_fuel hrep).symm), Nat.zero_add,
    WlanStaMgr.count, List.length_map]

theorem ledOffIfEmpty_stands {s : StationHeap} {m : StaMgr} (h : Stands s m) :
    ∃ s', ledOffIfEmpty s = some s' ∧
      Stands s' (if WlanStaMgr.count m = 0 then WlanStaMgr.ledOff m else m) := by
  rw [ledOffIfEmpty, count_stands h, Option.map_some]
  refine ⟨_, rfl, ?_⟩
  split
  · exact h.emit _
  · exact h

/-! ## add -/

theorem find_miss {s : StationHeap} {cells : List (Addr × Station)} {bssid : CString}
    (hrep : Represents s.heap s.staMgrHead cells) (hmiss : bssid ∉ names cells) :
    find bssid s = some none :=
  findLoop_miss hrep.linked hmiss (Nat.le_of_eq (length_eq_fuel hrep).symm)

theorem find_hit {s : StationHeap} {front back : List (Addr × Station)} {a : Addr} {st : Station}
    (hrep : Represents s.heap s.staMgrHead (front ++ (a, st) :: back))
    (hfirst : st.bssid ∉ names front) : find st.bssid s = some (some a) := by
  refine findLoop_hit hrep.linked hfirst ?_
  rw [length_eq_fuel hrep, List.length_append, List.length_cons]
  omega

theorem add_stands {s : StationHeap} {m : StaMgr} (h : Stands s m) (place : Placement) (env : Env)
    (bssid : CString) :
    ∃ s', add place env bssid s = some ((WlanStaMgr.add env bssid m).1, s') ∧
      Stands s' (WlanStaMgr.add env bssid m).2 := by
  obtain ⟨cells, hrep, rfl⟩ := h
  rw [add, WlanStaMgr.add]
  by_cases hnil : bssid = []
  · rw [if_pos hnil, if_pos hnil]
    exact ⟨s, rfl, cells, hrep, rfl⟩
  rw [if_neg hnil, if_neg hnil]
  by_cases hfound : bssid ∈ names cells
  · have hsome : (WlanStaMgr.find bssid ⟨cells.map Prod.snd, s.out⟩).isSome = true := by
      rw [WlanStaMgr.find_isSome, StaMgr.bssids, ← names_eq]
      exact hfound
    obtain ⟨front, a, st, back, rfl, rfl, hfirst⟩ := exists_first hfound
    rw [find_hit hrep hfirst, Option.bind_some, if_pos Option.isSome_some, if_pos hsome]
    exact ⟨s, rfl, _, hrep, rfl⟩
  · have hnone : ¬(WlanStaMgr.find bssid ⟨cells.map Prod.snd, s.out⟩).isSome = true := by
      rw [WlanStaMgr.find_isSome, StaMgr.bssids, ← names_eq]
      exact hfound
    rw [find_miss hrep hfound, Option.bind_some, if_neg (by simp), if_neg hnone]
    cases hmem : env.malloc with
    | false =>
      rw [if_pos rfl, if_pos rfl]
      exact ⟨s, rfl, cells, hrep, rfl⟩
    | true =>
      rw [if_neg (by decide), if_neg (by decide)]
      have hfresh : place.place s.heap.keys ∉ s.heap := fun hin =>
        place.fresh s.heap.keys (Finmap.mem_keys.mpr hin)
      exact ⟨_, rfl, _, hrep.push hfresh _, rfl⟩

theorem newStationEvent_stands {s : StationHeap} {m : StaMgr} (h : Stands s m) (place : Placement)
    (env : Env) (bssid : CString) :
    ∃ s', newStationEvent place env bssid s = some s' ∧
      Stands s' (WlanNl80211.newStationEvent env bssid m) := by
  rw [newStationEvent, WlanNl80211.newStationEvent]
  by_cases hnil : bssid ≠ []
  · obtain ⟨s', hadd, hs'⟩ := add_stands h place env bssid
    rw [if_pos hnil, if_pos hnil, hadd, Option.map_some]
    refine ⟨_, rfl, ?_⟩
    dsimp only
    split
    · exact hs'.join bssid
    · exact hs'
  · rw [if_neg hnil, if_neg hnil]
    exact ⟨s, rfl, h⟩

/-! ## update -/

/-- The node that is found is rewritten in place. -/
theorem update_first {front back : List (Addr × Station)} {a : Addr} {st : Station}
    (hfirst : st.bssid ∉ names front) (f : Station → Station) :
    KeyedList.update Station.bssid st.bssid f ((front ++ (a, st) :: back).map Prod.snd) =
      (front ++ (a, f st) :: back).map Prod.snd := by
  rw [List.map_append, KeyedList.update_append f (by rwa [← names_eq]), List.map_cons,
    KeyedList.update_cons_self f rfl, List.map_append, List.map_cons]

theorem lookup_first {front back : List (Addr × Station)} {a : Addr} {st : Station}
    (hfirst : st.bssid ∉ names front) (out : List Output) :
    WlanStaMgr.find st.bssid ⟨(front ++ (a, st) :: back).map Prod.snd, out⟩ = some st := by
  rw [WlanStaMgr.find]
  induction front with
  | nil => exact KeyedList.lookup_cons_self rfl
  | cons cell front ih =>
    obtain ⟨hne, hfirst⟩ := notMem_names_cons hfirst
    rw [List.cons_append, List.map_cons, KeyedList.lookup_cons_ne hne]
    exact ih hfirst

theorem lookup_cell {s : StationHeap} {front back : List (Addr × Station)} {a : Addr}
    {st : Station} (hrep : Represents s.heap s.staMgrHead (front ++ (a, st) :: back)) :
    ∃ next, s.heap.lookup a = some ⟨st, next⟩ := by
  obtain ⟨r, -, -, next, hcell, -⟩ := linked_append.mp hrep.linked
  exact ⟨next, hcell⟩

theorem updateSta_stands {s : StationHeap} {m : StaMgr} (h : Stands s m) (place : Placement)
    (env : Env) (bssid : CString) (rssiDbm : Int) (totalPkts : Nat) :
    ∃ s', updateSta place env bssid rssiDbm totalPkts s = some s' ∧
      Stands s' (WlanNl80211.updateSta env bssid rssiDbm totalPkts m) := by
  rw [updateSta, WlanNl80211.updateSta]
  by_cases hnil : bssid = []
  · rw [if_pos hnil, if_pos hnil]
    exact ⟨s, rfl, h⟩
  rw [if_neg hnil, if_neg hnil]
  obtain ⟨s₁, hadd, cells, hrep, hm₁⟩ := add_stands h place env bssid
  rw [hadd, Option.bind_some]
  generalize WlanStaMgr.add env bssid m = r at hm₁ ⊢
  obtain ⟨added, m₁⟩ := r
  dsimp only at hm₁ ⊢
  subst hm₁
  by_cases hfound : bssid ∈ names cells
  · obtain ⟨front, a, st, back, rfl, rfl, hfirst⟩ := exists_first hfound
    obtain ⟨next, hcell⟩ := lookup_cell hrep
    rw [find_hit hrep hfirst, Option.bind_some, lookup_first hfirst]
    dsimp only
    rw [hcell, Option.map_some]
    have hwritten : Stands
        ⟨s₁.staMgrHead, s₁.heap.insert a ⟨st.report rssiDbm totalPkts, next⟩, s₁.out⟩
        ⟨KeyedList.update Station.bssid st.bssid (Station.report rssiDbm totalPkts)
          ((front ++ (a, st) :: back).map Prod.snd), s₁.out⟩ :=
      ⟨_, hrep.write hcell _, by rw [update_first hfirst]⟩
    refine ⟨_, rfl, ?_⟩
    dsimp only
    split
    · exact hwritten.join st.bssid
    · split
      · exact hwritten.emit _
      · exact hwritten
  · have hnone : WlanStaMgr.find bssid ⟨cells.map Prod.snd, s₁.out⟩ = none := by
      rw [WlanStaMgr.find_eq_none, StaMgr.bssids, ← names_eq]
      exact hfound
    rw [find_miss hrep hfound, Option.bind_some, hnone]
    exact ⟨s₁, rfl, cells, hrep, rfl⟩

/-! ## remove -/

/-- Turning a pointer does not change a name, wherever it lies. -/
theorem read_relink {h h' : Heap Station} {prev target head head' : Option Addr}
    (hrelink : relink prev target head h = some (head', h')) (bssid : BssidArg) :
    bssid.read h' = bssid.read h := by
  cases bssid with
  | text bssid => rfl
  | field node =>
    have hval := congrArg (Option.map Station.bssid) (relink_val hrelink node)
    rwa [Option.map_map, Option.map_map] at hval

theorem removeLoop_miss {s : StationHeap} {bssid : BssidArg} {name : CString}
    {cells : List (Addr × Station)} {fuel : Nat} {prev p : Option Addr}
    (hlinked : Linked s.heap p cells none) (hread : bssid.read s.heap = some name)
    (hmiss : name ∉ names cells) (hfuel : cells.length ≤ fuel) :
    removeLoop bssid s fuel prev p = some (0, s) := by
  induction cells generalizing p fuel prev with
  | nil =>
    obtain rfl : p = none := hlinked
    rw [removeLoop]
  | cons cell cells ih =>
    obtain ⟨a, st⟩ := cell
    obtain ⟨rfl, next, hcell, hrest⟩ := hlinked
    obtain ⟨fuel, rfl⟩ := Nat.exists_eq_add_one.mpr (Nat.zero_lt_of_lt hfuel)
    obtain ⟨hne, hmiss⟩ := notMem_names_cons hmiss
    rw [removeLoop, hcell, Option.bind_some, hread, Option.bind_some, if_neg hne]
    exact ih hrest hmiss (Nat.le_of_succ_le_succ hfuel)

/-- The trailing pointer is at the node before the one that is found. -/
theorem removeLoop_hit {s : StationHeap} {bssid : BssidArg} {front back : List (Addr × Station)}
    {a : Addr} {st : Station} {next : Option Addr} {fuel : Nat} {prev p : Option Addr}
    (hlinked : Linked s.heap p (front ++ (a, st) :: back) none)
    (hcell : s.heap.lookup a = some ⟨st, next⟩) (hread : bssid.read s.heap = some st.bssid)
    (hfirst : st.bssid ∉ names front) (hfuel : front.length < fuel) :
    removeLoop bssid s fuel prev p =
      takeOut bssid ((front.getLast?.map Prod.fst).or prev) a next s := by
  induction front generalizing p fuel prev with
  | nil =>
    obtain ⟨rfl, -⟩ := hlinked
    obtain ⟨fuel, rfl⟩ := Nat.exists_eq_add_one.mpr (Nat.zero_lt_of_lt hfuel)
    rw [removeLoop, hcell, Option.bind_some, hread, Option.bind_some, if_pos rfl]
    rfl
  | cons cell front ih =>
    obtain ⟨c, x⟩ := cell
    obtain ⟨rfl, next', hcell', hrest⟩ := hlinked
    obtain ⟨fuel, rfl⟩ := Nat.exists_eq_add_one.mpr (Nat.zero_lt_of_lt hfuel)
    obtain ⟨hne, hfirst⟩ := notMem_names_cons hfirst
    rw [removeLoop, hcell', Option.bind_some, hread, Option.bind_some, if_neg hne,
      ih hrest hfirst (Nat.lt_of_succ_lt_succ hfuel), List.getLast?_cons]
    cases front.getLast? <;> rfl

theorem unlink_first {front back : List (Addr × Station)} {a : Addr} {st : Station}
    (hfirst : st.bssid ∉ names front) :
    KeyedList.unlink Station.bssid st.bssid ((front ++ (a, st) :: back).map Prod.snd) =
      (front ++ back).map Prod.snd := by
  rw [List.map_append, List.map_cons, KeyedList.unlink_append rfl (by rwa [← names_eq]),
    List.map_append]

/-- The node goes, and the pointer to the rest that was read from it before stays good. -/
theorem remove_hit {s : StationHeap} {bssid : BssidArg} {front back : List (Addr × Station)}
    {a : Addr} {st : Station} {next : Option Addr}
    (hrep : Represents s.heap s.staMgrHead (front ++ (a, st) :: back))
    (hcell : s.heap.lookup a = some ⟨st, next⟩) (hread : bssid.read s.heap = some st.bssid)
    (hfirst : st.bssid ∉ names front) :
    ∃ s', remove bssid s = some (1, s') ∧ s'.out = s.out ++ [.removed st.bssid] ∧
      Represents s'.heap s'.staMgrHead (front ++ back) ∧ Linked s'.heap next back none := by
  have hfuel : front.length < s.fuel := by
    rw [length_eq_fuel hrep, List.length_append, List.length_cons]
    omega
  obtain ⟨head', h', hrelink, hfree, hback, hrep'⟩ := hrep.unlink hcell
  rw [remove, removeLoop_hit hrep.linked hcell hread hfirst hfuel, Option.or_none, takeOut, hrelink,
    Option.bind_some, read_relink hrelink bssid, hread, Option.bind_some, hfree, Option.bind_some]
  exact ⟨_, rfl, rfl, hrep', hback⟩

theorem remove_stands {s : StationHeap} {m : StaMgr} (h : Stands s m) {bssid : BssidArg}
    {name : CString} (hread : bssid.read s.heap = some name) :
    ∃ s', remove bssid s = some ((WlanStaMgr.remove name m).1, s') ∧
      Stands s' (WlanStaMgr.remove name m).2 := by
  obtain ⟨cells, hrep, rfl⟩ := h
  by_cases hfound : name ∈ names cells
  · have htracked : name ∈ StaMgr.bssids ⟨cells.map Prod.snd, s.out⟩ := by
      rw [StaMgr.bssids, ← names_eq]
      exact hfound
    obtain ⟨front, a, st, back, rfl, rfl, hfirst⟩ := exists_first hfound
    obtain ⟨next, hcell⟩ := lookup_cell hrep
    obtain ⟨s', hremove, hout, hrep', -⟩ := remove_hit hrep hcell hread hfirst
    rw [WlanStaMgr.remove_tracked htracked, hremove]
    exact ⟨s', rfl, _, hrep', by rw [unlink_first hfirst, hout]⟩
  · have huntracked : name ∉ StaMgr.bssids ⟨cells.map Prod.snd, s.out⟩ := by
      rw [StaMgr.bssids, ← names_eq]
      exact hfound
    rw [WlanStaMgr.remove_untracked huntracked, remove,
      removeLoop_miss hrep.linked hread hfound (Nat.le_of_eq (length_eq_fuel hrep).symm)]
    exact ⟨s, rfl, cells, hrep, rfl⟩

theorem delStationEvent_stands {s : StationHeap} {m : StaMgr} (h : Stands s m) (bssid : CString) :
    ∃ s', delStationEvent bssid s = some s' ∧
      Stands s' (WlanNl80211.delStationEvent bssid m) := by
  rw [delStationEvent, WlanNl80211.delStationEvent]
  by_cases hnil : bssid ≠ []
  · have hleave : Stands (s.emit (.tcpPush .staLeave bssid)) (WlanStaMgr.leave bssid m) :=
      h.emit _
    have hread : (BssidArg.text bssid).read (s.emit (.tcpPush .staLeave bssid)).heap = some bssid :=
      rfl
    obtain ⟨s', hremove, hs'⟩ := remove_stands hleave hread
    obtain ⟨s'', hled, hs''⟩ := ledOffIfEmpty_stands hs'
    rw [if_pos hnil, if_pos hnil, leave, BssidArg.read, Option.map_some, Option.bind_some, hremove,
      Option.bind_some]
    exact ⟨s'', hled, hs''⟩
  · rw [if_neg hnil, if_neg hnil]
    exact ⟨s, rfl, h⟩

/-- The walk of the pointers is the walk over the list that was there at its start.  The nodes
that were visited and kept stand before those that the next pointer leads to. -/
theorem removeWalk_stands (stays : CString → Bool) (back : List (Addr × Station)) :
    ∀ (kept : List (Addr × Station)) (s : StationHeap) (p : Option Addr) (removed fuel : Nat),
      Represents s.heap s.staMgrHead (kept ++ back) → Linked s.heap p back none →
      (∀ cell ∈ kept, stays cell.2.bssid = true) → back.length ≤ fuel →
      ∃ s' n, removeWalk stays fuel p s removed = some (s', n) ∧
        n = (WlanNl80211.removeWalk stays (back.map Prod.snd)
          ⟨(kept ++ back).map Prod.snd, s.out⟩ removed).2 ∧
        Stands s' (WlanNl80211.removeWalk stays (back.map Prod.snd)
          ⟨(kept ++ back).map Prod.snd, s.out⟩ removed).1 := by
  induction back with
  | nil =>
    intro kept s p removed fuel hrep hlinked _ _
    obtain rfl : p = none := hlinked
    rw [removeWalk]
    exact ⟨s, removed, rfl, rfl, _, hrep, rfl⟩
  | cons cell back ih =>
    intro kept s p removed fuel hrep hlinked hkept hfuel
    obtain ⟨a, st⟩ := cell
    obtain ⟨rfl, next, hcell, hback⟩ := hlinked
    obtain ⟨fuel, rfl⟩ := Nat.exists_eq_add_one.mpr (Nat.zero_lt_of_lt hfuel)
    rw [removeWalk, hcell, Option.bind_some, List.map_cons, WlanNl80211.removeWalk]
    by_cases hstays : stays st.bssid = true
    · rw [if_pos hstays, if_pos hstays]
      have hkept' : ∀ cell ∈ kept ++ [(a, st)], stays cell.2.bssid = true := by
        intro cell hmem
        rcases List.mem_append.mp hmem with hmem | hmem
        · exact hkept cell hmem
        · rwa [List.mem_singleton.mp hmem]
      rw [List.append_cons] at hrep ⊢
      exact ih (kept ++ [(a, st)]) s next removed fuel hrep hback hkept'
        (Nat.le_of_succ_le_succ hfuel)
    · rw [if_neg hstays, if_neg hstays]
      have hfirst : st.bssid ∉ names kept := by
        intro hmem
        obtain ⟨cell, hcell, hname⟩ := List.mem_map.mp hmem
        exact hstays (hname ▸ hkept cell hcell)
      have hread : BssidArg.read s.heap (.field a) = some st.bssid := by
        rw [BssidArg.read, hcell, Option.map_some]
      have htracked : st.bssid ∈ StaMgr.bssids
          (WlanStaMgr.leave st.bssid ⟨(kept ++ (a, st) :: back).map Prod.snd, s.out⟩) := by
        simp [WlanStaMgr.leave, StaMgr.emit, StaMgr.bssids]
      have hleave : leave (.field a) s = some (s.emit (.tcpPush .staLeave st.bssid)) := by
        rw [leave, hread, Option.map_some]
      obtain ⟨s', hremove, hout, hrep', hback'⟩ :=
        remove_hit (s := s.emit (.tcpPush .staLeave st.bssid)) hrep hcell hread hfirst
      have hstep : (WlanStaMgr.remove st.bssid (WlanStaMgr.leave st.bssid
          ⟨(kept ++ (a, st) :: back).map Prod.snd, s.out⟩)).2 =
            ⟨(kept ++ back).map Prod.snd, s'.out⟩ := by
        rw [WlanStaMgr.remove_tracked htracked, hout]
        dsimp only [WlanStaMgr.leave, StaMgr.emit, emit]
        rw [unlink_first hfirst]
      rw [hleave, Option.bind_some, hremove, Option.bind_some]
      dsimp only
      rw [hstep]
      exact ih kept s' next (removed + 1) fuel hrep' hback' hkept (Nat.le_of_succ_le_succ hfuel)

theorem removeSta_stands {s : StationHeap} {m : StaMgr} (h : Stands s m)
    (bssids : Option (List CString)) (count : Int) :
    ∃ s', removeSta bssids count s = some s' ∧
      Stands s' (WlanNl80211.removeSta bssids count m) := by
  obtain ⟨cells, hrep, rfl⟩ := h
  obtain ⟨s', n, hwalk, hn, hs'⟩ := removeWalk_stands (WlanNl80211.stays bssids count)
    cells [] s s.staMgrHead 0 s.fuel hrep hrep.linked (List.forall_mem_nil _)
    (Nat.le_of_eq (length_eq_fuel hrep).symm)
  rw [List.nil_append] at hn hs'
  rw [removeSta, WlanNl80211.removeSta, hwalk, Option.bind_some]
  generalize WlanNl80211.removeWalk (WlanNl80211.stays bssids count) (cells.map Prod.snd)
    ⟨cells.map Prod.snd, s.out⟩ 0 = r at hn hs' ⊢
  obtain ⟨m', removed⟩ := r
  subst hn
  dsimp only at hs' ⊢
  by_cases hpos : 0 < n
  · obtain ⟨s'', hled, hs''⟩ := ledOffIfEmpty_stands hs'
    rw [if_pos hpos, hled]
    simp only [hpos, true_and]
    exact ⟨s'', rfl, hs''⟩
  · rw [if_neg hpos, if_neg (fun hand => hpos hand.1)]
    exact ⟨s', rfl, hs'⟩

/-! ## clear -/

/-- The blocks before the pointer are gone, and the head still leads to the first of them. -/
theorem clearLoop_eq (cells : List (Addr × Station)) :
    ∀ (s : StationHeap) (p : Option Addr) (fuel : Nat), Represents s.heap p cells →
      cells.length ≤ fuel → ∃ s', clearLoop fuel p s = some s' ∧ s'.staMgrHead = none ∧
        s'.heap = ∅ ∧ s'.out = s.out ++ cells.map (fun cell => .cleared cell.2.bssid) := by
  induction cells with
  | nil =>
    intro s p fuel hrep _
    obtain rfl : p = none := hrep.linked
    have hempty : s.heap = ∅ := by
      refine Finmap.ext_lookup (fun a => ?_)
      rw [Finmap.lookup_empty, Finmap.lookup_eq_none]
      exact fun ha => List.not_mem_nil ((hrep.blocks a).mp ha)
    rw [clearLoop]
    exact ⟨_, rfl, rfl, hempty, (List.append_nil _).symm⟩
  | cons cell cells ih =>
    intro s p fuel hrep hfuel
    obtain ⟨a, st⟩ := cell
    obtain ⟨rfl, next, hcell, hrest⟩ := hrep.linked
    obtain ⟨fuel, rfl⟩ := Nat.exists_eq_add_one.mpr (Nat.zero_lt_of_lt hfuel)
    have hfirst : Represents s.heap (some a) ([] ++ (a, st) :: cells) := hrep
    obtain ⟨head', h', hrelink, hfree, -, hrep'⟩ := hfirst.unlink hcell
    obtain ⟨rfl, rfl⟩ := Prod.mk.inj (Option.some.inj hrelink)
    obtain ⟨s', hloop, hhead, hheap, hout⟩ :=
      ih ({ s with heap := s.heap.erase a }.emit (.cleared st.bssid)) next fuel hrep'
        (Nat.le_of_succ_le_succ hfuel)
    rw [clearLoop, hcell, Option.bind_some, hfree, Option.bind_some]
    refine ⟨s', hloop, hhead, hheap, ?_⟩
    rw [hout, emit, List.append_assoc, List.map_cons, List.singleton_append]

theorem clear_stands {s : StationHeap} {m : StaMgr} (h : Stands s m) :
    ∃ s', clear s = some s' ∧ s'.heap = ∅ ∧ Stands s' (WlanStaMgr.clear m) := by
  obtain ⟨cells, hrep, rfl⟩ := h
  obtain ⟨s', hloop, hhead, hheap, hout⟩ :=
    clearLoop_eq cells s s.staMgrHead s.fuel hrep (Nat.le_of_eq (length_eq_fuel hrep).symm)
  refine ⟨s', hloop, hheap, [], ?_, ?_⟩
  · rw [hhead, hheap]
    exact .empty
  · rw [WlanStaMgr.clear, hout, List.map_map]
    rfl

end StationHeap

/-! ## The daemon -/

/-- The daemon with its stations in memory.  The list in `base` is not used. -/
structure HeapDaemon where
  base : Daemon
  stations : StationHeap

namespace HeapDaemon

def withStations (d : HeapDaemon) (s : Option StationHeap) : Option HeapDaemon :=
  s.map fun s => { d with stations := s }

def netdevInfoHandlerCb (place : Placement) (p : Env × NlMsg) (d : HeapDaemon) :
    Option HeapDaemon :=
  let (env, msg) := p
  match msg.ifindex with
  | none => some d
  | some ifindex =>
    if ifindex ≠ d.base.wlanIdx then some d
    else
      let bssid := match msg.mac with
        | some mac => formatBssid mac [] macAddrLen
        | none => []
      match msg.cmd with
      | .newStation => d.withStations (d.stations.newStationEvent place env bssid)
      | .delStation => d.withStations (d.stations.delStationEvent bssid)
      | _ => some { d with base := WlanNl80211.interfaceReply env msg d.base }

def getLinkSignalCb (place : Placement) (p : Env × NlMsg) (s : HeapDaemon × List CString) :
    Option (HeapDaemon × List CString) :=
  let (env, msg) := p
  let (d, ctx) := s
  match msg.mac with
  | none => some (d, ctx)
  | some mac =>
    let bssidText := formatBssid mac [] macAddrLen
    let ctx := if ctx.length < WlanNl80211.maxStas
      then ctx ++ [strncpy bssidText (macAddrLen - 1)] else ctx
    let info := { d.base.apInfo with
      phyRateMbps := msg.phyRateMbps d.base.apInfo.phyRateMbps,
      rssiDbm := msg.rssiDbm }
    (d.stations.updateSta place env bssidText msg.rssiDbm msg.totalPackets).map fun stations =>
      ({ base := { d.base with apInfo := info }, stations := stations }, ctx)

/-- A callback that is not called again after a fault. -/
def unlessFaulted {μ σ : Type} (f : μ → σ → Option σ) (msg : μ) (s : Option σ) : Option σ :=
  s.bind (f msg)

/-- `wlan_nl80211_refresh`.  The outer `none` is a refresh that has not returned, the inner
one a fault. -/
def refresh (place : Placement) (r : WlanNl80211.RefreshInput) (d : HeapDaemon) :
    Option (Option HeapDaemon) :=
  if d.base.reqSock = false ∨ d.base.nl80211Id < 0 then some (some d)
  else
    let d := { d with base := WlanNl80211.resetApInfo r.ifaddrs d.base }
    if r.ifAlloc = false then some (some d)
    else
      match sendAndRecv d.base.reqSock (skipping (unlessFaulted (netdevInfoHandlerCb place)))
          r.ifExchange (some d) with
      | none => none
      | some (_, none) => some none
      | some (err, some d) =>
        if err < 0 then some (some d)
        else if d.base.isApMode = false then
          some (d.withStations (d.stations.removeSta none (-1)))
        else if r.staAlloc = false then some (some d)
        else
          match sendAndRecv d.base.reqSock (skipping (unlessFaulted (getLinkSignalCb place)))
              r.staExchange (some (d, [])) with
          | none => none
          | some (_, none) => some none
          | some (err, some (d, bssids)) =>
            if err < 0 then some (some d)
            else some (d.withStations (d.stations.removeSta (some bssids) bssids.length))

/-- One pass of the main loop, with the places that `malloc` chooses during it. -/
def mainStep (d : Option HeapDaemon) (x : Placement × WlanNl80211.MainStep) :
    Option (Option HeapDaemon) :=
  match d, x.2 with
  | none, _ => some none
  | some d, .event env msg => some (netdevInfoHandlerCb x.1 (env, msg) d)
  | some d, .refresh r => refresh x.1 r d

/-- The daemon in memory is the daemon of the model. -/
def StandsFor (p : HeapDaemon) (d : Daemon) : Prop :=
  ∃ m, p.stations.Stands m ∧ d = { p.base with mgr := m }

/-- Both have not returned, or both have, without a fault and in corresponding states. -/
def Agree (x : Option (Option HeapDaemon)) (y : Option Daemon) : Prop :=
  (y = none → x = none) ∧ ∀ d, y = some d → ∃ p, x = some (some p) ∧ p.StandsFor d

/-! ## The callbacks -/

theorem StandsFor.withStations {p : HeapDaemon} {s : Option StationHeap} {m : StaMgr}
    (h : ∃ s', s = some s' ∧ s'.Stands m) :
    ∃ p', p.withStations s = some p' ∧ p'.StandsFor { p.base with mgr := m } := by
  obtain ⟨s', rfl, hs'⟩ := h
  exact ⟨_, rfl, m, hs', rfl⟩

theorem interfaceReply_withMgr (env : Env) (msg : NlMsg) (d : Daemon) (m : StaMgr) :
    WlanNl80211.interfaceReply env msg { d with mgr := m } =
      { WlanNl80211.interfaceReply env msg d with mgr := m } := by
  cases htype : msg.iftype with
  | none => simp only [WlanNl80211.interfaceReply, htype]
  | some iftype => cases iftype <;> simp only [WlanNl80211.interfaceReply, htype]

theorem netdevInfoHandlerCb_stands (place : Placement) (x : Env × NlMsg) {p : HeapDaemon}
    {d : Daemon} (h : p.StandsFor d) :
    ∃ p', netdevInfoHandlerCb place x p = some p' ∧
      p'.StandsFor (WlanNl80211.netdevInfoHandlerCb x d) := by
  obtain ⟨m, hm, rfl⟩ := h
  obtain ⟨env, msg⟩ := x
  cases hidx : msg.ifindex with
  | none =>
    simp only [netdevInfoHandlerCb, WlanNl80211.netdevInfoHandlerCb, hidx]
    exact ⟨p, rfl, m, hm, rfl⟩
  | some ifindex =>
    simp only [netdevInfoHandlerCb, WlanNl80211.netdevInfoHandlerCb, hidx]
    by_cases hother : ifindex ≠ p.base.wlanIdx
    · rw [if_pos hother, if_pos hother]
      exact ⟨p, rfl, m, hm, rfl⟩
    · rw [if_neg hother, if_neg hother]
      cases msg.cmd with
      | newStation =>
        exact StandsFor.withStations (StationHeap.newStationEvent_stands hm place env _)
      | delStation => exact StandsFor.withStations (StationHeap.delStationEvent_stands hm _)
      | newInterface => exact ⟨_, rfl, m, hm, interfaceReply_withMgr env msg p.base m⟩
      | other => exact ⟨_, rfl, m, hm, interfaceReply_withMgr env msg p.base m⟩

/-- The daemons correspond and have collected the same names. -/
def StandsForDump (p : HeapDaemon × List CString) (d : Daemon × List CString) : Prop :=
  p.1.StandsFor d.1 ∧ p.2 = d.2

theorem getLinkSignalCb_stands (place : Placement) (x : Env × NlMsg)
    {p : HeapDaemon × List CString} {d : Daemon × List CString} (h : StandsForDump p d) :
    ∃ p', getLinkSignalCb place x p = some p' ∧
      StandsForDump p' (WlanNl80211.getLinkSignalCb x d) := by
  obtain ⟨p, ctx⟩ := p
  obtain ⟨d, ctx'⟩ := d
  obtain ⟨⟨m, hm, rfl⟩, rfl⟩ := h
  obtain ⟨env, msg⟩ := x
  cases hmac : msg.mac with
  | none =>
    simp only [getLinkSignalCb, WlanNl80211.getLinkSignalCb, hmac]
    exact ⟨_, rfl, ⟨m, hm, rfl⟩, rfl⟩
  | some mac =>
    simp only [getLinkSignalCb, WlanNl80211.getLinkSignalCb, hmac]
    obtain ⟨s', hs', hstands⟩ := StationHeap.updateSta_stands hm place env
      (formatBssid mac [] macAddrLen) msg.rssiDbm msg.totalPackets
    rw [hs', Option.map_some]
    exact ⟨_, rfl, ⟨_, hstands, rfl⟩, rfl⟩

/-! ## The refresh and the main loop -/

section Exchange

variable {μ σ τ : Type} {f : μ → σ → Option σ} {g : μ → τ → τ} {R : σ → τ → Prop}
  (hstep : ∀ msg s t, R s t → ∃ s', f msg s = some s' ∧ R s' (g msg t))

include hstep

theorem foldl_unlessFaulted (msgs : List μ) {s : σ} {t : τ} (h : R s t) :
    ∃ s', msgs.foldl (fun s msg => unlessFaulted f msg s) (some s) = some s' ∧
      R s' (msgs.foldl (fun t msg => g msg t) t) := by
  induction msgs generalizing s t with
  | nil => exact ⟨s, rfl, h⟩
  | cons msg msgs ih =>
    obtain ⟨s', hs', hR⟩ := hstep msg s t h
    rw [List.foldl_cons, List.foldl_cons, unlessFaulted, Option.bind_some, hs']
    exact ih hR

/-- An exchange delivers the same messages to both callbacks. -/
theorem exchange_agree (reqSock : Bool) (x : NlExchange μ) {s : σ} {t : τ} (h : R s t) :
    (sendAndRecv reqSock (skipping g) x t = none →
      sendAndRecv reqSock (skipping (unlessFaulted f)) x (some s) = none) ∧
    ∀ err t', sendAndRecv reqSock (skipping g) x t = some (err, t') →
      ∃ s', sendAndRecv reqSock (skipping (unlessFaulted f)) x (some s) = some (err, some s') ∧
        R s' t' := by
  cases reqSock with
  | false =>
    refine ⟨fun hnone => absurd hnone (Option.some_ne_none _), fun err t' heq => ?_⟩
    obtain ⟨rfl, rfl⟩ := Prod.mk.inj (Option.some.inj heq)
    exact ⟨s, rfl, h⟩
  | true =>
    rw [sendAndRecv_skipping, sendAndRecv_skipping]
    refine ⟨fun hnone => ?_, fun err t' heq => ?_⟩
    · rw [Option.map_eq_none_iff] at hnone ⊢
      exact hnone
    · obtain ⟨⟨err', msgs⟩, htrans, heq⟩ := Option.map_eq_some_iff.mp heq
      obtain ⟨rfl, rfl⟩ := Prod.mk.inj heq
      obtain ⟨s', hs', hR⟩ := foldl_unlessFaulted hstep msgs h
      rw [htrans, Option.map_some, hs']
      exact ⟨s', rfl, hR⟩

end Exchange

theorem Agree.notReturned {x : Option (Option HeapDaemon)} (h : x = none) : Agree x none :=
  ⟨fun _ => h, fun d hd => absurd hd.symm (Option.some_ne_none d)⟩

theorem Agree.returned {p : HeapDaemon} {d : Daemon} (h : p.StandsFor d) :
    Agree (some (some p)) (some d) := by
  refine ⟨fun hnone => absurd hnone (Option.some_ne_none d), fun d' hd' => ?_⟩
  exact ⟨p, rfl, Option.some.inj hd' ▸ h⟩

theorem Agree.removeSta {p : HeapDaemon} {d : Daemon} (h : p.StandsFor d)
    (bssids : Option (List CString)) (count : Int) :
    Agree (some (p.withStations (p.stations.removeSta bssids count)))
      (some { d with mgr := WlanNl80211.removeSta bssids count d.mgr }) := by
  obtain ⟨m, hm, rfl⟩ := h
  obtain ⟨p', hp', hstands⟩ :=
    StandsFor.withStations (p := p) (StationHeap.removeSta_stands hm bssids count)
  rw [hp']
  exact .returned hstands

theorem refresh_agree (place : Placement) (r : WlanNl80211.RefreshInput) {p : HeapDaemon}
    {d : Daemon} (h : p.StandsFor d) : Agree (refresh place r p) (WlanNl80211.refresh r d) := by
  obtain ⟨m, hm, rfl⟩ := h
  rw [refresh, WlanNl80211.refresh]
  by_cases hidle : p.base.reqSock = false ∨ p.base.nl80211Id < 0
  · rw [if_pos hidle, if_pos hidle]
    exact .returned ⟨m, hm, rfl⟩
  rw [if_neg hidle, if_neg hidle]
  have hreset : StandsFor ⟨WlanNl80211.resetApInfo r.ifaddrs p.base, p.stations⟩
      (WlanNl80211.resetApInfo r.ifaddrs { p.base with mgr := m }) := ⟨m, hm, rfl⟩
  dsimp only
  by_cases halloc : r.ifAlloc = false
  · rw [if_pos halloc, if_pos halloc]
    exact .returned hreset
  rw [if_neg halloc, if_neg halloc]
  obtain ⟨hifNone, hifSome⟩ := exchange_agree (f := netdevInfoHandlerCb place)
    (g := WlanNl80211.netdevInfoHandlerCb) (fun x p d => netdevInfoHandlerCb_stands place x)
    (WlanNl80211.resetApInfo r.ifaddrs p.base).reqSock r.ifExchange hreset
  cases hif : WlanNl80211.getInterface r (WlanNl80211.resetApInfo r.ifaddrs
      { p.base with mgr := m }) with
  | none => exact .notReturned (by rw [hifNone hif])
  | some q =>
    obtain ⟨err, d₁⟩ := q
    obtain ⟨p₁, hp₁, h₁⟩ := hifSome err d₁ hif
    rw [hp₁]
    dsimp only
    have hmode : p₁.base.isApMode = d₁.isApMode := by
      obtain ⟨m₁, -, rfl⟩ := h₁
      rfl
    have hsock : p₁.base.reqSock = d₁.reqSock := by
      obtain ⟨m₁, -, rfl⟩ := h₁
      rfl
    by_cases herr : err < 0
    · rw [if_pos herr, if_pos herr]
      exact .returned h₁
    rw [if_neg herr, if_neg herr, hmode]
    by_cases hap : d₁.isApMode = false
    · rw [if_pos hap, if_pos hap]
      exact .removeSta h₁ none (-1)
    rw [if_neg hap, if_neg hap]
    by_cases hstaAlloc : r.staAlloc = false
    · rw [if_pos hstaAlloc, if_pos hstaAlloc]
      exact .returned h₁
    rw [if_neg hstaAlloc, if_neg hstaAlloc, hsock]
    obtain ⟨hstaNone, hstaSome⟩ := exchange_agree (f := getLinkSignalCb place)
      (g := WlanNl80211.getLinkSignalCb) (R := StandsForDump)
      (fun x p d => getLinkSignalCb_stands place x) d₁.reqSock r.staExchange (s := (p₁, []))
      (t := (d₁, [])) ⟨h₁, rfl⟩
    cases hsta : WlanNl80211.getStation r d₁ with
    | none => exact .notReturned (by rw [hstaNone hsta])
    | some q =>
      obtain ⟨err₂, d₂, bssids⟩ := q
      obtain ⟨⟨p₂, bssids'⟩, hp₂, h₂, rfl⟩ := hstaSome err₂ (d₂, bssids) hsta
      rw [hp₂]
      dsimp only
      by_cases herr₂ : err₂ < 0
      · rw [if_pos herr₂, if_pos herr₂]
        exact .returned h₂
      · rw [if_neg herr₂, if_neg herr₂]
        exact .removeSta h₂ (some bssids') bssids'.length

theorem mainStep_agree {p : HeapDaemon} {d : Daemon} (h : p.StandsFor d)
    (x : Placement × WlanNl80211.MainStep) :
    Agree (mainStep (some p) x) (WlanNl80211.mainStep d x.2) := by
  obtain ⟨place, x⟩ := x
  cases x with
  | event env msg =>
    obtain ⟨p', hp', hstands⟩ := netdevInfoHandlerCb_stands place (env, msg) h
    show Agree (some (netdevInfoHandlerCb place (env, msg) p)) _
    rw [hp']
    exact .returned hstands
  | refresh r => exact refresh_agree place r h

theorem run_agree {p : HeapDaemon} {d : Daemon} (h : p.StandsFor d)
    (steps : List (Placement × WlanNl80211.MainStep)) :
    Agree (exec mainStep (some p) steps) (exec WlanNl80211.mainStep d (steps.map Prod.snd)) := by
  induction steps generalizing p d with
  | nil => exact .returned h
  | cons x steps ih =>
    obtain ⟨hnone, hsome⟩ := mainStep_agree h x
    rw [List.map_cons, exec, exec]
    cases hd : WlanNl80211.mainStep d x.2 with
    | none => exact .notReturned (by rw [hnone hd])
    | some d' =>
      obtain ⟨p', hp', hstands⟩ := hsome d' hd
      rw [hp']
      exact ih hstands

/-- The daemon before its first refresh: no block is in use. -/
def boot (ifname : CString) (wlanIdx : UInt32) (nl80211Id : Int) : HeapDaemon :=
  ⟨Wlinkd.boot ifname wlanIdx nl80211Id, .init⟩

theorem boot_standsFor (ifname : CString) (wlanIdx : UInt32) (nl80211Id : Int) :
    (boot ifname wlanIdx nl80211Id).StandsFor (Wlinkd.boot ifname wlanIdx nl80211Id) :=
  ⟨WlanStaMgr.init, StationHeap.stands_init, rfl⟩

/-- In every run of the main loop, wherever `malloc` puts the nodes, no pointer to a freed
block is followed, every walk ends, and the pointers stand for the list of the model. -/
theorem pointers_stand_for_list (ifname : CString) (wlanIdx : UInt32) (nl80211Id : Int)
    (steps : List (Placement × WlanNl80211.MainStep)) :
    Agree (exec mainStep (some (boot ifname wlanIdx nl80211Id)) steps)
      (exec WlanNl80211.mainStep (Wlinkd.boot ifname wlanIdx nl80211Id) (steps.map Prod.snd)) :=
  run_agree (boot_standsFor ifname wlanIdx nl80211Id) steps

/-- After every run the blocks in use are as many as `wlan_sta_mgr_count` counts, and
`wlan_sta_mgr_clear` gives every one of them back. -/
theorem blocks_are_stations {ifname : CString} {wlanIdx : UInt32} {nl80211Id : Int}
    {steps : List (Placement × WlanNl80211.MainStep)} {p : HeapDaemon}
    (hrun : exec mainStep (some (boot ifname wlanIdx nl80211Id)) steps = some (some p)) :
    p.stations.count = some p.stations.heap.keys.card ∧
      ∃ s, p.stations.clear = some s ∧ s.heap = ∅ ∧ s.staMgrHead = none := by
  obtain ⟨hnone, hsome⟩ := run_agree (boot_standsFor ifname wlanIdx nl80211Id) steps
  rw [hrun] at hnone hsome
  obtain ⟨d, hd⟩ := Option.ne_none_iff_exists'.mp
    (fun hd => Option.some_ne_none _ (hnone hd))
  obtain ⟨p', hp', m, hm, -⟩ := hsome d hd
  obtain rfl := Option.some.inj (Option.some.inj hp')
  obtain ⟨s, hs, hempty, cells, hrep, -⟩ := StationHeap.clear_stands hm
  refine ⟨?_, s, hs, hempty, ?_⟩
  · obtain ⟨cells', hrep', rfl⟩ := hm
    rw [StationHeap.count_stands ⟨cells', hrep', rfl⟩, hrep'.card_keys, WlanStaMgr.count,
      List.length_map]
  · rw [hempty] at hrep
    cases cells with
    | nil => exact hrep.linked
    | cons cell cells =>
      exact absurd ((hrep.blocks cell.1).mpr List.mem_cons_self) Finmap.notMem_empty

/-- Blocks are placed behind those in use. -/
def behind : Placement where
  place used := used.sup id + 1
  fresh _ h := absurd (Finset.le_sup (f := id) h) (Nat.not_succ_le_self _)

/-- Two stations join and the first one leaves. -/
theorem blocks_are_stations_two_joins :
    ∃ p, exec mainStep (some (boot "wlan0".toList 3 28))
        [(behind, .event (Env.at 7) (stationMsg .newStation 3 (localMac 1))),
          (behind, .event (Env.at 8) (stationMsg .newStation 3 (localMac 2))),
          (behind, .event (Env.at 9) (stationMsg .delStation 3 (localMac 1)))] = some (some p) ∧
      p.stations.count = some p.stations.heap.keys.card := by
  have hagree := run_agree (boot_standsFor "wlan0".toList 3 28)
    [(behind, .event (Env.at 7) (stationMsg .newStation 3 (localMac 1))),
      (behind, .event (Env.at 8) (stationMsg .newStation 3 (localMac 2))),
      (behind, .event (Env.at 9) (stationMsg .delStation 3 (localMac 1)))]
  obtain ⟨p, hp, -⟩ := hagree.2 _ rfl
  exact ⟨p, hp, (blocks_are_stations hp).1⟩

end HeapDaemon
end Wlinkd
end LinuxLab
