import LinuxLab.Lib.Exec
import LinuxLab.Wlinkd.StationHeap

/-!
# The status walk beside the main loop

A client thread of `tcp_server.c` calls `wlan_core_build_status`, which takes
`sta_mgr_head` and follows the next pointers while the main loop adds, writes, unlinks and
frees nodes.  No lock is held by either.  Here the two take turns in any order, one load or
store of a pointer at a time; the threads only share the list, and a thread that reads
changes nothing for the others, so one reader is enough.

A walk is safe exactly when no node is freed that the reader holds a pointer to, and the
head is not loaded while `wlan_sta_mgr_clear` has it lead to a freed node.  In such a run a
walk that comes to the end of the list has reported, once each, the nodes that were there
when it took the head and have not been taken out since.
-/

namespace LinuxLab
namespace Wlinkd

open Lib

namespace StatusWalk

/-- Where the main loop stands in the list code: between two calls, between the store that
takes a node out and its `free`, or in the loop of `wlan_sta_mgr_clear`. -/
inductive MainPc where
  | idle
  | freeing (node : Addr)
  | clearing (curr : Option Addr)
deriving DecidableEq, Repr

/-- Where the reader stands in `wlan_core_build_status`.  The function calls
`wlan_sta_mgr_count` twice before its loop, each time with a pointer of its own. -/
inductive ReaderPc where
  | start
  | enter (second : Bool) (curr : Option Addr)
  | counting (second : Bool) (walk curr : Option Addr)
  | record (curr : Option Addr)
  | advance (curr : Addr)
  | done (complete : Bool)
  | faulted
deriving DecidableEq, Repr

/-- The last three fields are only written: the records printed by this walk, the nodes that
were in the list when the walk took the head, and the nodes taken out since. -/
structure State where
  stations : StationHeap
  main : MainPc
  reader : ReaderPc
  reported : List (Addr × CString)
  tracked : List (Addr × CString)
  removed : List Addr

inductive Action where
  | add (place : Placement) (env : Env) (bssid : CString)
  | report (bssid : CString) (rssiDbm : Int) (totalPkts : Nat)
  | unlink (bssid : BssidArg)
  | free
  | clear
  | clearNext
  | read (fits : Bool)

def init : State := ⟨.init, .idle, .start, [], [], []⟩

/-! ## The main loop -/

/-- The search of `wlan_sta_mgr_remove`: the predecessor, the node and its next pointer. -/
def locateLoop (bssid : BssidArg) (h : Heap Station) :
    Nat → Option Addr → Option Addr → Option (Option (Option Addr × Addr × Option Addr))
  | _, _, none => some none
  | 0, _, some _ => none
  | fuel + 1, prev, some curr =>
    (h.lookup curr).bind fun cell =>
      (bssid.read h).bind fun name =>
        if cell.val.bssid = name then some (some (prev, curr, cell.next))
        else locateLoop bssid h fuel (some curr) cell.next

/-- The store of `wlan_sta_mgr_remove` that takes the node out. -/
def unlink (bssid : BssidArg) (s : State) : Option State :=
  (locateLoop bssid s.stations.heap s.stations.fuel none s.stations.staMgrHead).bind fun found =>
    match found with
    | none => some s
    | some (prev, curr, next) =>
      (relink prev next s.stations.staMgrHead s.stations.heap).map fun linked =>
        { s with
          stations := { s.stations with staMgrHead := linked.1, heap := linked.2 }
          main := .freeing curr
          removed := s.removed ++ [curr] }

/-- The stores of `wlan_nl80211_update_sta`. -/
def report (bssid : CString) (rssiDbm : Int) (totalPkts : Nat) (s : State) : Option State :=
  (s.stations.find bssid).bind fun found =>
    match found with
    | none => some s
    | some sta =>
      (s.stations.heap.lookup sta).map fun cell =>
        { s with
          stations := { s.stations with
            heap := s.stations.heap.insert sta
              ⟨cell.val.report rssiDbm totalPkts, cell.next⟩ } }

/-- One round of the loop of `wlan_sta_mgr_clear`, or the store after it. -/
def clearNext (s : State) : Option Addr → Option State
  | none => some { s with stations := { s.stations with staMgrHead := none }, main := .idle }
  | some curr =>
    (s.stations.heap.lookup curr).bind fun cell =>
      (Lib.free curr s.stations.heap).map fun heap =>
        { s with
          stations := { s.stations with heap := heap }
          main := .clearing cell.next
          removed := s.removed ++ [curr] }

/-! ## The reader -/

/-- The nodes from a pointer on, with their names. -/
def chainFrom (h : Heap Station) : Nat → Option Addr → List (Addr × CString)
  | 0, _ => []
  | _, none => []
  | fuel + 1, some a =>
    match h.lookup a with
    | none => []
    | some cell => (a, cell.val.bssid) :: chainFrom h fuel cell.next

/-- One step of the reader.  `fits` is the test after the print that the step ends with. -/
def readStep (fits : Bool) (s : State) : State :=
  match s.reader with
  | .start =>
    { s with
      reader := .enter false s.stations.staMgrHead
      reported := []
      tracked := chainFrom s.stations.heap s.stations.fuel s.stations.staMgrHead
      removed := [] }
  | .enter second curr => { s with reader := .counting second s.stations.staMgrHead curr }
  | .counting second (some walk) curr =>
    match s.stations.heap.lookup walk with
    | none => { s with reader := .faulted }
    | some cell => { s with reader := .counting second cell.next curr }
  | .counting second none curr =>
    if fits then { s with reader := if second then .record curr else .enter true curr }
    else { s with reader := .done false }
  | .record none => { s with reader := .done true }
  | .record (some curr) =>
    match s.stations.heap.lookup curr with
    | none => { s with reader := .faulted }
    | some cell =>
      if fits then
        { s with reader := .advance curr, reported := s.reported ++ [(curr, cell.val.bssid)] }
      else { s with reader := .done false }
  | .advance curr =>
    match s.stations.heap.lookup curr with
    | none => { s with reader := .faulted }
    | some cell => { s with reader := .record cell.next }
  | .done _ => { s with reader := .start }
  | .faulted => s

def step (s : State) : Action → Option State
  | .add place env bssid =>
    if s.main = .idle then
      (s.stations.add place env bssid).map fun r => { s with stations := r.2 }
    else none
  | .report bssid rssiDbm totalPkts =>
    if s.main = .idle then report bssid rssiDbm totalPkts s else none
  | .unlink bssid => if s.main = .idle then unlink bssid s else none
  | .free =>
    match s.main with
    | .freeing node =>
      (Lib.free node s.stations.heap).map fun heap =>
        { s with stations := { s.stations with heap := heap }, main := .idle }
    | _ => none
  | .clear =>
    if s.main = .idle then some { s with main := .clearing s.stations.staMgrHead } else none
  | .clearNext =>
    match s.main with
    | .clearing curr => clearNext s curr
    | _ => none
  | .read fits => some (readStep fits s)

/-- The two halves of a removal are `wlan_sta_mgr_remove`. -/
theorem removeLoop_eq_locate (bssid : BssidArg) (s : StationHeap) (fuel : Nat) :
    ∀ prev p, StationHeap.removeLoop bssid s fuel prev p =
      (locateLoop bssid s.heap fuel prev p).bind fun found =>
        match found with
        | none => some (0, s)
        | some (prev, curr, next) => StationHeap.takeOut bssid prev curr next s := by
  induction fuel with
  | zero =>
    intro prev p
    cases p with
    | none => rfl
    | some curr => rfl
  | succ fuel ih =>
    intro prev p
    cases p with
    | none => rfl
    | some curr =>
      rw [StationHeap.removeLoop, locateLoop]
      cases s.heap.lookup curr with
      | none => rfl
      | some cell =>
        rw [Option.bind_some, Option.bind_some]
        cases bssid.read s.heap with
        | none => rfl
        | some name =>
          rw [Option.bind_some, Option.bind_some]
          by_cases hname : cell.val.bssid = name
          · rw [if_pos hname, if_pos hname, Option.bind_some]
          · rw [if_neg hname, if_neg hname]
            exact ih (some curr) cell.next

/-! ## The list between two steps -/

/-- The pointer that the nodes not yet freed are reached from. -/
def State.entry (s : State) : Option Addr :=
  match s.main with
  | .clearing curr => curr
  | _ => s.stations.staMgrHead

/-- The blocks in use are the nodes of the list and the one that waits for its `free`, whose
next pointer still leads into the list. -/
structure ListInv (s : State) (cells : List (Addr × Station)) : Prop where
  linked : Linked s.stations.heap s.entry cells none
  distinct : (addrs cells).Nodup
  blocks : ∀ a, a ∈ s.stations.heap ↔ a ∈ addrs cells ∨ s.main = .freeing a
  pending : ∀ a, s.main = .freeing a → a ∉ addrs cells ∧
    ∀ cell b, s.stations.heap.lookup a = some cell → cell.next = some b → b ∈ addrs cells

theorem State.entry_of_idle {s : State} (hmain : s.main = .idle) :
    s.entry = s.stations.staMgrHead := by
  rw [State.entry, hmain]

/-- Between two calls the heap is the list and nothing else. -/
theorem listInv_iff_represents {s : State} {cells : List (Addr × Station)}
    (hmain : s.main = .idle) :
    ListInv s cells ↔ Represents s.stations.heap s.stations.staMgrHead cells := by
  have hidle : ∀ a, s.main ≠ .freeing a := by
    intro a
    rw [hmain]
    exact MainPc.noConfusion
  constructor
  · intro h
    refine ⟨State.entry_of_idle hmain ▸ h.linked, h.distinct, fun a => ?_⟩
    rw [h.blocks a]
    exact or_iff_left (hidle a)
  · intro h
    refine ⟨(State.entry_of_idle hmain).symm ▸ h.linked, h.distinct, fun a => ?_,
      fun a ha => absurd ha (hidle a)⟩
    rw [h.blocks a]
    exact (or_iff_left (hidle a)).symm

/-- The block that an action frees. -/
def freed (s : State) : Action → Option Addr
  | .free =>
    match s.main with
    | .freeing node => some node
    | _ => none
  | .clearNext =>
    match s.main with
    | .clearing curr => curr
    | _ => none
  | _ => none

/-- What the reader sees of the nodes. -/
def view (cells : List (Addr × Station)) : List (Addr × CString) :=
  cells.map (fun cell => (cell.1, cell.2.bssid))

theorem addrs_eq_of_view_eq {cells cells' : List (Addr × Station)}
    (h : view cells' = view cells) : addrs cells' = addrs cells := by
  have hfst : ∀ l : List (Addr × Station), addrs l = (view l).map Prod.fst := by
    intro l
    rw [view, List.map_map]
    rfl
  rw [hfst, hfst, h]

/-- The nodes behind a pointer after a step: the same, or without one that was taken out.
The node that the pointer leads to stays. -/
inductive Cut (removed : List Addr) (rest rest' : List (Addr × Station)) : Prop where
  | same (h : view rest' = view rest)
  | out (front back : List (Addr × Station)) (x : Addr × Station) (hfront : front ≠ [])
      (hrest : rest = front ++ x :: back) (hrest' : rest' = front ++ back) (hx : x.1 ∈ removed)

/-- What a step of the main loop leaves of the reader's side: its own state, the blocks that
are not freed, and the way on from every pointer whose block is still there. -/
structure MainEffect (s : State) (a : Action) (t : State) : Prop where
  reader : t.reader = s.reader
  reported : t.reported = s.reported
  tracked : t.tracked = s.tracked
  removed : ∀ x ∈ s.removed, x ∈ t.removed
  blocks : ∀ c ∈ s.stations.heap, c ∈ t.stations.heap ↔ freed s a ≠ some c
  chain : ∀ p rest, Linked s.stations.heap p rest none →
    (∀ c, p = some c → c ∈ t.stations.heap) →
    ∃ rest', Linked t.stations.heap p rest' none ∧ Cut t.removed rest rest'

/-! ## The steps of the main loop -/

theorem add_cases {s : StationHeap} {place : Placement} {env : Env} {bssid : CString}
    {r : Int × StationHeap} (h : s.add place env bssid = some r) :
    (r.2.staMgrHead = s.staMgrHead ∧ r.2.heap = s.heap) ∨
      ∃ node sta, node ∉ s.heap ∧ r.2.staMgrHead = some node ∧
        r.2.heap = s.heap.insert node ⟨sta, s.staMgrHead⟩ := by
  rw [StationHeap.add] at h
  by_cases hnil : bssid = []
  · rw [if_pos hnil, Option.some.injEq] at h
    exact .inl (h ▸ ⟨rfl, rfl⟩)
  · rw [if_neg hnil] at h
    obtain ⟨found, -, h⟩ := Option.bind_eq_some_iff.mp h
    by_cases hfound : found.isSome = true
    · rw [if_pos hfound, Option.some.injEq] at h
      exact .inl (h ▸ ⟨rfl, rfl⟩)
    · rw [if_neg hfound] at h
      by_cases hmalloc : env.malloc = false
      · rw [if_pos hmalloc, Option.some.injEq] at h
        exact .inl (h ▸ ⟨rfl, rfl⟩)
      · rw [if_neg hmalloc, Option.some.injEq] at h
        rw [← h]
        refine .inr ⟨place.place s.heap.keys, _, fun hmem => ?_, rfl, rfl⟩
        exact place.fresh s.heap.keys (Finmap.mem_keys.mpr hmem)

/-- A step that leaves the heap as it is. -/
theorem MainEffect.of_heap_eq {s t : State} {a : Action} (hreader : t.reader = s.reader)
    (hreported : t.reported = s.reported) (htracked : t.tracked = s.tracked)
    (hremoved : t.removed = s.removed) (hheap : t.stations.heap = s.stations.heap)
    (hfreed : freed s a = none) : MainEffect s a t := by
  refine ⟨hreader, hreported, htracked, fun x hx => hremoved ▸ hx, fun c hc => ?_,
    fun p rest hrest _ => ⟨rest, hheap ▸ hrest, .same rfl⟩⟩
  rw [hheap, hfreed]
  exact iff_of_true hc (Option.some_ne_none c).symm

theorem add_effect {s t : State} {cells : List (Addr × Station)} {place : Placement} {env : Env}
    {bssid : CString} (hI : ListInv s cells) (h : step s (.add place env bssid) = some t) :
    (∃ cells', ListInv t cells') ∧ MainEffect s (.add place env bssid) t := by
  rw [step] at h
  by_cases hmain : s.main = .idle
  · rw [if_pos hmain] at h
    obtain ⟨r, hr, ht⟩ := Option.map_eq_some_iff.mp h
    have hrep := (listInv_iff_represents hmain).mp hI
    have hmain' : t.main = .idle := by rw [← ht, hmain]
    have hstations : t.stations = r.2 := by rw [← ht]
    rcases add_cases hr with ⟨hhead, hheap⟩ | ⟨node, sta, hnew, hhead, hheap⟩
    · rw [← hstations] at hhead hheap
      refine ⟨⟨cells, (listInv_iff_represents hmain').mpr ?_⟩,
        .of_heap_eq (ht ▸ rfl) (ht ▸ rfl) (ht ▸ rfl) (ht ▸ rfl) hheap rfl⟩
      rwa [hheap, hhead]
    · rw [← hstations] at hhead hheap
      refine ⟨⟨(node, sta) :: cells, (listInv_iff_represents hmain').mpr ?_⟩,
        ht ▸ rfl, ht ▸ rfl, ht ▸ rfl, fun x hx => ht ▸ hx, fun c hc => ?_,
        fun p rest hrest _ => ⟨rest, ?_, .same rfl⟩⟩
      · rw [hheap, hhead]
        exact hrep.push hnew sta
      · rw [hheap, Finmap.mem_insert]
        exact iff_of_true (.inr hc) (Option.some_ne_none c).symm
      · rw [hheap]
        exact hrest.congr (fun x hx =>
          Finmap.lookup_insert_of_ne _ (fun hxn => hnew (hxn ▸ hrest.mem hx)))
  · rw [if_neg hmain] at h
    exact absurd h.symm (Option.some_ne_none t)

/-- Writing the counters of a node changes no name and no pointer. -/
theorem linked_report {h : Heap Station} {node : Addr} {sta : Station} {next : Option Addr}
    (hcell : h.lookup node = some ⟨sta, next⟩) (rssiDbm : Int) (totalPkts : Nat)
    {p : Option Addr} {rest : List (Addr × Station)} (hrest : Linked h p rest none) :
    ∃ rest', Linked (h.insert node ⟨sta.report rssiDbm totalPkts, next⟩) p rest' none ∧
      view rest' = view rest := by
  induction rest generalizing p with
  | nil => exact ⟨[], hrest, rfl⟩
  | cons cell rest ih =>
    obtain ⟨a, st⟩ := cell
    obtain ⟨rfl, next', hcell', hrest⟩ := hrest
    obtain ⟨rest', hrest', hview⟩ := ih hrest
    by_cases ha : a = node
    · subst ha
      rw [hcell, Option.some.injEq, Cell.mk.injEq] at hcell'
      obtain ⟨rfl, rfl⟩ := hcell'
      refine ⟨(a, sta.report rssiDbm totalPkts) :: rest',
        ⟨rfl, next, Finmap.lookup_insert h, hrest'⟩, ?_⟩
      rw [view, List.map_cons, ← view, hview]
      rfl
    · refine ⟨(a, st) :: rest', ⟨rfl, next', ?_, hrest'⟩, ?_⟩
      · rw [Finmap.lookup_insert_of_ne h ha, hcell']
      · rw [view, List.map_cons, ← view, hview]
        rfl

theorem report_effect {s t : State} {cells : List (Addr × Station)} {bssid : CString}
    {rssiDbm : Int} {totalPkts : Nat} (hI : ListInv s cells)
    (h : step s (.report bssid rssiDbm totalPkts) = some t) :
    (∃ cells', ListInv t cells') ∧ MainEffect s (.report bssid rssiDbm totalPkts) t := by
  rw [step] at h
  by_cases hmain : s.main = .idle
  · rw [if_pos hmain, report] at h
    obtain ⟨found, -, h⟩ := Option.bind_eq_some_iff.mp h
    cases found with
    | none =>
      obtain rfl := Option.some.inj h
      exact ⟨⟨cells, hI⟩, .of_heap_eq rfl rfl rfl rfl rfl rfl⟩
    | some node =>
      obtain ⟨⟨sta, next⟩, hcell, ht⟩ := Option.map_eq_some_iff.mp h
      have hrep := (listInv_iff_represents hmain).mp hI
      have hmain' : t.main = .idle := by rw [← ht, hmain]
      have hhead : t.stations.staMgrHead = s.stations.staMgrHead := by rw [← ht]
      have hheap : t.stations.heap =
          s.stations.heap.insert node ⟨sta.report rssiDbm totalPkts, next⟩ := by rw [← ht]
      have hblocks : ∀ c, c ∈ t.stations.heap ↔ c ∈ s.stations.heap := by
        intro c
        rw [hheap, Finmap.mem_insert]
        exact or_iff_right_of_imp (fun hc => hc ▸ Finmap.mem_of_lookup_eq_some hcell)
      obtain ⟨cells', hlinked, hview⟩ := linked_report hcell rssiDbm totalPkts hrep.linked
      have haddrs := addrs_eq_of_view_eq hview
      rw [← hheap, ← hhead] at hlinked
      refine ⟨⟨cells', (listInv_iff_represents hmain').mpr ⟨hlinked, haddrs ▸ hrep.distinct,
        fun c => ?_⟩⟩, ht ▸ rfl, ht ▸ rfl, ht ▸ rfl, fun x hx => ht ▸ hx, fun c hc => ?_,
        fun p rest hrest _ => ?_⟩
      · rw [haddrs]
        exact (hblocks c).trans (hrep.blocks c)
      · exact iff_of_true ((hblocks c).mpr hc) (Option.some_ne_none c).symm
      · obtain ⟨rest', hrest', hview'⟩ := linked_report hcell rssiDbm totalPkts hrest
        exact ⟨rest', hheap ▸ hrest', .same hview'⟩
  · rw [if_neg hmain] at h
    exact absurd h.symm (Option.some_ne_none t)

/-- What the search finds lies behind the nodes it has passed. -/
theorem locateLoop_found {bssid : BssidArg} {h : Heap Station} {curr : Addr}
    {prev' next : Option Addr} (cells : List (Addr × Station)) :
    ∀ (visited : List (Addr × Station)) (fuel : Nat) (p : Option Addr),
      Linked h p cells none →
      locateLoop bssid h fuel (visited.getLast?.map Prod.fst) p = some (some (prev', curr, next)) →
      ∃ front st back, visited ++ cells = front ++ (curr, st) :: back ∧
        prev' = front.getLast?.map Prod.fst ∧ h.lookup curr = some ⟨st, next⟩ := by
  induction cells with
  | nil =>
    intro visited fuel p hlinked hfound
    obtain rfl : p = none := hlinked
    rw [locateLoop] at hfound
    exact absurd (Option.some.inj hfound).symm (Option.some_ne_none _)
  | cons cell cells ih =>
    intro visited fuel p hlinked hfound
    obtain ⟨a, st⟩ := cell
    obtain ⟨rfl, next', hcell, hrest⟩ := hlinked
    cases fuel with
    | zero =>
      rw [locateLoop] at hfound
      exact absurd hfound.symm (Option.some_ne_none _)
    | succ fuel =>
      rw [locateLoop, hcell, Option.bind_some] at hfound
      obtain ⟨name, -, hfound⟩ := Option.bind_eq_some_iff.mp hfound
      by_cases hname : st.bssid = name
      · rw [if_pos hname, Option.some.injEq, Option.some.injEq, Prod.mk.injEq,
          Prod.mk.injEq] at hfound
        obtain ⟨rfl, rfl, rfl⟩ := hfound
        exact ⟨visited, st, cells, rfl, rfl, hcell⟩
      · rw [if_neg hname] at hfound
        have hlast : some a = (visited ++ [(a, st)]).getLast?.map Prod.fst := by
          rw [List.getLast?_concat, Option.map_some]
        rw [hlast] at hfound
        rw [List.append_cons]
        exact ih (visited ++ [(a, st)]) fuel next' hrest hfound

/-- The way on from a node when another one, or the node itself, is taken out. -/
theorem chain_unlink {h h' : Heap Station} {front back : List (Addr × Station)} {curr c : Addr}
    {st : Station} {head head' : Option Addr} {removed : List Addr} {rest : List (Addr × Station)}
    (hlinked : Linked h head (front ++ (curr, st) :: back) none)
    (hdistinct : (addrs (front ++ (curr, st) :: back)).Nodup)
    (hlinked' : Linked h' head' (front ++ back) none)
    (hother : ∀ a, a ∉ addrs front → h'.lookup a = h.lookup a) (hcurr : curr ∈ removed)
    (hc : c ∈ addrs (front ++ (curr, st) :: back)) (hrest : Linked h (some c) rest none) :
    ∃ rest', Linked h' (some c) rest' none ∧ Cut removed rest rest' := by
  obtain ⟨before, hsplit⟩ := hlinked.suffix hc hrest
  rw [addrs_append] at hdistinct
  -- from the node that goes on, the walk meets nothing whose pointer was turned
  have hbehind : (∀ a ∈ addrs rest, a ∈ addrs ((curr, st) :: back)) →
      ∃ rest', Linked h' (some c) rest' none ∧ Cut removed rest rest' := by
    intro hsub
    refine ⟨rest, hrest.congr (fun a ha => hother a (fun hfront => ?_)), .same rfl⟩
    exact List.disjoint_of_nodup_append hdistinct hfront (hsub a ha)
  rcases List.append_eq_append_iff.mp hsplit with ⟨mid, hfront, hmid⟩ | ⟨mid, -, hmid⟩
  · cases mid with
    | nil =>
      rw [List.nil_append] at hmid
      exact hbehind (fun a ha => hmid ▸ ha)
    | cons x mid =>
      rw [hfront, List.append_assoc] at hlinked'
      obtain ⟨r, -, hmid'⟩ := linked_append.mp hlinked'
      have hx : some c = some x.1 := (hmid ▸ hrest : Linked h (some c) (x :: mid ++ _) none).1
      have hr : r = some x.1 := hmid'.1
      refine ⟨x :: mid ++ back, hx ▸ hr ▸ hmid', ?_⟩
      exact .out (x :: mid) back (curr, st) (List.cons_ne_nil x mid) hmid rfl hcurr
  · refine hbehind (fun a ha => ?_)
    rw [hmid, addrs_append]
    exact List.mem_append_right _ ha

theorem unlink_effect {s t : State} {cells : List (Addr × Station)} {bssid : BssidArg}
    (hI : ListInv s cells) (h : step s (.unlink bssid) = some t) :
    (∃ cells', ListInv t cells') ∧ MainEffect s (.unlink bssid) t := by
  rw [step] at h
  by_cases hmain : s.main = .idle
  · rw [if_pos hmain, unlink] at h
    obtain ⟨found, hfound, h⟩ := Option.bind_eq_some_iff.mp h
    cases found with
    | none =>
      obtain rfl := Option.some.inj h
      exact ⟨⟨cells, hI⟩, .of_heap_eq rfl rfl rfl rfl rfl rfl⟩
    | some found =>
      obtain ⟨prev, curr, next⟩ := found
      obtain ⟨linked, hrelink, ht⟩ := Option.map_eq_some_iff.mp h
      have hrep := (listInv_iff_represents hmain).mp hI
      obtain ⟨front, st, back, hcells, rfl, hcell⟩ :=
        locateLoop_found cells [] _ _ hrep.linked hfound
      obtain rfl : cells = front ++ (curr, st) :: back := hcells
      obtain ⟨head', heap', hrelink', hlinked', hother, hblocks⟩ :=
        relink_unlink hrep.linked hrep.distinct hcell
      rw [hrelink', Option.some.injEq] at hrelink
      subst hrelink
      have hmain' : t.main = .freeing curr := by rw [← ht]
      have hentry : t.entry = head' := by rw [State.entry, hmain', ← ht]
      have hheap : t.stations.heap = heap' := by rw [← ht]
      have hremoved : t.removed = s.removed ++ [curr] := by rw [← ht]
      have hdistinct := hrep.distinct
      rw [addrs_append, addrs_cons] at hdistinct
      obtain ⟨hnew, hrest⟩ := List.nodup_cons.mp (List.nodup_middle.mp hdistinct)
      rw [← addrs_append] at hnew hrest
      obtain ⟨-, -, -, next', hcell', hback⟩ := linked_append.mp hrep.linked
      rw [hcell, Option.some.injEq, Cell.mk.injEq] at hcell'
      obtain ⟨-, rfl⟩ := hcell'
      refine ⟨⟨front ++ back, ⟨?_, hrest, fun a => ?_, fun a ha => ?_⟩⟩,
        ht ▸ rfl, ht ▸ rfl, ht ▸ rfl, fun x hx => ?_, fun c hc => ?_, fun p rest hrest hp => ?_⟩
      · rwa [hheap, hentry]
      · rw [hheap, hblocks a, hrep.blocks a, hmain', MainPc.freeing.injEq, addrs_append,
          addrs_append, addrs_cons, List.mem_append, List.mem_append, List.mem_cons]
        tauto
      · rw [hmain', MainPc.freeing.injEq] at ha
        subst ha
        refine ⟨hnew, fun cell b hlookup hnext => ?_⟩
        have hnotFront : curr ∉ addrs front := fun hmem =>
          hnew (addrs_append ▸ List.mem_append_left _ hmem)
        rw [hheap, hother curr hnotFront, hcell, Option.some.injEq] at hlookup
        rw [← hlookup] at hnext
        obtain rfl : next = some b := hnext
        obtain ⟨st', next'', rest, rfl, -, -⟩ := hback.exists_cons
        rw [addrs_append]
        exact List.mem_append_right _ List.mem_cons_self
      · rw [hremoved]
        exact List.mem_append_left _ hx
      · rw [hheap, hblocks c]
        exact iff_of_true hc (Option.some_ne_none c).symm
      · cases p with
        | none => exact ⟨[], rfl, hrest.none_iff.mp rfl ▸ .same rfl⟩
        | some c =>
          have hc : c ∈ addrs (front ++ (curr, st) :: back) :=
            (hrep.blocks c).mp ((hblocks c).mp (hheap ▸ hp c rfl))
          rw [hheap]
          refine chain_unlink hrep.linked hrep.distinct hlinked' hother ?_ hc hrest
          rw [hremoved]
          exact List.mem_append_right _ List.mem_cons_self
  · rw [if_neg hmain] at h
    exact absurd h.symm (Option.some_ne_none t)

/-- A step that frees a block which no other block leads to. -/
theorem MainEffect.of_erase {s t : State} {a : Action} {node : Addr}
    (hreader : t.reader = s.reader) (hreported : t.reported = s.reported)
    (htracked : t.tracked = s.tracked) (hremoved : ∀ x ∈ s.removed, x ∈ t.removed)
    (hheap : t.stations.heap = s.stations.heap.erase node) (hfreed : freed s a = some node)
    (hapart : ∀ c ∈ s.stations.heap, c ≠ node → ∀ rest,
      Linked s.stations.heap (some c) rest none → node ∉ addrs rest) : MainEffect s a t := by
  refine ⟨hreader, hreported, htracked, hremoved, fun c hc => ?_, fun p rest hrest hp => ?_⟩
  · rw [hheap, Finmap.mem_erase, hfreed, (Option.some_injective Addr).ne_iff]
    exact ⟨fun h => Ne.symm h.1, fun h => ⟨Ne.symm h, hc⟩⟩
  · cases p with
    | none => exact ⟨[], rfl, hrest.none_iff.mp rfl ▸ .same rfl⟩
    | some c =>
      have hc := hp c rfl
      rw [hheap, Finmap.mem_erase] at hc
      refine ⟨rest, ?_, .same rfl⟩
      rw [hheap]
      refine hrest.congr (fun x hx => Finmap.lookup_erase_ne (fun hxn => ?_))
      exact hapart c hc.2 hc.1 rest hrest (hxn ▸ hx)

theorem free_effect {s t : State} {cells : List (Addr × Station)} (hI : ListInv s cells)
    (h : step s .free = some t) : (∃ cells', ListInv t cells') ∧ MainEffect s .free t := by
  rw [step] at h
  cases hmain : s.main with
  | idle =>
    rw [hmain] at h
    exact absurd h.symm (Option.some_ne_none t)
  | clearing curr =>
    rw [hmain] at h
    exact absurd h.symm (Option.some_ne_none t)
  | freeing node =>
    rw [hmain] at h
    obtain ⟨heap, hfree, ht⟩ := Option.map_eq_some_iff.mp h
    obtain ⟨-, rfl⟩ := Option.ite_some_none_eq_some.mp hfree
    have hnot := (hI.pending node hmain).1
    have hmain' : t.main = .idle := by rw [← ht]
    have hheap : t.stations.heap = s.stations.heap.erase node := by rw [← ht]
    have hhead : t.stations.staMgrHead = s.entry := by rw [State.entry, hmain, ← ht]
    have hin : ∀ c, c ≠ node → (c ∈ s.stations.heap ↔ c ∈ addrs cells) := by
      intro c hc
      rw [hI.blocks c, hmain, MainPc.freeing.injEq]
      exact or_iff_left (fun hnode => hc hnode.symm)
    refine ⟨⟨cells, (listInv_iff_represents hmain').mpr ⟨?_, hI.distinct, fun c => ?_⟩⟩,
      .of_erase (ht ▸ rfl) (ht ▸ rfl) (ht ▸ rfl) (fun x hx => ht ▸ hx) hheap ?_ ?_⟩
    · rw [hheap, hhead]
      exact hI.linked.congr (fun x hx => Finmap.lookup_erase_ne (fun hxn => hnot (hxn ▸ hx)))
    · rw [hheap, Finmap.mem_erase]
      constructor
      · exact fun hc => (hin c hc.1).mp hc.2
      · intro hc
        have hne : c ≠ node := fun hcn => hnot (hcn ▸ hc)
        exact ⟨hne, (hin c hne).mpr hc⟩
    · rw [freed, hmain]
    · intro c hc hne rest hrest hmem
      have hsuffix := hI.linked.suffix ((hin c hne).mp hc) hrest
      exact hnot ((hsuffix.sublist.map Prod.fst).subset hmem)

theorem clear_effect {s t : State} {cells : List (Addr × Station)} (hI : ListInv s cells)
    (h : step s .clear = some t) : (∃ cells', ListInv t cells') ∧ MainEffect s .clear t := by
  rw [step] at h
  obtain ⟨hmain, ht⟩ := Option.ite_some_none_eq_some.mp h
  have hrep := (listInv_iff_represents hmain).mp hI
  have hmain' : t.main = .clearing s.stations.staMgrHead := by rw [← ht]
  have hnot : ∀ a, t.main ≠ .freeing a := by
    intro a
    rw [hmain']
    exact MainPc.noConfusion
  have hheap : t.stations.heap = s.stations.heap := by rw [← ht]
  refine ⟨⟨cells, ⟨?_, hrep.distinct, fun a => ?_, fun a ha => absurd ha (hnot a)⟩⟩,
    .of_heap_eq (ht ▸ rfl) (ht ▸ rfl) (ht ▸ rfl) (ht ▸ rfl) hheap rfl⟩
  · rw [State.entry, hmain', hheap]
    exact hrep.linked
  · rw [hheap, hrep.blocks a]
    exact (or_iff_left (hnot a)).symm

theorem clearNext_effect {s t : State} {cells : List (Addr × Station)} (hI : ListInv s cells)
    (h : step s .clearNext = some t) :
    (∃ cells', ListInv t cells') ∧ MainEffect s .clearNext t := by
  rw [step] at h
  cases hmain : s.main with
  | idle =>
    rw [hmain] at h
    exact absurd h.symm (Option.some_ne_none t)
  | freeing node =>
    rw [hmain] at h
    exact absurd h.symm (Option.some_ne_none t)
  | clearing curr =>
    rw [hmain] at h
    have hlinked := hI.linked
    rw [State.entry, hmain] at hlinked
    have hin : ∀ c, c ∈ s.stations.heap ↔ c ∈ addrs cells := by
      intro c
      rw [hI.blocks c, hmain]
      exact or_iff_left MainPc.noConfusion
    cases curr with
    | none =>
      have ht := Option.some.inj h
      have hheap : t.stations.heap = s.stations.heap := by rw [← ht]
      have hmain' : t.main = .idle := by rw [← ht]
      have hhead : t.stations.staMgrHead = none := by rw [← ht]
      refine ⟨⟨cells, (listInv_iff_represents hmain').mpr ⟨?_, hI.distinct, fun c => ?_⟩⟩,
        .of_heap_eq (ht ▸ rfl) (ht ▸ rfl) (ht ▸ rfl) (ht ▸ rfl) hheap ?_⟩
      · rwa [hheap, hhead]
      · rw [hheap]
        exact hin c
      · rw [freed, hmain]
    | some curr =>
      replace h : clearNext s (some curr) = some t := h
      rw [clearNext] at h
      obtain ⟨cell, hcell, h⟩ := Option.bind_eq_some_iff.mp h
      obtain ⟨heap, hfree, ht⟩ := Option.map_eq_some_iff.mp h
      obtain ⟨-, rfl⟩ := Option.ite_some_none_eq_some.mp hfree
      obtain ⟨st, next, rest, rfl, hcell', hrest⟩ := hlinked.exists_cons
      rw [hcell, Option.some.injEq] at hcell'
      subst hcell'
      obtain ⟨hnot, hdistinct⟩ := List.nodup_cons.mp hI.distinct
      have hheap : t.stations.heap = s.stations.heap.erase curr := by rw [← ht]
      have hmain' : t.main = .clearing next := by rw [← ht]
      have hidle : ∀ a, t.main ≠ .freeing a := by
        intro a
        rw [hmain']
        exact MainPc.noConfusion
      have hremoved : t.removed = s.removed ++ [curr] := by rw [← ht]
      refine ⟨⟨rest, ⟨?_, hdistinct, fun c => ?_, fun a ha => absurd ha (hidle a)⟩⟩,
        .of_erase (ht ▸ rfl) (ht ▸ rfl) (ht ▸ rfl) (fun x hx => ?_) hheap ?_ ?_⟩
      · rw [State.entry, hmain', hheap]
        exact hrest.congr (fun x hx => Finmap.lookup_erase_ne (fun hxn => hnot (hxn ▸ hx)))
      · rw [hheap, Finmap.mem_erase, hin c, addrs_cons, List.mem_cons, or_iff_left (hidle c)]
        constructor
        · exact fun hc => hc.2.resolve_left hc.1
        · exact fun hc => ⟨fun hcn => hnot (hcn ▸ hc), .inr hc⟩
      · rw [hremoved]
        exact List.mem_append_left _ hx
      · rw [freed, hmain]
      · intro c hc hne chain hchain hmem
        -- the chain starts behind the first node, so it does not meet it
        have hc' : c ∈ addrs rest := (List.mem_cons.mp ((hin c).mp hc)).resolve_left hne
        exact hnot (((hrest.suffix hc' hchain).sublist.map Prod.fst).subset hmem)

theorem main_effect {s t : State} {cells : List (Addr × Station)} {a : Action}
    (hread : ∀ fits, a ≠ .read fits) (hI : ListInv s cells) (h : step s a = some t) :
    (∃ cells', ListInv t cells') ∧ MainEffect s a t := by
  cases a with
  | add place env bssid => exact add_effect hI h
  | report bssid rssiDbm totalPkts => exact report_effect hI h
  | unlink bssid => exact unlink_effect hI h
  | free => exact free_effect hI h
  | clear => exact clear_effect hI h
  | clearNext => exact clearNext_effect hI h
  | read fits => exact absurd rfl (hread fits)

/-! ## The steps of the reader -/

/-- The pointers that the reader has and will follow. -/
def held : ReaderPc → List Addr
  | .enter _ curr => curr.toList
  | .counting _ walk curr => walk.toList ++ curr.toList
  | .record curr => curr.toList
  | .advance curr => [curr]
  | _ => []

/-- The reader has not followed a pointer to a freed block, and holds none. -/
def Safe (s : State) : Prop :=
  s.reader ≠ .faulted ∧ ∀ c ∈ held s.reader, c ∈ s.stations.heap

/-- The next step of the reader takes the head. -/
def loadsHead : ReaderPc → Bool
  | .start => true
  | .enter _ _ => true
  | _ => false

def takesHead (s : State) : Action → Bool
  | .read _ => loadsHead s.reader
  | _ => false

/-- No block is freed that the reader holds a pointer to, and no head is loaded that leads to
a freed block. -/
def KeepsHeld (s : State) (a : Action) : Prop :=
  (∀ c ∈ held s.reader, freed s a ≠ some c) ∧
    (takesHead s a = true → ∀ c ∈ s.stations.staMgrHead, c ∈ s.stations.heap)

instance (s : State) (a : Action) : Decidable (KeepsHeld s a) :=
  inferInstanceAs (Decidable (_ ∧ _))

theorem readStep_stations (fits : Bool) (s : State) :
    (readStep fits s).stations = s.stations ∧ (readStep fits s).main = s.main := by
  rw [readStep]
  split
  all_goals first
    | exact ⟨rfl, rfl⟩
    | (split <;> first | exact ⟨rfl, rfl⟩ | (split <;> exact ⟨rfl, rfl⟩))

theorem ListInv.congr {s t : State} {cells : List (Addr × Station)} (h : ListInv s cells)
    (hstations : t.stations = s.stations) (hmain : t.main = s.main) : ListInv t cells := by
  have hentry : t.entry = s.entry := by rw [State.entry, State.entry, hstations, hmain]
  refine ⟨?_, h.distinct, ?_, ?_⟩
  · rw [hstations, hentry]
    exact h.linked
  · rw [hstations, hmain]
    exact h.blocks
  · rw [hstations, hmain]
    exact h.pending

/-- A next pointer never leads out of the blocks in use. -/
theorem ListInv.next_mem {s : State} {cells : List (Addr × Station)} (h : ListInv s cells)
    {a : Addr} {cell : Cell Station} (hcell : s.stations.heap.lookup a = some cell) :
    ∀ b ∈ cell.next, b ∈ s.stations.heap := by
  intro b hb
  refine (h.blocks b).mpr (.inl ?_)
  rcases (h.blocks a).mp (Finmap.mem_of_lookup_eq_some hcell) with ha | ha
  · obtain ⟨⟨c, st⟩, hmem, rfl⟩ := List.mem_map.mp ha
    obtain ⟨front, back, rfl⟩ := List.append_of_mem hmem
    obtain ⟨-, -, -, next, hcell', hback⟩ := linked_append.mp h.linked
    rw [hcell, Option.some.injEq] at hcell'
    subst hcell'
    obtain rfl : next = some b := hb
    obtain ⟨st', next', rest, rfl, -, -⟩ := hback.exists_cons
    rw [addrs_append]
    exact List.mem_append_right _ (List.mem_cons_of_mem _ List.mem_cons_self)
  · exact (h.pending a ha).2 cell b hcell hb

theorem exists_lookup {h : Heap Station} {a : Addr} (ha : a ∈ h) : ∃ cell, h.lookup a = some cell :=
  Option.isSome_iff_exists.mp (Finmap.lookup_isSome.mpr ha)

theorem safe_readStep {s : State} {cells : List (Addr × Station)} (hI : ListInv s cells)
    (hsafe : Safe s) (fits : Bool) :
    Safe (readStep fits s) ↔
      (loadsHead s.reader = true → ∀ c ∈ s.stations.staMgrHead, c ∈ s.stations.heap) := by
  obtain ⟨hfault, hheld⟩ := hsafe
  cases hpc : s.reader with
  | start =>
    simp [readStep, hpc, Safe, held, loadsHead]
  | enter second curr =>
    rw [hpc] at hheld
    have hcurr : ∀ c ∈ curr, c ∈ s.stations.heap := fun c hc => hheld c (Option.mem_toList.mpr hc)
    simp only [readStep, hpc, Safe, held, loadsHead, List.mem_append, Option.mem_toList,
      forall_const]
    exact ⟨fun h c hc => h.2 c (.inl hc), fun h => ⟨ReaderPc.noConfusion, fun c hc =>
      hc.elim (h c) (hcurr c)⟩⟩
  | counting second walk curr =>
    rw [hpc] at hheld
    have hcurr : ∀ c ∈ curr, c ∈ s.stations.heap := fun c hc =>
      hheld c (List.mem_append_right _ (Option.mem_toList.mpr hc))
    refine iff_of_true ?_ (fun h => absurd h Bool.false_ne_true)
    cases walk with
    | none =>
      cases fits with
      | false => simp [readStep, hpc, Safe, held]
      | true => cases second <;> simpa [readStep, hpc, Safe, held] using hcurr
    | some walk =>
      obtain ⟨cell, hcell⟩ := exists_lookup (hheld walk List.mem_cons_self)
      simp only [readStep, hpc, hcell, Safe, held, List.mem_append, Option.mem_toList]
      exact ⟨ReaderPc.noConfusion, fun c hc => hc.elim (hI.next_mem hcell c) (hcurr c)⟩
  | record curr =>
    refine iff_of_true ?_ (fun h => absurd h Bool.false_ne_true)
    cases curr with
    | none => simp [readStep, hpc, Safe, held]
    | some curr =>
      rw [hpc] at hheld
      have hmem := hheld curr List.mem_cons_self
      obtain ⟨cell, hcell⟩ := exists_lookup hmem
      cases fits <;> simp [readStep, hpc, hcell, Safe, held, hmem]
  | advance curr =>
    rw [hpc] at hheld
    refine iff_of_true ?_ (fun h => absurd h Bool.false_ne_true)
    obtain ⟨cell, hcell⟩ := exists_lookup (hheld curr List.mem_cons_self)
    simp only [readStep, hpc, hcell, Safe, held, Option.mem_toList]
    exact ⟨ReaderPc.noConfusion, hI.next_mem hcell⟩
  | done complete =>
    refine iff_of_true ?_ (fun h => absurd h Bool.false_ne_true)
    simp [readStep, hpc, Safe, held]
  | faulted => exact absurd hpc hfault

theorem step_listInv {s t : State} {a : Action} (hI : ∃ cells, ListInv s cells)
    (h : step s a = some t) : ∃ cells, ListInv t cells := by
  obtain ⟨cells, hI⟩ := hI
  by_cases hread : ∃ fits, a = .read fits
  · obtain ⟨fits, rfl⟩ := hread
    obtain rfl := Option.some.inj h
    obtain ⟨hstations, hmain⟩ := readStep_stations fits s
    exact ⟨cells, hI.congr hstations hmain⟩
  · exact (main_effect (fun fits ha => hread ⟨fits, ha⟩) hI h).1

/-- A step keeps the reader safe exactly when it is one of those that keep what is held. -/
theorem step_safe_iff {s t : State} {a : Action} (hI : ∃ cells, ListInv s cells)
    (hsafe : Safe s) (h : step s a = some t) : Safe t ↔ KeepsHeld s a := by
  obtain ⟨cells, hI⟩ := hI
  by_cases hread : ∃ fits, a = .read fits
  · obtain ⟨fits, rfl⟩ := hread
    obtain rfl := Option.some.inj h
    rw [safe_readStep hI hsafe fits]
    constructor
    · exact fun hhead => ⟨fun c _ => (Option.some_ne_none c).symm, hhead⟩
    · exact fun hkeeps => hkeeps.2
  · have hmain := (main_effect (fun fits ha => hread ⟨fits, ha⟩) hI h).2
    rw [Safe, hmain.reader]
    constructor
    · intro ht
      refine ⟨fun c hc => (hmain.blocks c (hsafe.2 c hc)).mp (ht.2 c hc), fun htakes => ?_⟩
      cases a with
      | read fits => exact absurd ⟨fits, rfl⟩ hread
      | _ => exact absurd htakes Bool.false_ne_true
    · intro hkeeps
      exact ⟨hsafe.1, fun c hc => (hmain.blocks c (hsafe.2 c hc)).mpr (hkeeps.1 c hc)⟩

theorem init_listInv : ∃ cells, ListInv init cells :=
  ⟨[], (listInv_iff_represents rfl).mpr .empty⟩

theorem init_safe : Safe init := ⟨ReaderPc.noConfusion, fun _ hc => absurd hc List.not_mem_nil⟩

/-- A walk beside the main loop follows no pointer to a freed node, and holds none, in exactly
those runs in which no held node is freed and no dangling head is loaded. -/
theorem walk_safe_iff {acts : List Action} {s : State} (hrun : exec step init acts = some s) :
    Everywhere step Safe init acts ↔ Along step KeepsHeld init acts :=
  everywhere_iff_along (fun _ _ _ _ hI h => step_listInv hI h)
    (fun _ _ _ _ hI hsafe h => step_safe_iff hI hsafe h) init_listInv init_safe hrun

/-- A station joins, a client asks for the status, and the station leaves before the walk has
read its node. -/
def leaveUnderWalk : List Action :=
  [.add HeapDaemon.behind (Env.at 7) "a".toList, .read true, .unlink (.text "a".toList), .free]

/-- Nothing in the program keeps the main loop from this order. -/
theorem walk_safe_iff_leaveUnderWalk :
    ∃ s, exec step init leaveUnderWalk = some s ∧
      ¬Everywhere step Safe init leaveUnderWalk := by
  refine ⟨_, rfl, fun hsafe => ?_⟩
  have halong := (walk_safe_iff rfl).mp hsafe
  have hlast := (((halong.2 _ rfl).2 _ rfl).2 _ rfl).1
  exact hlast.1 1 List.mem_cons_self rfl

/-! ## What a walk reports -/

/-- The pointer that the loop over the stations goes on from, and how many of the nodes behind
it have been reported. -/
def position : ReaderPc → Option (Option Addr × Nat)
  | .enter _ curr => some (curr, 0)
  | .counting _ _ curr => some (curr, 0)
  | .record curr => some (curr, 0)
  | .advance curr => some (some curr, 1)
  | .done true => some (none, 0)
  | _ => none

/-- The records printed and those to come are nodes of the list that the walk began with, in
its order, and of these only nodes that were taken out are missing. -/
structure Accounts (reported tracked : List (Addr × CString)) (removed : List Addr)
    (left : List (Addr × CString)) : Prop where
  inOrder : (reported ++ left).Sublist tracked
  kept : ∀ c ∈ tracked, c.1 ∈ removed ∨ c ∈ reported ++ left

structure Walked (s : State) : Prop where
  distinct : (s.tracked.map Prod.fst).Nodup
  accounts : ∀ p k, position s.reader = some (p, k) →
    ∃ rest, Linked s.stations.heap p rest none ∧
      Accounts s.reported s.tracked s.removed ((view rest).drop k)

theorem mem_held_of_position {pc : ReaderPc} {c : Addr} {k : Nat}
    (h : position pc = some (some c, k)) : k ≤ 1 ∧ c ∈ held pc := by
  cases pc with
  | enter second curr =>
    obtain ⟨rfl, rfl⟩ := Prod.mk.inj (Option.some.inj h)
    exact ⟨Nat.zero_le 1, List.mem_cons_self⟩
  | counting second walk curr =>
    obtain ⟨rfl, rfl⟩ := Prod.mk.inj (Option.some.inj h)
    exact ⟨Nat.zero_le 1, List.mem_append_right _ List.mem_cons_self⟩
  | record curr =>
    obtain ⟨rfl, rfl⟩ := Prod.mk.inj (Option.some.inj h)
    exact ⟨Nat.zero_le 1, List.mem_cons_self⟩
  | advance curr =>
    obtain ⟨hc, rfl⟩ := Prod.mk.inj (Option.some.inj h)
    obtain rfl := Option.some.inj hc
    exact ⟨Nat.le_refl 1, List.mem_cons_self⟩
  | done complete =>
    cases complete with
    | false => exact absurd h.symm (Option.some_ne_none _)
    | true => exact absurd (Prod.mk.inj (Option.some.inj h)).1.symm (Option.some_ne_none c)
  | start => exact absurd h.symm (Option.some_ne_none _)
  | faulted => exact absurd h.symm (Option.some_ne_none _)

/-- What a cut leaves of the nodes to come. -/
theorem Cut.drop {removed : List Addr} {rest rest' : List (Addr × Station)}
    (h : Cut removed rest rest') {k : Nat} (hk : k ≤ 1) :
    ((view rest').drop k).Sublist ((view rest).drop k) ∧
      ∀ c ∈ (view rest).drop k, c.1 ∈ removed ∨ c ∈ (view rest').drop k := by
  cases h with
  | same h =>
    rw [h]
    exact ⟨List.Sublist.refl _, fun c hc => .inr hc⟩
  | out front back x hfront hrest hrest' hx =>
    subst hrest hrest'
    have hlen : k ≤ (view front).length := by
      rw [view, List.length_map]
      exact Nat.le_trans hk (List.length_pos_iff.mpr hfront)
    have hout : (view (front ++ x :: back)).drop k =
        (view front).drop k ++ (x.1, x.2.bssid) :: view back := by
      rw [view, List.map_append, List.map_cons, ← view, ← view,
        List.drop_append_of_le_length hlen]
    have hleft : (view (front ++ back)).drop k = (view front).drop k ++ view back := by
      rw [view, List.map_append, ← view, ← view, List.drop_append_of_le_length hlen]
    rw [hout, hleft]
    refine ⟨List.Sublist.append_left (List.sublist_cons_self _ _) _, fun c hc => ?_⟩
    rcases List.mem_append.mp hc with hc | hc
    · exact .inr (List.mem_append_left _ hc)
    · rcases List.mem_cons.mp hc with rfl | hc
      · exact .inl hx
      · exact .inr (List.mem_append_right _ hc)

theorem main_walked {s t : State} {a : Action} (hmain : MainEffect s a t) (hw : Walked s)
    (hsafe : Safe t) : Walked t := by
  refine ⟨hmain.tracked ▸ hw.distinct, fun p k hpos => ?_⟩
  rw [hmain.reader] at hpos
  obtain ⟨rest, hrest, hacc⟩ := hw.accounts p k hpos
  have hp : ∀ c, p = some c → c ∈ t.stations.heap := by
    rintro c rfl
    exact hsafe.2 c (hmain.reader ▸ (mem_held_of_position hpos).2)
  obtain ⟨rest', hrest', hcut⟩ := hmain.chain p rest hrest hp
  -- at the end of the list nothing is to come, and the number reported does not matter
  have hdrop : ((view rest').drop k).Sublist ((view rest).drop k) ∧
      ∀ c ∈ (view rest).drop k, c.1 ∈ t.removed ∨ c ∈ (view rest').drop k := by
    cases p with
    | none =>
      rw [hrest.none_iff.mp rfl, hrest'.none_iff.mp rfl]
      exact ⟨List.Sublist.refl _, fun c hc => .inr hc⟩
    | some c => exact hcut.drop (mem_held_of_position hpos).1
  refine ⟨rest', hrest', ?_, fun c hc => ?_⟩
  · rw [hmain.reported, hmain.tracked]
    exact (hdrop.1.append_left _).trans hacc.inOrder
  · rw [hmain.tracked] at hc
    rw [hmain.reported]
    rcases hacc.kept c hc with hgone | hc
    · exact .inl (hmain.removed c.1 hgone)
    · rcases List.mem_append.mp hc with hc | hc
      · exact .inr (List.mem_append_left _ hc)
      · exact (hdrop.2 c hc).imp_right (List.mem_append_right _)

/-- The head, when it does not dangle, leads through distinct nodes. -/
theorem ListInv.exists_chain {s : State} {cells : List (Addr × Station)} (h : ListInv s cells)
    (hhead : ∀ c ∈ s.stations.staMgrHead, c ∈ s.stations.heap) :
    ∃ rest, Linked s.stations.heap s.stations.staMgrHead rest none ∧ rest <:+ cells := by
  cases hmain : s.main with
  | idle =>
    have hlinked := h.linked
    rw [State.entry, hmain] at hlinked
    exact ⟨cells, hlinked, List.suffix_refl cells⟩
  | freeing node =>
    have hlinked := h.linked
    rw [State.entry, hmain] at hlinked
    exact ⟨cells, hlinked, List.suffix_refl cells⟩
  | clearing curr =>
    cases hfirst : s.stations.staMgrHead with
    | none => exact ⟨[], rfl, List.nil_suffix⟩
    | some c =>
      have hc : c ∈ addrs cells := by
        rcases (h.blocks c).mp (hhead c hfirst) with hc | hc
        · exact hc
        · rw [hmain] at hc
          exact MainPc.noConfusion hc
      obtain ⟨⟨d, st⟩, hmem, rfl⟩ := List.mem_map.mp hc
      obtain ⟨front, back, rfl⟩ := List.append_of_mem hmem
      obtain ⟨r, -, hback⟩ := linked_append.mp h.linked
      obtain rfl : r = some d := hback.1
      exact ⟨(d, st) :: back, hback, List.suffix_append front _⟩

theorem chainFrom_eq {h : Heap Station} {p : Option Addr} {cells : List (Addr × Station)}
    {fuel : Nat} (hlinked : Linked h p cells none) (hfuel : cells.length ≤ fuel) :
    chainFrom h fuel p = view cells := by
  induction cells generalizing p fuel with
  | nil =>
    obtain rfl : p = none := hlinked
    cases fuel <;> rfl
  | cons cell cells ih =>
    obtain ⟨a, st⟩ := cell
    obtain ⟨rfl, next, hcell, hrest⟩ := hlinked
    obtain ⟨fuel, rfl⟩ := Nat.exists_eq_add_one.mpr (Nat.zero_lt_of_lt hfuel)
    rw [chainFrom, hcell]
    dsimp only
    rw [ih hrest (Nat.le_of_succ_le_succ hfuel)]
    rfl

theorem ListInv.length_le_fuel {s : State} {cells : List (Addr × Station)} (h : ListInv s cells) :
    cells.length ≤ s.stations.fuel := by
  have hsub : (addrs cells).toFinset ⊆ s.stations.heap.keys := by
    intro a ha
    exact Finmap.mem_keys.mpr ((h.blocks a).mpr (.inl (List.mem_toFinset.mp ha)))
  have hcard := Finset.card_le_card hsub
  rwa [List.toFinset_card_of_nodup h.distinct, addrs, List.length_map] at hcard

/-- The reader moves on without a record. -/
theorem Walked.moved {s : State} (hw : Walked s) {pc : ReaderPc}
    (h : ∀ x, position pc = some x → position s.reader = some x) :
    Walked { s with reader := pc } :=
  ⟨hw.distinct, fun p k hpos => hw.accounts p k (h (p, k) hpos)⟩

theorem Walked.stopped {s : State} (hw : Walked s) {pc : ReaderPc} (h : position pc = none) :
    Walked { s with reader := pc } :=
  hw.moved (fun x hx => absurd (h.symm.trans hx).symm (Option.some_ne_none x))

theorem read_walked {s : State} {cells : List (Addr × Station)} (hI : ListInv s cells)
    (hw : Walked s) {fits : Bool} (hkeeps : KeepsHeld s (.read fits)) :
    Walked (readStep fits s) := by
  cases hpc : s.reader with
  | start =>
    obtain ⟨rest, hrest, hsuffix⟩ := hI.exists_chain (hkeeps.2 (by rw [takesHead, hpc, loadsHead]))
    have htracked : chainFrom s.stations.heap s.stations.fuel s.stations.staMgrHead = view rest :=
      chainFrom_eq hrest (Nat.le_trans hsuffix.length_le hI.length_le_fuel)
    have hdistinct : ((view rest).map Prod.fst).Nodup := by
      rw [view, List.map_map]
      exact (hsuffix.sublist.map Prod.fst).nodup hI.distinct
    simp only [readStep, hpc, htracked]
    refine ⟨hdistinct, fun p k hpos => ?_⟩
    obtain ⟨rfl, rfl⟩ := Prod.mk.inj (Option.some.inj hpos)
    exact ⟨rest, hrest, List.Sublist.refl _, fun c hc => .inr hc⟩
  | enter second curr =>
    simp only [readStep, hpc]
    exact hw.moved (fun x hx => hpc ▸ hx)
  | counting second walk curr =>
    cases walk with
    | none =>
      cases fits with
      | false =>
        simp only [readStep, hpc, Bool.false_eq_true, if_false]
        exact hw.stopped rfl
      | true =>
        simp only [readStep, hpc, if_true]
        refine hw.moved (fun x hx => ?_)
        rw [hpc]
        cases second <;> exact hx
    | some walk =>
      cases hcell : s.stations.heap.lookup walk with
      | none =>
        simp only [readStep, hpc, hcell]
        exact hw.stopped rfl
      | some cell =>
        simp only [readStep, hpc, hcell]
        exact hw.moved (fun x hx => hpc ▸ hx)
  | record curr =>
    cases curr with
    | none =>
      simp only [readStep, hpc]
      exact hw.moved (fun x hx => hpc ▸ hx)
    | some curr =>
      obtain ⟨rest, hrest, hacc⟩ := hw.accounts (some curr) 0 (hpc ▸ rfl)
      obtain ⟨st, next, rest, rfl, hcell, -⟩ := hrest.exists_cons
      cases fits with
      | false =>
        simp only [readStep, hpc, hcell, Bool.false_eq_true, if_false]
        exact hw.stopped rfl
      | true =>
        simp only [readStep, hpc, hcell, if_true]
        refine ⟨hw.distinct, fun p k hpos => ?_⟩
        obtain ⟨rfl, rfl⟩ := Prod.mk.inj (Option.some.inj hpos)
        -- the record goes from the nodes to come to those reported
        have hsame : s.reported ++ [(curr, st.bssid)] ++ (view ((curr, st) :: rest)).drop 1 =
            s.reported ++ (view ((curr, st) :: rest)).drop 0 :=
          List.append_assoc _ _ _
        refine ⟨(curr, st) :: rest, hrest, ?_, ?_⟩
        · rw [hsame]
          exact hacc.inOrder
        · rw [hsame]
          exact hacc.kept
  | advance curr =>
    obtain ⟨rest, hrest, hacc⟩ := hw.accounts (some curr) 1 (hpc ▸ rfl)
    obtain ⟨st, next, rest, rfl, hcell, hnext⟩ := hrest.exists_cons
    simp only [readStep, hpc, hcell]
    refine ⟨hw.distinct, fun p k hpos => ?_⟩
    obtain ⟨rfl, rfl⟩ := Prod.mk.inj (Option.some.inj hpos)
    exact ⟨rest, hnext, hacc⟩
  | done complete =>
    simp only [readStep, hpc]
    exact hw.stopped rfl
  | faulted =>
    simp only [readStep, hpc]
    exact hw

theorem init_walked : Walked init :=
  ⟨List.nodup_nil, fun _ _ hpos => absurd hpos.symm (Option.some_ne_none _)⟩

theorem step_walked {s t : State} {a : Action} (hkeeps : KeepsHeld s a)
    (hinv : (∃ cells, ListInv s cells) ∧ Safe s ∧ Walked s) (h : step s a = some t) :
    (∃ cells, ListInv t cells) ∧ Safe t ∧ Walked t := by
  obtain ⟨hI, hsafe, hw⟩ := hinv
  have hsafe' : Safe t := (step_safe_iff hI hsafe h).mpr hkeeps
  refine ⟨step_listInv hI h, hsafe', ?_⟩
  obtain ⟨cells, hI⟩ := hI
  by_cases hread : ∃ fits, a = .read fits
  · obtain ⟨fits, rfl⟩ := hread
    obtain rfl := Option.some.inj h
    exact read_walked hI hw hkeeps
  · exact main_walked (main_effect (fun fits ha => hread ⟨fits, ha⟩) hI h).2 hw hsafe'

/-- A walk that comes to the end of the list, in a run that frees nothing it holds, has
reported nodes of the list that it began with, in order and each once, and every one of them
that was not taken out meanwhile. -/
theorem walk_reports_kept {acts : List Action} {s : State}
    (hrun : exec step init acts = some s) (hkeeps : Along step KeepsHeld init acts)
    (hdone : s.reader = .done true) :
    s.reported.Sublist s.tracked ∧ (s.reported.map Prod.fst).Nodup ∧
      ∀ c ∈ s.tracked, c.1 ∉ s.removed → c ∈ s.reported := by
  obtain ⟨-, -, hw⟩ := exec_invariant_along (fun _ _ _ hok hinv h => step_walked hok hinv h)
    (And.intro init_listInv (And.intro init_safe init_walked)) hkeeps hrun
  obtain ⟨rest, hrest, hacc⟩ := hw.accounts none 0 (hdone ▸ rfl)
  obtain rfl := hrest.none_iff.mp rfl
  have hnil : s.reported ++ (view []).drop 0 = s.reported := List.append_nil _
  have hsub := hacc.inOrder
  rw [hnil] at hsub
  refine ⟨hsub, (hsub.map Prod.fst).nodup hw.distinct, fun c hc hnot => ?_⟩
  have hkept := (hacc.kept c hc).resolve_left hnot
  rwa [hnil] at hkept

/-- Two stations join.  While the walk is at the second, the first one leaves. -/
def leaveAheadOfWalk : List Action :=
  [.add HeapDaemon.behind (Env.at 7) "a".toList, .add HeapDaemon.behind (Env.at 8) "b".toList] ++
    List.replicate 10 (.read true) ++ [.unlink (.text "a".toList), .free, .read true, .read true]

theorem walk_reports_kept_leaveAheadOfWalk :
    ∃ s, exec step init leaveAheadOfWalk = some s ∧ s.removed = [1] ∧
      s.reported = [(2, "b".toList)] ∧
      ∀ c ∈ s.tracked, c.1 ∉ s.removed → c ∈ s.reported := by
  have hkeeps : Along step KeepsHeld init leaveAheadOfWalk := by decide +kernel
  exact ⟨_, rfl, rfl, rfl, (walk_reports_kept rfl hkeeps rfl).2.2⟩

end StatusWalk

end Wlinkd
end LinuxLab
