import LinuxLab.Wlinkd.Scenario

/-!
# wlan_core: the status text

`wlan_core_build_status` prints the access point, the number of stations and one
record for each of them, with a running offset into a buffer of a given size.
Between two prints the buffer holds what has been printed so far as a string, so a
print that does not fit leaves the cut at the end of the buffer, and the function
stops there.  The result is the text that a large enough buffer would hold, cut to
the size at hand.

The definitions of `WlanCore` are the functions of `wlan_core.c` without the prefix
`wlan_core_`.
-/

namespace LinuxLab
namespace Wlinkd

open Lib

namespace WlanCore

/-- The text of the first print. -/
def apSection (info : ApInfo) (count : Nat) : CString :=
  ["===== AP =====\nMODE=".toList, info.mode, "\nIFACE=".toList, info.iface,
    "\nIP=".toList, info.ip, "\nCHANNEL=".toList, info.channel,
    "\nBANDWIDTH=".toList, formatSigned info.bandwidthMhz,
    " MHz\nPHY_RATE=".toList, formatSigned info.phyRateMbps,
    " Mbps\nRSSI=".toList, formatSigned info.rssiDbm,
    " dBm\nSTA_COUNT=".toList, formatSigned count, "\n".toList].flatten

/-- The text of the second print. -/
def staHeader (count : Nat) : CString :=
  ["===== STA =====\nCOUNT=".toList, formatSigned count, "\n".toList].flatten

/-- The text printed for one station. -/
def record (sta : Station) : CString :=
  ["-----\nBSSID=".toList, sta.bssid, "\nRSSI=".toList, formatSigned sta.rssi,
    "\nPKTS=".toList, formatUnsigned sta.privPkts,
    "\nCONNECTED=".toList, formatSigned sta.assocTime, "\n".toList].flatten

/-- One print at the offset `pos`, with the test of its result.  The new offset is
missing when the text did not fit. -/
def printAt (mem : List Char) (size : Nat) (pos : Int) (text : CString) :
    List Char × Option Int :=
  let n := snprintfResult text
  let mem := snprintfAt mem pos.toNat (toSizeT (size - pos)) text
  if n < 0 ∨ toSizeT (size - pos) ≤ toSizeT n then (mem, none) else (mem, some (addInt pos n))

/-- The loop over the stations. -/
def recordLoop (size : Nat) : List Station → List Char → Int → List Char
  | [], mem, _ => mem
  | curr :: next, mem, pos =>
    if toSizeT pos < size then
      match printAt mem size pos (record curr) with
      | (mem, none) => mem
      | (mem, some pos) => recordLoop size next mem pos
    else mem

theorem recordLoop_nil (size : Nat) (mem : List Char) (pos : Int) :
    recordLoop size [] mem pos = mem := rfl

theorem recordLoop_cons {size : Nat} {pos : Int} (h : toSizeT pos < size) (curr : Station)
    (next : List Station) (mem : List Char) :
    recordLoop size (curr :: next) mem pos =
      match printAt mem size pos (record curr) with
      | (mem, none) => mem
      | (mem, some pos) => recordLoop size next mem pos :=
  if_pos h

/-- `wlan_core_build_status`.  `mem` has the cells from `buf` on.  The call of
`wlan_nl80211_get_ap_basic_info` fails for a null pointer only, so the branch that
fills in the defaults is never taken. -/
def buildStatus (d : Daemon) (mem : List Char) (size : Nat) : List Char :=
  match printAt mem size 0 (apSection d.apInfo (WlanStaMgr.count d.mgr)) with
  | (mem, none) => mem
  | (mem, some pos) =>
    match printAt mem size pos (staHeader (WlanStaMgr.count d.mgr)) with
    | (mem, none) => mem
    | (mem, some pos) => recordLoop size d.mgr.head mem pos

/-- The whole text, as a buffer without an end would hold it. -/
def statusText (d : Daemon) : CString :=
  apSection d.apInfo (WlanStaMgr.count d.mgr) ++ staHeader (WlanStaMgr.count d.mgr) ++
    d.mgr.head.flatMap record

/-! ## One print -/

/-- A text stored in `mem'` behind `text` leads to the same cells as one stored at
the start of `mem` with `text` in front of it. -/
def Continues (mem : List Char) (text : CString) (mem' : List Char) : Prop :=
  ∀ more, store mem' text.length more = store mem 0 (text ++ more)

theorem continues_nil (mem : List Char) : Continues mem [] mem := fun _ => rfl

theorem continues_store (mem : List Char) (text : CString) :
    Continues mem text (store mem 0 text) :=
  store_store mem text

theorem toSizeT_room {size pos : Nat} (hpos : pos < size) (hmax : size ≤ intMax) :
    toSizeT (size - pos : Int) = size - pos := by
  rw [← Int.natCast_sub (Nat.le_of_lt hpos)]
  exact toSizeT_natCast (Nat.le_trans (Nat.sub_le size pos) hmax)

theorem append_take_room {text more : CString} {size : Nat} (hpos : text.length < size) :
    text ++ snprintf (size - text.length) more = (text ++ more).take (size - 1) := by
  have htext : text.take (size - 1) = text := List.take_of_length_le (by omega)
  rw [snprintf, List.take_append, htext, Nat.sub_right_comm]

/-- The test of the result says whether the text fits with its terminator. -/
theorem fits_iff {text : CString} {room : Nat} (hroom : room ≤ intMax) :
    (snprintfResult text < 0 ∨ room ≤ toSizeT (snprintfResult text)) ↔ room ≤ text.length := by
  rw [snprintfResult]
  by_cases hlen : text.length ≤ intMax
  · rw [if_pos hlen, toSizeT_natCast hlen]
    exact or_iff_right (by omega)
  · rw [if_neg hlen]
    exact ⟨fun _ => by omega, fun _ => Or.inl (by decide)⟩

theorem printAt_eq {mem mem' : List Char} {size : Nat} {text : CString} (more : CString)
    (hcont : Continues mem text mem') (hpos : text.length < size) (hmax : size ≤ intMax) :
    printAt mem' size text.length more =
      (store mem 0 ((text ++ more).take (size - 1)),
        if (text ++ more).length < size then some ((text ++ more).length : Int) else none) := by
  have hroom : toSizeT (size - (text.length : Int)) = size - text.length :=
    toSizeT_room hpos hmax
  have hmem : snprintfAt mem' text.length (size - text.length) more =
      store mem 0 ((text ++ more).take (size - 1)) := by
    rw [snprintfAt, if_neg (by omega), hcont, append_take_room hpos]
  rw [printAt, hroom, Int.toNat_natCast, hmem, List.length_append]
  by_cases hfit : text.length + more.length < size
  · have hn : snprintfResult more = more.length := by
      rw [snprintfResult, if_pos (by omega)]
    rw [if_neg (fun h => by have := (fits_iff (by omega)).mp h; omega), if_pos hfit, hn,
      addInt_eq (by omega) (by omega), Int.natCast_add]
  · rw [if_pos ((fits_iff (by omega)).mpr (by omega)), if_neg hfit]

/-! ## The whole text -/

theorem take_append_of_full {size : Nat} (text rest : CString) (h : ¬text.length < size) :
    (text ++ rest).take (size - 1) = text.take (size - 1) :=
  List.take_append_of_le_length (Nat.le_trans (Nat.sub_le size 1) (Nat.not_lt.mp h))

/-- The loop extends the string in the buffer by one record after the other until the
first one that does not fit. -/
theorem recordLoop_eq (mem : List Char) {size : Nat} (hmax : size ≤ intMax) (l : List Station) :
    ∀ text : CString, text.length < size →
      recordLoop size l (store mem 0 text) text.length =
        store mem 0 ((text ++ l.flatMap record).take (size - 1)) := by
  induction l with
  | nil =>
    intro text hpos
    rw [recordLoop_nil, List.flatMap_nil, List.append_nil, List.take_of_length_le (by omega)]
  | cons curr next ih =>
    intro text hpos
    have hlt : toSizeT text.length < size := by rwa [toSizeT_natCast (by omega)]
    rw [recordLoop_cons hlt, printAt_eq (record curr) (continues_store mem text) hpos hmax,
      List.flatMap_cons, ← List.append_assoc]
    by_cases hfit : (text ++ record curr).length < size
    · rw [if_pos hfit]
      dsimp only
      rw [List.take_of_length_le (Nat.le_sub_one_of_lt hfit)]
      exact ih (text ++ record curr) hfit
    · rw [if_neg hfit]
      dsimp only
      rw [take_append_of_full _ _ hfit]

theorem buildStatus_eq (d : Daemon) (mem : List Char) {size : Nat} (hpos : 0 < size)
    (hmax : size ≤ intMax) :
    buildStatus d mem size = store mem 0 ((statusText d).take (size - 1)) := by
  unfold buildStatus statusText
  generalize apSection d.apInfo (WlanStaMgr.count d.mgr) = ap
  generalize staHeader (WlanStaMgr.count d.mgr) = header
  have hap := printAt_eq ap (continues_nil mem) hpos hmax
  rw [List.nil_append, List.length_nil, Int.natCast_zero] at hap
  rw [hap]
  by_cases hfit : ap.length < size
  · rw [if_pos hfit]
    dsimp only
    rw [List.take_of_length_le (Nat.le_sub_one_of_lt hfit),
      printAt_eq header (continues_store mem ap) hfit hmax]
    by_cases hfit₂ : (ap ++ header).length < size
    · rw [if_pos hfit₂]
      dsimp only
      rw [List.take_of_length_le (Nat.le_sub_one_of_lt hfit₂)]
      exact recordLoop_eq mem hmax d.mgr.head (ap ++ header) hfit₂
    · rw [if_neg hfit₂]
      dsimp only
      rw [take_append_of_full _ _ hfit₂]
  · rw [if_neg hfit]
    dsimp only
    rw [List.append_assoc, take_append_of_full _ _ hfit]

/-- For every size that an `int` offset can reach, the buffer holds the whole text cut
to one byte less than the size, and a terminator; what is behind the terminator, and
so everything from `buf + size` on, is as it was. -/
theorem buildStatus_clean_cut (d : Daemon) (mem : List Char) {size : Nat} (hpos : 1 ≤ size)
    (hmax : size ≤ 2 ^ 31 - 1) :
    ∃ text, text = (statusText d).take (min (size - 1) (statusText d).length) ∧
      text.length = min (size - 1) (statusText d).length ∧
      buildStatus d mem size = text ++ nul :: mem.drop (text.length + 1) ∧
      (buildStatus d mem size).drop size = mem.drop size := by
  have htake : (statusText d).take (min (size - 1) (statusText d).length) =
      (statusText d).take (size - 1) := by
    rw [← List.take_take, List.take_length]
  have hlength : ((statusText d).take (size - 1)).length =
      min (size - 1) (statusText d).length := List.length_take
  have heq := buildStatus_eq d mem hpos hmax
  refine ⟨_, htake.symm, hlength, ?_, ?_⟩
  · rw [heq, store_zero]
  · rw [heq, drop_store_zero mem (by omega)]

theorem buildStatus_clean_cut_serving :
    ∃ text, text <+: statusText serving ∧ text.length ≤ 39 ∧
      buildStatus serving (List.replicate 50 '#') 40 =
        text ++ nul :: (List.replicate 50 '#').drop (text.length + 1) := by
  obtain ⟨text, htext, hlength, hcells, -⟩ :=
    buildStatus_clean_cut serving (List.replicate 50 '#') (by decide : 1 ≤ 40) (by decide)
  exact ⟨text, htext ▸ List.take_prefix _ _, hlength ▸ Nat.min_le_left _ _, hcells⟩

end WlanCore
end Wlinkd
end LinuxLab
