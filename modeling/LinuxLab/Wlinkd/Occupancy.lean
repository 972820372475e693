import LinuxLab.Drivers.LedGpio
import LinuxLab.Wlinkd.StationMap

/-!
# The LED messages follow the list

The messages that the daemon pushes to its subscribers, written one by one to the
LED device, leave the LEDs on while there is a station and off when there is none.
`Tracks` says this for a piece of a run: from LEDs that show the list before, the
messages of the piece lead to LEDs that show the list after.  It composes, and
every change of the list has it.
-/

namespace LinuxLab
namespace Wlinkd

open Relation Lib LedGpio WlanUtils WlanNl80211

def ipcMessage : Output → Option StaEvent
  | .ipcPush msg => some msg
  | _ => none

/-- The messages passed to `ipc_push_event`, oldest first. -/
def ipcMessages (out : List Output) : List StaEvent := out.filterMap ipcMessage

def writeEvent (s : LedDriver) (e : StaEvent) : LedDriver := writeText e.line s

def writeEvents (events : List StaEvent) (s : LedDriver) : LedDriver := events.foldl writeEvent s

/-- The LEDs are on when there is a station and off when there is none. -/
def Shows (s : LedDriver) (l : List Station) : Prop :=
  (l ≠ [] → AllOn s) ∧ (l = [] → AllOff s)

/-- The messages of a piece of a run keep the LEDs in step with the list. -/
def Tracks (m m' : StaMgr) : Prop :=
  ∃ new, m'.out = m.out ++ new ∧
    ∀ s, Shows s m.head → Shows (writeEvents (ipcMessages new) s) m'.head

theorem ipcMessages_append (out new : List Output) :
    ipcMessages (out ++ new) = ipcMessages out ++ ipcMessages new := List.filterMap_append

theorem writeEvents_append (e₁ e₂ : List StaEvent) (s : LedDriver) :
    writeEvents (e₁ ++ e₂) s = writeEvents e₂ (writeEvents e₁ s) := List.foldl_append

theorem shows_writeEvent_join (s : LedDriver) {l : List Station} (h : l ≠ []) :
    Shows (writeEvent s .staJoin) l :=
  ⟨fun _ => allOn_write_join rfl s, fun he => absurd he h⟩

theorem shows_writeEvent_traffic (s : LedDriver) {l : List Station} (h : l ≠ []) :
    Shows (writeEvent s .traffic) l :=
  ⟨fun _ => allOn_write_traffic rfl s, fun he => absurd he h⟩

theorem shows_writeEvent_leave (s : LedDriver) : Shows (writeEvent s .staLeave) [] :=
  ⟨fun h => absurd rfl h, fun _ => allOff_write_leave rfl s⟩

theorem shows_of_ne_nil {s : LedDriver} {l l' : List Station} (h : Shows s l) (hl : l ≠ [])
    (hl' : l' ≠ []) : Shows s l' :=
  ⟨fun _ => h.1 hl, fun he => absurd he hl'⟩

theorem tracks_refl (m : StaMgr) : Tracks m m := ⟨[], by simp, fun _ h => h⟩

theorem tracks_trans {m₁ m₂ m₃ : StaMgr} (h₁ : Tracks m₁ m₂) (h₂ : Tracks m₂ m₃) :
    Tracks m₁ m₃ := by
  obtain ⟨new₁, hout₁, hshow₁⟩ := h₁
  obtain ⟨new₂, hout₂, hshow₂⟩ := h₂
  refine ⟨new₁ ++ new₂, by rw [hout₂, hout₁, List.append_assoc], fun s hs => ?_⟩
  rw [ipcMessages_append, writeEvents_append]
  exact hshow₂ _ (hshow₁ s hs)

theorem ne_nil_of_mem_bssids {m : StaMgr} {b : CString} (h : b ∈ m.bssids) : m.head ≠ [] := by
  intro hnil
  rw [StaMgr.bssids, hnil] at h
  simp at h

theorem tracks_grow {m m' : StaMgr} (hg : Grow m m') : Tracks m m' := by
  cases hg with
  | quiet => exact tracks_refl m
  | join mac st hst hnew =>
    exact ⟨arrival st, rfl, fun s _ => shows_writeEvent_join s (List.cons_ne_nil st m.head)⟩
  | seen b r p busy htracked =>
    have hbefore : m.head ≠ [] := ne_nil_of_mem_bssids htracked
    have hafter : reportTo b r p m.head ≠ [] := by
      intro hnil
      have hmap := bssids_reportTo b r p m.head
      rw [hnil, List.map_nil, eq_comm, List.map_eq_nil_iff] at hmap
      exact hbefore hmap
    refine ⟨_, rfl, fun s hs => ?_⟩
    cases busy with
    | true => exact shows_writeEvent_traffic s hafter
    | false => exact shows_of_ne_nil hs hbefore hafter

theorem ipcMessages_departures (l : List Station) : ipcMessages (l.flatMap departure) = [] := by
  induction l with
  | nil => rfl
  | cons st l ih =>
    rw [List.flatMap_cons, ipcMessages_append, ih]
    rfl

/-- Stations went, and the LED-off message was pushed exactly when none is left. -/
theorem shows_ledOff {s : LedDriver} {l l' : List Station} (hs : Shows s l) (hl : l ≠ []) :
    Shows (writeEvents (ipcMessages (if l' = [] then [.ipcPush .staLeave] else [])) s) l' := by
  by_cases hnil : l' = []
  · rw [if_pos hnil, hnil]
    exact shows_writeEvent_leave s
  · rw [if_neg hnil]
    exact shows_of_ne_nil hs hl hnil

theorem tracks_change {m m' : StaMgr} (hc : Change m m') : Tracks m m' := by
  cases hc with
  | grow hg => exact tracks_grow hg
  | del mac =>
    by_cases htracked : bssidText mac ∈ m.bssids
    · rw [delStationEvent_tracked htracked]
      refine ⟨_, List.append_assoc _ _ _, fun s hs => ?_⟩
      exact shows_ledOff hs (ne_nil_of_mem_bssids htracked)
    · rw [delStationEvent_untracked htracked]
      refine ⟨_, List.append_assoc _ _ _, fun s hs => ?_⟩
      by_cases hnil : m.head = []
      · simp only [hnil, if_true]
        exact shows_writeEvent_leave s
      · simp only [hnil, if_false]
        exact hs
  | remove bssids count =>
    rw [removeSta_eq]
    refine ⟨_, List.append_assoc _ _ _, fun s hs => ?_⟩
    rw [ipcMessages_append, ipcMessages_departures, List.nil_append]
    by_cases hnil : m.head = []
    · simp only [hnil, ne_eq, not_true_eq_false, false_and, if_false, List.filter_nil]
      rw [hnil] at hs
      exact hs
    · simp only [hnil, ne_eq, not_false_eq_true, true_and]
      exact shows_ledOff hs hnil

theorem tracks_mainStep {d d' : Daemon} {x : MainStep} (h : mainStep d x = some d') :
    Tracks d.mgr d'.mgr :=
  reflTransGen_invariant (I := Tracks d.mgr) (fun _ _ hm hc => tracks_trans hm (tracks_change hc))
    (mainStep_changes h) (tracks_refl d.mgr)

/-- After every run from the empty list, the messages pushed so far, written to the
LED device one by one from LEDs that are off, leave all four LEDs on if there is a
station and all four off if there is none. -/
theorem leds_follow_occupancy {d d' : Daemon} {xs : List MainStep} {s : LedDriver}
    (hinit : d.mgr = WlanStaMgr.init) (hoff : AllOff s) (hrun : exec mainStep d xs = some d') :
    (d'.mgr.head ≠ [] → AllOn (writeEvents (ipcMessages d'.mgr.out) s)) ∧
      (d'.mgr.head = [] → AllOff (writeEvents (ipcMessages d'.mgr.out) s)) := by
  have htracks : Tracks WlanStaMgr.init d'.mgr := by
    refine exec_invariant (I := fun d => Tracks WlanStaMgr.init d.mgr)
      (fun d x d' hd hstep => tracks_trans hd (tracks_mainStep hstep)) ?_ hrun
    rw [hinit]
    exact tracks_refl _
  obtain ⟨new, hout, hshow⟩ := htracks
  rw [hout]
  exact hshow s ⟨fun h => absurd rfl h, fun _ => hoff⟩

/-- Two stations leave one after the other, and the LEDs go off with the second one. -/
theorem leds_follow_occupancy_twoJoin :
    ∃ d' d'', exec mainStep (boot "wlan0".toList 3 28) (twoJoin ++ [leaves 10 1]) = some d' ∧
      AllOn (writeEvents (ipcMessages d'.mgr.out) ⟨false, false, false, false, .wait⟩) ∧
      exec mainStep (boot "wlan0".toList 3 28) (twoJoin ++ [leaves 10 1, leaves 11 2]) = some d'' ∧
      AllOff (writeEvents (ipcMessages d''.mgr.out) ⟨false, false, false, false, .wait⟩) := by
  obtain ⟨d', hone⟩ : ∃ d', exec mainStep (boot "wlan0".toList 3 28) (twoJoin ++ [leaves 10 1]) =
      some d' := ⟨_, rfl⟩
  obtain ⟨d'', htwo⟩ : ∃ d'', exec mainStep (boot "wlan0".toList 3 28)
      (twoJoin ++ [leaves 10 1, leaves 11 2]) = some d'' := ⟨_, rfl⟩
  have hhead : d'.mgr.head ≠ [] := by
    obtain rfl := Option.some.inj hone
    exact List.cons_ne_nil _ _
  have hempty : d''.mgr.head = [] := by
    obtain rfl := Option.some.inj htwo
    rfl
  exact ⟨d', d'', hone, (leds_follow_occupancy rfl ⟨rfl, rfl, rfl, rfl⟩ hone).1 hhead, htwo,
    (leds_follow_occupancy rfl ⟨rfl, rfl, rfl, rfl⟩ htwo).2 hempty⟩

end Wlinkd
end LinuxLab
