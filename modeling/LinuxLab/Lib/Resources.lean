import Mathlib.Data.Multiset.AddSub

/-!
# Acquired and released resources

A ledger records what a call does to the resources of the system: all that are held, the
ones among them that the call itself has acquired, and whether it released one that it had
not acquired.  A release undoes the acquisition before it and passes by the others, so the
ledger of an unwinding is found by rewriting.

What a release does that finds nothing to release is for the system to say.  It is a
parameter: the release is harmless, or it counts as one of something not acquired.
-/

namespace LinuxLab
namespace Lib

structure Ledger (ρ : Type) where
  held : Multiset ρ
  own : Multiset ρ
  stray : Bool

/-- The call itself has acquired everything in the list. -/
def Ledger.Holds {ρ : Type} (l : Ledger ρ) (needed : List ρ) : Prop := ∀ r ∈ needed, r ∈ l.own

/-- A call that returns an error leaves what it found, and released nothing else; a call
that returns 0 holds what it needs. -/
structure AllOrNothing {ρ : Type} (needed : List ρ) (before : Multiset ρ)
    (result : Int × Ledger ρ) : Prop where
  nothing : result.1 ≠ 0 → result.2.held = before ∧ result.2.stray = false
  all : result.1 = 0 → result.2.Holds needed

namespace Ledger

variable {ρ : Type}

/-- The ledger of a call that has acquired nothing. -/
def start (before : Multiset ρ) : Ledger ρ := ⟨before, 0, false⟩

def acquire (r : ρ) (l : Ledger ρ) : Ledger ρ := ⟨r ::ₘ l.held, r ::ₘ l.own, l.stray⟩

/-- Acquire, when the call that does so succeeds. -/
def acquireIf (p : Prop) [Decidable p] (r : ρ) (l : Ledger ρ) : Ledger ρ :=
  if p then l.acquire r else l

theorem acquireIf_of_pos {p : Prop} [Decidable p] (hp : p) {r : ρ} {l : Ledger ρ} :
    l.acquireIf p r = l.acquire r := if_pos hp

theorem mem_own_acquire {r s : ρ} {l : Ledger ρ} :
    r ∈ (l.acquire s).own ↔ r = s ∨ r ∈ l.own := Multiset.mem_cons

theorem mem_own_acquireIf {p : Prop} [Decidable p] {r s : ρ} {l : Ledger ρ} :
    r ∈ (l.acquireIf p s).own ↔ p ∧ r = s ∨ r ∈ l.own := by
  unfold acquireIf
  split
  · next hp => rw [mem_own_acquire, and_iff_right hp]
  · next hp => rw [or_iff_right (fun h => hp h.1)]

/-- The first of the list is what was acquired last. -/
theorem holds_acquire {s : ρ} {needed : List ρ} (h : s ∉ needed) {l : Ledger ρ} :
    (l.acquire s).Holds (s :: needed) ↔ l.Holds needed := by
  constructor
  · intro hl r hr
    exact (mem_own_acquire.mp (hl r (List.mem_cons_of_mem s hr))).resolve_left (fun e => h (e ▸ hr))
  · intro hl r hr
    rw [mem_own_acquire]
    exact (List.mem_cons.mp hr).imp_right (hl r)

theorem holds_acquireIf {p : Prop} [Decidable p] {s : ρ} {needed : List ρ} (h : s ∉ needed)
    {l : Ledger ρ} (hs : s ∉ l.own) :
    (l.acquireIf p s).Holds (s :: needed) ↔ p ∧ l.Holds needed := by
  unfold acquireIf
  split
  · next hp => rw [holds_acquire h, and_iff_right hp]
  · next hp =>
    exact iff_of_false (fun hl => hs (hl s List.mem_cons_self)) (fun hl => hp hl.1)

theorem notMem_own_start {r : ρ} {before : Multiset ρ} : r ∉ (start before).own :=
  Multiset.notMem_zero r

/-- What is held are the resources held before and those of the call. -/
def Over (before : Multiset ρ) (l : Ledger ρ) : Prop := l.held = before + l.own

theorem over_start (before : Multiset ρ) : Over before (start before) :=
  (Multiset.add_zero before).symm

theorem Over.acquire {before : Multiset ρ} {l : Ledger ρ} (h : Over before l) (r : ρ) :
    Over before (l.acquire r) := by
  show r ::ₘ l.held = before + r ::ₘ l.own
  rw [h, Multiset.add_cons]

theorem Over.acquireIf {before : Multiset ρ} {l : Ledger ρ} (h : Over before l) (p : Prop)
    [Decidable p] (r : ρ) : Over before (l.acquireIf p r) := by
  unfold Ledger.acquireIf
  split
  · exact h.acquire r
  · exact h

theorem Over.held_ne {before : Multiset ρ} {l : Ledger ρ} (h : Over before l) {r : ρ}
    (hr : r ∈ l.own) : l.held ≠ before := by
  intro heq
  have hcard := congrArg Multiset.card heq
  have hpos : 0 < l.own.card := Multiset.card_pos_iff_exists_mem.mpr ⟨r, hr⟩
  rw [h, Multiset.card_add] at hcard
  omega

section

variable [DecidableEq ρ]

def release (r : ρ) (l : Ledger ρ) : Ledger ρ :=
  ⟨l.held.erase r, l.own.erase r, l.stray || !decide (r ∈ l.own)⟩

/-- Release, when there is something to release. -/
def releaseOr (p : Prop) [Decidable p] (harmless : Bool) (r : ρ) (l : Ledger ρ) : Ledger ρ :=
  if p then l.release r else if harmless then l else { l with stray := true }

@[simp] theorem release_acquire (r : ρ) (l : Ledger ρ) : (l.acquire r).release r = l := by
  unfold acquire release
  simp

theorem release_acquire_of_ne {r s : ρ} (h : r ≠ s) (l : Ledger ρ) :
    (l.acquire s).release r = (l.release r).acquire s := by
  unfold acquire release
  simp [Multiset.erase_cons_tail, h, h.symm]

theorem release_acquireIf_of_ne {p : Prop} [Decidable p] {r s : ρ} (h : r ≠ s) (l : Ledger ρ) :
    (l.acquireIf p s).release r = (l.release r).acquireIf p s := by
  unfold acquireIf
  split
  · exact release_acquire_of_ne h l
  · rfl

section

variable {p : Prop} [Decidable p] {harmless : Bool} {r s : ρ} {l : Ledger ρ}

theorem releaseOr_of_pos (hp : p) : l.releaseOr p harmless r = l.release r := if_pos hp

theorem releaseOr_of_harmless (hp : ¬p) (h : harmless = true) : l.releaseOr p harmless r = l := by
  rw [releaseOr, if_neg hp, if_pos h]

/-- A conditional release undoes the acquisition on the same condition. -/
theorem releaseOr_acquireIf (h : p ∨ harmless = true) :
    (l.acquireIf p r).releaseOr p harmless r = l := by
  by_cases hp : p
  · rw [acquireIf_of_pos hp, releaseOr_of_pos hp, release_acquire]
  · rw [releaseOr_of_harmless hp (h.resolve_left hp), acquireIf, if_neg hp]

theorem releaseOr_acquire_of_ne (h : r ≠ s) :
    (l.acquire s).releaseOr p harmless r = (l.releaseOr p harmless r).acquire s := by
  unfold releaseOr
  split
  · exact release_acquire_of_ne h l
  · split <;> rfl

theorem releaseOr_acquireIf_of_ne {q : Prop} [Decidable q] (h : r ≠ s) :
    (l.acquireIf q s).releaseOr p harmless r = (l.releaseOr p harmless r).acquireIf q s := by
  unfold acquireIf
  split
  · exact releaseOr_acquire_of_ne h
  · rfl

end

/-- A release of what the call has not acquired is never made good. -/
theorem stray_release {r : ρ} {l : Ledger ρ} :
    (l.release r).stray = true ↔ l.stray = true ∨ r ∉ l.own := by
  rw [release, Bool.or_eq_true, Bool.not_eq_true', decide_eq_false_iff_not]

theorem stray_releaseOr {p : Prop} [Decidable p] {harmless : Bool} {r : ρ} {l : Ledger ρ}
    (h : l.stray = true ∨ ¬(p ∨ harmless = true)) : (l.releaseOr p harmless r).stray = true := by
  unfold releaseOr
  split
  · next hp => exact stray_release.mpr (.inl (h.resolve_right (not_not.mpr (.inl hp))))
  · split
    · next hharmless => exact h.resolve_right (not_not.mpr (.inr hharmless))
    · rfl

end

end Ledger
end Lib
end LinuxLab
