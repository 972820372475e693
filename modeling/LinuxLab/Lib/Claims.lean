import Mathlib.Logic.Function.Basic

/-!
# Exclusive claims

Places that may each hold one claim to a resource.  `Exclusive` says that the claims are to
exactly the resources in use, and no two of them to the same.  Such a table changes in three
ways: a claim to a new resource is granted, a claim moves from one place to another, and a
claim is released together with its resource.
-/

namespace LinuxLab
namespace Lib

variable {ι ρ : Type} [DecidableEq ι]

/-- Every resource in use is claimed, every claim is to one in use, and no two places have
the same. -/
structure Exclusive (claim : ι → Option ρ) (inUse : ρ → Prop) : Prop where
  valid : ∀ i r, claim i = some r → inUse r
  owned : ∀ r, inUse r → ∃ i, claim i = some r
  single : ∀ i j r, claim i = some r → claim j = some r → i = j

variable {claim : ι → Option ρ} {inUse inUse' : ρ → Prop} {i j : ι} {r : ρ}

theorem update_eq_some {x : Option ρ} {k : ι} {q : ρ}
    (h : Function.update claim i x k = some q) :
    (k = i ∧ x = some q) ∨ (k ≠ i ∧ claim k = some q) := by
  by_cases hk : k = i
  · subst hk
    rw [Function.update_self] at h
    exact .inl ⟨rfl, h⟩
  · rw [Function.update_of_ne hk] at h
    exact .inr ⟨hk, h⟩

namespace Exclusive

theorem grant (h : Exclusive claim inUse) (hfree : claim i = none) (hnew : ¬inUse r)
    (hinUse : ∀ q, inUse' q ↔ q = r ∨ inUse q) :
    Exclusive (Function.update claim i (some r)) inUse' := by
  refine ⟨fun k q hk => ?_, fun q hq => ?_, fun k l q hk hl => ?_⟩
  · rcases update_eq_some hk with ⟨-, hq⟩ | ⟨-, hk⟩
    · exact (hinUse q).mpr (.inl (Option.some.inj hq).symm)
    · exact (hinUse q).mpr (.inr (h.valid k q hk))
  · rcases (hinUse q).mp hq with rfl | hq
    · exact ⟨i, Function.update_self i _ claim⟩
    · obtain ⟨k, hk⟩ := h.owned q hq
      have hki : k ≠ i := by
        rintro rfl
        rw [hfree] at hk
        exact Option.some_ne_none q hk.symm
      exact ⟨k, by rw [Function.update_of_ne hki, hk]⟩
  · rcases update_eq_some hk with ⟨hki, hq⟩ | ⟨-, hold⟩
    · rcases update_eq_some hl with ⟨hli, -⟩ | ⟨-, hold⟩
      · rw [hki, hli]
      · exact absurd (Option.some.inj hq ▸ h.valid l q hold) hnew
    · rcases update_eq_some hl with ⟨-, hq⟩ | ⟨-, hold'⟩
      · exact absurd (Option.some.inj hq ▸ h.valid k q hold) hnew
      · exact h.single k l q hold hold'

theorem release (h : Exclusive claim inUse) (hi : claim i = some r)
    (hinUse : ∀ q, inUse' q ↔ q ≠ r ∧ inUse q) :
    Exclusive (Function.update claim i none) inUse' := by
  refine ⟨fun k q hk => ?_, fun q hq => ?_, fun k l q hk hl => ?_⟩
  · rcases update_eq_some hk with ⟨-, hq⟩ | ⟨hki, hk⟩
    · exact absurd hq.symm (Option.some_ne_none q)
    · refine (hinUse q).mpr ⟨fun hqr => hki ?_, h.valid k q hk⟩
      exact h.single k i r (hqr ▸ hk) hi
  · obtain ⟨hqr, hq⟩ := (hinUse q).mp hq
    obtain ⟨k, hk⟩ := h.owned q hq
    have hki : k ≠ i := by
      rintro rfl
      exact hqr (Option.some.inj (hk.symm.trans hi))
    exact ⟨k, by rw [Function.update_of_ne hki, hk]⟩
  · rcases update_eq_some hk with ⟨-, hq⟩ | ⟨-, hk⟩
    · exact absurd hq.symm (Option.some_ne_none q)
    · rcases update_eq_some hl with ⟨-, hq⟩ | ⟨-, hl⟩
      · exact absurd hq.symm (Option.some_ne_none q)
      · exact h.single k l q hk hl

/-- A claim goes from `i` to the place `j`, which has none. -/
theorem move (h : Exclusive claim inUse) (hi : claim i = some r) (hj : claim j = none) :
    Exclusive (Function.update (Function.update claim i none) j (some r)) inUse := by
  have hfree : Function.update claim i none j = none := by
    by_cases hji : j = i
    · rw [hji, Function.update_self]
    · rw [Function.update_of_ne hji, hj]
  have hout : Exclusive (Function.update claim i none) (fun q => q ≠ r ∧ inUse q) :=
    h.release hi (fun _ => Iff.rfl)
  refine hout.grant hfree (fun hr => hr.1 rfl) (fun q => ?_)
  constructor
  · intro hq
    by_cases hqr : q = r
    · exact .inl hqr
    · exact .inr ⟨hqr, hq⟩
  · rintro (rfl | hq)
    · exact h.valid i q hi
    · exact hq.2

end Exclusive

end Lib
end LinuxLab
