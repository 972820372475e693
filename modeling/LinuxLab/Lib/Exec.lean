import Mathlib.Data.List.Basic
import Mathlib.Logic.Relation

/-!
# Runs of a partial transition function

A machine is a function `step : σ → α → Option σ`.  The answer `none` says that
the action is not enabled in the state, or that it never completes.  `exec` runs
a list of actions, `Along` says that every action of the run meets a side
condition in the state where it is taken, and `Everywhere` says that a property
holds in every state the run reaches.

The rules below are the only inductions over runs that the development makes:
an invariant is proved for one step and lifted here.
-/

namespace LinuxLab
namespace Lib

variable {σ α : Type}

/-- Run a list of actions.  The run is defined when every action of it is. -/
def exec (step : σ → α → Option σ) : σ → List α → Option σ
  | s, [] => some s
  | s, a :: as =>
    match step s a with
    | none => none
    | some t => exec step t as

/-- Every action of the run is taken in a state that admits it. -/
def Along (step : σ → α → Option σ) (ok : σ → α → Prop) : σ → List α → Prop
  | _, [] => True
  | s, a :: as => ok s a ∧ ∀ t, step s a = some t → Along step ok t as

/-- `P` holds in every state that the run reaches, the first one included. -/
def Everywhere (step : σ → α → Option σ) (P : σ → Prop) (s : σ) (as : List α) : Prop :=
  ∀ front back t, as = front ++ back → exec step s front = some t → P t

variable {step : σ → α → Option σ}

@[simp] theorem exec_nil (s : σ) : exec step s [] = some s := rfl

theorem exec_cons {s t u : σ} {a : α} {as : List α} (ht : step s a = some t)
    (hrun : exec step t as = some u) : exec step s (a :: as) = some u := by
  rw [exec, ht]
  exact hrun

theorem exists_step_of_exec {s u : σ} {a : α} {as : List α}
    (hrun : exec step s (a :: as) = some u) :
    ∃ t, step s a = some t ∧ exec step t as = some u := by
  rw [exec] at hrun
  cases ht : step s a with
  | none =>
    rw [ht] at hrun
    exact absurd hrun nofun
  | some t =>
    rw [ht] at hrun
    exact ⟨t, rfl, hrun⟩

theorem exists_exec_of_append {s u : σ} {as bs : List α}
    (hrun : exec step s (as ++ bs) = some u) :
    ∃ t, exec step s as = some t ∧ exec step t bs = some u := by
  induction as generalizing s with
  | nil => exact ⟨s, rfl, hrun⟩
  | cons a as ih =>
    obtain ⟨v, hv, hrest⟩ := exists_step_of_exec hrun
    obtain ⟨t, ht, hbs⟩ := ih hrest
    exact ⟨t, exec_cons hv ht, hbs⟩

theorem along_cons {ok : σ → α → Prop} {s t : σ} {a : α} {as : List α} (ht : step s a = some t)
    (ha : ok s a) (has : Along step ok t as) : Along step ok s (a :: as) := by
  refine ⟨ha, fun u hu => ?_⟩
  rw [ht, Option.some.injEq] at hu
  exact hu ▸ has

/-- Whether a given run is admitted can be computed. -/
instance decidableAlong {ok : σ → α → Prop} [∀ s a, Decidable (ok s a)] :
    ∀ (s : σ) (as : List α), Decidable (Along step ok s as)
  | _, [] => isTrue trivial
  | s, a :: as =>
    match h : step s a with
    | none => decidable_of_iff (ok s a)
        ⟨fun ha => ⟨ha, fun _ ht => absurd (h.symm.trans ht).symm (Option.some_ne_none _)⟩,
          fun has => has.1⟩
    | some t =>
      have : Decidable (Along step ok t as) := decidableAlong t as
      decidable_of_iff (ok s a ∧ Along step ok t as)
        ⟨fun has => along_cons h has.1 has.2, fun has => ⟨has.1, has.2 t h⟩⟩

theorem along_append {ok : σ → α → Prop} {s : σ} {as bs : List α}
    (has : Along step ok s as) (hbs : ∀ t, exec step s as = some t → Along step ok t bs) :
    Along step ok s (as ++ bs) := by
  induction as generalizing s with
  | nil => exact hbs s rfl
  | cons a as ih =>
    exact ⟨has.1, fun t ht => ih (has.2 t ht) (fun u hu => hbs u (exec_cons ht hu))⟩

theorem Along.front {ok : σ → α → Prop} {s : σ} {as bs : List α}
    (h : Along step ok s (as ++ bs)) : Along step ok s as := by
  induction as generalizing s with
  | nil => trivial
  | cons a as ih => exact ⟨h.1, fun t ht => ih (h.2 t ht)⟩

theorem along_of_forall {ok : σ → α → Prop} {as : List α} (h : ∀ a ∈ as, ∀ s, ok s a) (s : σ) :
    Along step ok s as := by
  induction as generalizing s with
  | nil => trivial
  | cons a as ih =>
    exact ⟨h a List.mem_cons_self s, fun t _ => ih (fun b hb => h b (List.mem_cons_of_mem a hb)) t⟩

/-- What one admitted step preserves, a run of admitted steps preserves. -/
theorem exec_invariant_along {ok : σ → α → Prop} {I : σ → Prop}
    (hstep : ∀ s a t, ok s a → I s → step s a = some t → I t)
    {s t : σ} {as : List α} (hs : I s) (hok : Along step ok s as)
    (hrun : exec step s as = some t) : I t := by
  induction as generalizing s with
  | nil =>
    rw [exec_nil, Option.some.injEq] at hrun
    exact hrun ▸ hs
  | cons a as ih =>
    obtain ⟨v, hv, hrest⟩ := exists_step_of_exec hrun
    exact ih (hstep s a v hok.1 hs hv) (hok.2 v hv) hrest

theorem exec_invariant {I : σ → Prop} (hstep : ∀ s a t, I s → step s a = some t → I t)
    {s t : σ} {as : List α} (hs : I s) (hrun : exec step s as = some t) : I t := by
  have hall : Along step (fun _ _ => True) s as := along_of_forall (fun _ _ _ => trivial) s
  exact exec_invariant_along (fun s a t _ => hstep s a t) hs hall hrun

/-- What one step preserves of the state and the actions so far, a run preserves. -/
theorem exec_history {I : List α → σ → Prop} {ok : α → Prop}
    (hstep : ∀ front s a t, ok a → I front s → step s a = some t → I (front ++ [a]) t)
    {front as : List α} {s t : σ} (hs : I front s) (hok : ∀ a ∈ as, ok a)
    (hrun : exec step s as = some t) : I (front ++ as) t := by
  induction as generalizing front s with
  | nil =>
    rw [exec_nil, Option.some.injEq] at hrun
    rw [List.append_nil]
    exact hrun ▸ hs
  | cons a as ih =>
    obtain ⟨v, hv, hrest⟩ := exists_step_of_exec hrun
    have hv' := hstep front s a v (hok a List.mem_cons_self) hs hv
    rw [List.append_cons]
    exact ih hv' (fun b hb => hok b (List.mem_cons_of_mem a hb)) hrest

theorem Everywhere.start {P : σ → Prop} {s : σ} {as : List α} (h : Everywhere step P s as) :
    P s :=
  h [] as s rfl rfl

theorem Everywhere.tail {P : σ → Prop} {s t : σ} {a : α} {as : List α}
    (h : Everywhere step P s (a :: as)) (ht : step s a = some t) : Everywhere step P t as := by
  intro front back u hsplit hu
  exact h (a :: front) back u (by rw [hsplit, List.cons_append]) (exec_cons ht hu)

theorem Everywhere.mono {P Q : σ → Prop} {s : σ} {as : List α} (h : Everywhere step P s as)
    (hPQ : ∀ t, P t → Q t) : Everywhere step Q s as :=
  fun front back t hsplit ht => hPQ t (h front back t hsplit ht)

/-- What one admitted step preserves holds in every state of an admitted run. -/
theorem everywhere_of_along {ok : σ → α → Prop} {I : σ → Prop}
    (hstep : ∀ s a t, ok s a → I s → step s a = some t → I t) {s : σ} {as : List α} (hs : I s)
    (hok : Along step ok s as) : Everywhere step I s as := by
  rintro front back t rfl hrun
  exact exec_invariant_along hstep hs hok.front hrun

theorem everywhere_cons {P : σ → Prop} {s t : σ} {a : α} {as : List α}
    (hs : P s) (ht : step s a = some t) (h : Everywhere step P t as) :
    Everywhere step P s (a :: as) := by
  intro front back u hsplit hu
  cases front with
  | nil =>
    rw [exec_nil, Option.some.injEq] at hu
    exact hu ▸ hs
  | cons b front =>
    obtain ⟨rfl, hrest⟩ := List.cons.inj hsplit
    obtain ⟨v, hv, hvu⟩ := exists_step_of_exec hu
    rw [ht, Option.some.injEq] at hv
    subst hv
    exact h front back u hrest hvu

/-- A property that a step keeps exactly when the step is admitted holds in every
state of a run exactly when the whole run is admitted.  `I` is an invariant that
the steps keep in any case. -/
theorem everywhere_iff_along {ok : σ → α → Prop} {I P : σ → Prop} {as : List α} {s u : σ}
    (hI : ∀ s, ∀ a ∈ as, ∀ t, I s → step s a = some t → I t)
    (hP : ∀ s, ∀ a ∈ as, ∀ t, I s → P s → step s a = some t → (P t ↔ ok s a))
    (hs : I s) (hp : P s) (hrun : exec step s as = some u) :
    Everywhere step P s as ↔ Along step ok s as := by
  induction as generalizing s with
  | nil =>
    refine ⟨fun _ => trivial, fun _ front back t hsplit ht => ?_⟩
    obtain ⟨rfl, -⟩ := List.append_eq_nil_iff.mp hsplit.symm
    rw [exec_nil, Option.some.injEq] at ht
    exact ht ▸ hp
  | cons a as ih =>
    obtain ⟨v, hv, hrest⟩ := exists_step_of_exec hrun
    have hvI : I v := hI s a List.mem_cons_self v hs hv
    have hvP : P v ↔ ok s a := hP s a List.mem_cons_self v hs hp hv
    have htail : P v → (Everywhere step P v as ↔ Along step ok v as) := fun hpv =>
      ih (fun s b hb => hI s b (List.mem_cons_of_mem a hb))
        (fun s b hb => hP s b (List.mem_cons_of_mem a hb)) hvI hpv hrest
    constructor
    · intro h
      have hpv : P v := (h.tail hv).start
      refine ⟨hvP.mp hpv, fun t ht => ?_⟩
      rw [hv, Option.some.injEq] at ht
      exact ht ▸ (htail hpv).mp (h.tail hv)
    · intro h
      have hpv : P v := hvP.mpr h.1
      exact everywhere_cons hp hv ((htail hpv).mpr (h.2 v hv))

/-- A part of the state that only some actions change, and these by themselves, is run
by those actions alone. -/
theorem exec_project {τ : Type} (view : σ → τ) {vstep : τ → α → Option τ} {p : α → Bool}
    (hseen : ∀ s a t, p a = true → step s a = some t → vstep (view s) a = some (view t))
    (hother : ∀ s a t, p a = false → step s a = some t → view t = view s)
    {s t : σ} {as : List α} (hrun : exec step s as = some t) :
    exec vstep (view s) (as.filter p) = some (view t) := by
  induction as generalizing s with
  | nil =>
    rw [exec_nil, Option.some.injEq] at hrun
    rw [hrun, List.filter_nil, exec_nil]
  | cons a as ih =>
    obtain ⟨v, hv, hrest⟩ := exists_step_of_exec hrun
    cases hp : p a with
    | true =>
      rw [List.filter_cons_of_pos hp]
      exact exec_cons (hseen s a v hp hv) (ih hrest)
    | false =>
      rw [List.filter_cons_of_neg (by simp [hp]), ← hother s a v hp hv]
      exact ih hrest

theorem foldl_reflTransGen {τ : Type} (view : σ → τ) {R : τ → τ → Prop} {f : σ → α → σ}
    (hf : ∀ s a, R (view s) (view (f s a))) (as : List α) (s : σ) :
    Relation.ReflTransGen R (view s) (view (as.foldl f s)) := by
  induction as generalizing s with
  | nil => exact .refl
  | cons a as ih => exact .head (hf s a) (ih (f s a))

theorem foldl_unchanged {τ : Type} (view : σ → τ) {f : σ → α → σ} {as : List α}
    (hf : ∀ a ∈ as, ∀ s, view (f s a) = view s) (s : σ) : view (as.foldl f s) = view s := by
  induction as generalizing s with
  | nil => rfl
  | cons a as ih =>
    rw [List.foldl_cons, ih (fun b hb => hf b (List.mem_cons_of_mem a hb)),
      hf a List.mem_cons_self]

theorem reflTransGen_invariant {R : σ → σ → Prop} {I : σ → Prop}
    (hR : ∀ s t, I s → R s t → I t) {s t : σ} (h : Relation.ReflTransGen R s t) (hs : I s) :
    I t := by
  induction h with
  | refl => exact hs
  | tail _ hstep ih => exact hR _ _ ih hstep

end Lib
end LinuxLab
