import LinuxLab.Lib.CString
import Mathlib.Algebra.Order.Ring.Int
import Mathlib.Tactic.Positivity

/-!
# Expressions over `int`

A C expression over `int`, of 32 bits, has two values: `value`, over the unbounded
integers, and `run`, where every operation wraps as the compiled code does.  They agree
when no intermediate result leaves the range of `int`, and the intermediate results are
the values of `subterms`.
-/

namespace LinuxLab
namespace Lib

def InInt (n : Int) : Prop := -2147483648 ≤ n ∧ n ≤ 2147483647

instance (n : Int) : Decidable (InInt n) := inferInstanceAs (Decidable (_ ∧ _))

/-- The `int` that the machine keeps of a result. -/
def wrapInt (n : Int) : Int := n.bmod 4294967296

theorem wrapInt_eq {n : Int} (h : InInt n) : wrapInt n = n := by
  unfold InInt at h
  rw [wrapInt, Int.bmod_eq_of_le (by omega) (by omega)]

theorem inInt_wrapInt (n : Int) : InInt (wrapInt n) := by
  have hle := @Int.le_bmod n 4294967296 (by decide)
  have hlt := @Int.bmod_lt n 4294967296 (by decide)
  unfold InInt wrapInt
  omega

inductive IntExpr (ν : Type) where
  | lit (n : Int)
  | var (x : ν)
  | add (a b : IntExpr ν)
  | sub (a b : IntExpr ν)
  | mul (a b : IntExpr ν)
  | shl (a : IntExpr ν) (k : Nat)
  | shr (a : IntExpr ν) (k : Nat)

namespace IntExpr

variable {ν : Type}

instance : Add (IntExpr ν) := ⟨add⟩
instance : Sub (IntExpr ν) := ⟨sub⟩
instance : Mul (IntExpr ν) := ⟨mul⟩
instance : HShiftLeft (IntExpr ν) Nat (IntExpr ν) := ⟨shl⟩
instance : HShiftRight (IntExpr ν) Nat (IntExpr ν) := ⟨shr⟩

/-- The value over the unbounded integers.  A shift to the right rounds down. -/
def value (ρ : ν → Int) : IntExpr ν → Int
  | lit n => n
  | var x => ρ x
  | add a b => value ρ a + value ρ b
  | sub a b => value ρ a - value ρ b
  | mul a b => value ρ a * value ρ b
  | shl a k => value ρ a <<< k
  | shr a k => value ρ a >>> k

/-- The value that the machine computes. -/
def run (ρ : ν → Int) : IntExpr ν → Int
  | lit n => wrapInt n
  | var x => wrapInt (ρ x)
  | add a b => wrapInt (run ρ a + run ρ b)
  | sub a b => wrapInt (run ρ a - run ρ b)
  | mul a b => wrapInt (run ρ a * run ρ b)
  | shl a k => wrapInt (run ρ a <<< k)
  | shr a k => wrapInt (run ρ a >>> k)

def subterms : IntExpr ν → List (IntExpr ν)
  | lit n => [lit n]
  | var x => [var x]
  | add a b => add a b :: (subterms a ++ subterms b)
  | sub a b => sub a b :: (subterms a ++ subterms b)
  | mul a b => mul a b :: (subterms a ++ subterms b)
  | shl a k => shl a k :: subterms a
  | shr a k => shr a k :: subterms a

/-- `P` holds of every intermediate result. -/
def All (P : IntExpr ν → Prop) (e : IntExpr ν) : Prop := ∀ t ∈ e.subterms, P t

/-- No intermediate result overflows. -/
def Fits (ρ : ν → Int) (e : IntExpr ν) : Prop := e.All (fun t => InInt (t.value ρ))

variable {ρ : ν → Int} {a b e : IntExpr ν} {k : Nat}

theorem value_mul : (a * b).value ρ = a.value ρ * b.value ρ := rfl

theorem value_shl : (a <<< k).value ρ = a.value ρ <<< k := rfl

theorem value_shr : (a >>> k).value ρ = a.value ρ >>> k := rfl

/-! ## Intermediate results -/

section All

variable {P : IntExpr ν → Prop}

theorem all_leaf (he : e.subterms = [e]) (h : P e) : e.All P := by
  unfold All
  rw [he]
  exact List.forall_mem_singleton.mpr h

theorem All.pair (he : e.subterms = e :: (a.subterms ++ b.subterms)) :
    e.All P ↔ P e ∧ a.All P ∧ b.All P := by
  unfold All
  rw [he, List.forall_mem_cons, List.forall_mem_append]

theorem All.single (he : e.subterms = e :: a.subterms) : e.All P ↔ P e ∧ a.All P := by
  unfold All
  rw [he, List.forall_mem_cons]

theorem all_lit {n : Int} (h : P (lit n)) : (lit n).All P := all_leaf rfl h

theorem all_var {x : ν} (h : P (var x)) : (var x).All P := all_leaf rfl h

theorem All.add (ha : a.All P) (hb : b.All P) (h : P (a + b)) : (a + b).All P :=
  (All.pair rfl).mpr ⟨h, ha, hb⟩

theorem All.sub (ha : a.All P) (hb : b.All P) (h : P (a - b)) : (a - b).All P :=
  (All.pair rfl).mpr ⟨h, ha, hb⟩

theorem All.mul (ha : a.All P) (hb : b.All P) (h : P (a * b)) : (a * b).All P :=
  (All.pair rfl).mpr ⟨h, ha, hb⟩

theorem All.shl (ha : a.All P) (h : P (a <<< k)) : (a <<< k).All P :=
  (All.single rfl).mpr ⟨h, ha⟩

theorem All.shr (ha : a.All P) (h : P (a >>> k)) : (a >>> k).All P :=
  (All.single rfl).mpr ⟨h, ha⟩

end All

theorem inInt_run (e : IntExpr ν) : InInt (e.run ρ) := by
  cases e <;> exact inInt_wrapInt _

theorem Fits.inInt (h : Fits ρ e) : InInt (e.value ρ) := by
  have hself : e ∈ e.subterms := by cases e <;> exact List.mem_cons_self
  exact h e hself

/-- Without overflow the machine computes the value over the unbounded integers. -/
theorem run_eq_value (h : Fits ρ e) : e.run ρ = e.value ρ := by
  induction e with
  | lit n => exact wrapInt_eq h.inInt
  | var x => exact wrapInt_eq h.inInt
  | add a b iha ihb =>
    obtain ⟨-, ha, hb⟩ := (All.pair rfl).mp h
    rw [run, iha ha, ihb hb]
    exact wrapInt_eq h.inInt
  | sub a b iha ihb =>
    obtain ⟨-, ha, hb⟩ := (All.pair rfl).mp h
    rw [run, iha ha, ihb hb]
    exact wrapInt_eq h.inInt
  | mul a b iha ihb =>
    obtain ⟨-, ha, hb⟩ := (All.pair rfl).mp h
    rw [run, iha ha, ihb hb]
    exact wrapInt_eq h.inInt
  | shl a k ih =>
    obtain ⟨-, ha⟩ := (All.single rfl).mp h
    rw [run, ih ha]
    exact wrapInt_eq h.inInt
  | shr a k ih =>
    obtain ⟨-, ha⟩ := (All.single rfl).mp h
    rw [run, ih ha]
    exact wrapInt_eq h.inInt

/-! ## Bounds of the values -/

/-- The value over the unbounded integers is at most `B`, in absolute value. -/
def Bounded (ρ : ν → Int) (B : Int) (e : IntExpr ν) : Prop := |e.value ρ| ≤ B

namespace Bounded

variable {A B : Int}

theorem inInt (h : Bounded ρ B e) (hB : B ≤ 2147483647) : InInt (e.value ρ) := by
  have habs := abs_le.mp h
  unfold InInt
  omega

theorem mono (h : Bounded ρ A e) (hle : A ≤ B) : Bounded ρ B e := le_trans h hle

theorem add (ha : Bounded ρ A a) (hb : Bounded ρ B b) : Bounded ρ (A + B) (a + b) :=
  le_trans (abs_add_le _ _) (add_le_add ha hb)

theorem sub (ha : Bounded ρ A a) (hb : Bounded ρ B b) : Bounded ρ (A + B) (a - b) :=
  le_trans (abs_sub _ _) (add_le_add ha hb)

theorem mul (ha : Bounded ρ A a) (hb : Bounded ρ B b) : Bounded ρ (A * B) (a * b) := by
  unfold Bounded
  rw [value_mul, abs_mul]
  exact mul_le_mul ha hb (abs_nonneg _) (le_trans (abs_nonneg _) ha)

theorem shl (ha : Bounded ρ A a) (k : Nat) : Bounded ρ (A * 2 ^ k) (a <<< k) := by
  unfold Bounded
  rw [value_shl, Int.shiftLeft_eq, abs_mul, abs_of_pos (by positivity : (0 : Int) < 2 ^ k)]
  exact mul_le_mul_of_nonneg_right ha (by positivity)

theorem shr {k : Nat} (ha : Bounded ρ (B * 2 ^ k) a) : Bounded ρ B (a >>> k) := by
  have hpos : (0 : Int) < 2 ^ k := by positivity
  obtain ⟨hlow, hhigh⟩ := abs_le.mp ha
  unfold Bounded
  rw [value_shr, Int.shiftRight_eq_div_pow, Nat.cast_pow, Nat.cast_ofNat, abs_le]
  constructor
  · rw [Int.le_ediv_iff_mul_le hpos, neg_mul]
    exact hlow
  · exact Int.ediv_le_of_le_mul hpos hhigh

end Bounded

end IntExpr
end Lib
end LinuxLab
