import LinuxLab.Drivers.Transfers
import LinuxLab.Lib.Rounding
import Mathlib.Data.Nat.Bitwise

/-!
# The compensation formula

The formula of `read_temperature` is computed in `int`, for any 20-bit sample and any
calibration words.  Only its three products can leave the range of `int`; when they do not,
the result is the formula over the unbounded integers, and it is within 2, in hundredths of
a degree, of the formula over the rationals.
-/

namespace LinuxLab
namespace SensorSpi

open Lib
open Lib.IntExpr (var lit)

/-! ## Samples and calibration words -/

theorem rawTemp_eq (b₀ b₁ b₂ : UInt8) (rest : List UInt8) :
    rawTemp (b₀ :: b₁ :: b₂ :: rest) = b₀.toNat * 4096 + b₁.toNat * 16 + b₂.toNat / 16 := by
  have h₁ := b₁.toNat_lt
  have h₂ := b₂.toNat_lt
  have hlow : b₁.toNat <<< 8 ||| b₂.toNat = b₁.toNat <<< 8 + b₂.toNat :=
    (Nat.shiftLeft_add_eq_or_of_lt h₂ b₁.toNat).symm
  have hlt : b₁.toNat <<< 8 + b₂.toNat < 2 ^ 16 := by
    rw [Nat.shiftLeft_eq]
    omega
  show (((b₀.toNat <<< 16 ||| b₁.toNat <<< 8 ||| b₂.toNat) >>> 4 : Nat) : Int) = _
  rw [Nat.lor_assoc, hlow, ← Nat.shiftLeft_add_eq_or_of_lt hlt, Nat.shiftRight_eq_div_pow,
    Nat.shiftLeft_eq, Nat.shiftLeft_eq]
  omega

theorem rawTemp_range (b₀ b₁ b₂ : UInt8) :
    0 ≤ rawTemp [b₀, b₁, b₂] ∧ rawTemp [b₀, b₁, b₂] < 1048576 := by
  have h₀ := b₀.toNat_lt
  have h₁ := b₁.toNat_lt
  have h₂ := b₂.toNat_lt
  rw [rawTemp_eq]
  omega

/-- Every 20-bit number is the sample of some three bytes. -/
theorem exists_rawTemp {raw : Int} (h : 0 ≤ raw ∧ raw < 1048576) :
    ∃ b₀ b₁ b₂ : UInt8, rawTemp [b₀, b₁, b₂] = raw := by
  refine ⟨UInt8.ofNat (raw.toNat / 4096), UInt8.ofNat (raw.toNat / 16 % 256),
    UInt8.ofNat (raw.toNat % 16 * 16), ?_⟩
  rw [rawTemp_eq, UInt8.toNat_ofNat', UInt8.toNat_ofNat', UInt8.toNat_ofNat']
  omega

theorem calibWord_eq (calib : UInt8 × UInt8) :
    calibWord calib = calib.2.toNat * 256 + calib.1.toNat := by
  have h := calib.1.toNat_lt
  rw [calibWord, Nat.lor_comm, ← Nat.shiftLeft_add_eq_or_of_lt h, Nat.shiftLeft_eq]

theorem exists_calibWord {n : Nat} (h : n < 65536) : ∃ calib, calibWord calib = n := by
  refine ⟨(UInt8.ofNat (n % 256), UInt8.ofNat (n / 256)), ?_⟩
  rw [calibWord_eq, UInt8.toNat_ofNat', UInt8.toNat_ofNat']
  omega

/-- `k_module_init` can load every calibration. -/
theorem exists_loadCalibration (c : Calibration) :
    ∃ calib1 calib2 calib3, loadCalibration calib1 calib2 calib3 = c := by
  have hu16 : ∀ n : Int, 0 ≤ n ∧ n < 65536 → ∃ calib, toU16 (calibWord calib) = n := by
    intro n hn
    obtain ⟨calib, hcalib⟩ := exists_calibWord (n := n.toNat) (by omega)
    refine ⟨calib, ?_⟩
    rw [hcalib, toU16]
    omega
  have hs16 : ∀ n : Int, -32768 ≤ n ∧ n < 32768 → ∃ calib, toS16 (calibWord calib) = n := by
    intro n hn
    obtain ⟨calib, hcalib⟩ := exists_calibWord (n := (n % 65536).toNat) (by omega)
    refine ⟨calib, ?_⟩
    rw [hcalib, toS16, Int.toNat_of_nonneg (by omega)]
    show (n % ((65536 : Nat) : Int)).bmod 65536 = n
    rw [Int.emod_bmod, Int.bmod_eq_of_le (by omega) (by omega)]
  obtain ⟨calib1, h1⟩ := hu16 c.digT1 c.digT1_u16
  obtain ⟨calib2, h2⟩ := hs16 c.digT2 c.digT2_s16
  obtain ⟨calib3, h3⟩ := hs16 c.digT3 c.digT3_s16
  refine ⟨calib1, calib2, calib3, ?_⟩
  cases c
  simp only [loadCalibration, Calibration.mk.injEq]
  exact ⟨h1, h2, h3⟩

/-! ## Overflow -/

/-- The first product of `var1`. -/
def linearProduct : IntExpr Var := (var .rawTemp >>> 3 - var .digT1 <<< 1) * var .digT2

/-- The square in `var2`. -/
def square : IntExpr Var := (var .rawTemp >>> 4 - var .digT1) * (var .rawTemp >>> 4 - var .digT1)

def quadraticProduct : IntExpr Var := square >>> 12 * var .digT3

def products : List (IntExpr Var) := [linearProduct, square, quadraticProduct]

/-- The expression is one of the products, or its value is in the range of `int`. -/
def ProductOrFits (ρ : Var → Int) (t : IntExpr Var) : Prop := t ∈ products ∨ InInt (t.value ρ)

theorem ProductOrFits.product {ρ : Var → Int} {t : IntExpr Var} (h : t ∈ products) :
    ProductOrFits ρ t := .inl h

theorem ProductOrFits.bounded {ρ : Var → Int} {B : Int} {t : IntExpr Var}
    (h : IntExpr.Bounded ρ B t) (hB : B ≤ 2147483647) : ProductOrFits ρ t := .inr (h.inInt hB)

/-- No value of the variable is further from zero. -/
def limit : Var → Int
  | .rawTemp => 1048576
  | .digT1 => 65536
  | .digT2 | .digT3 => 32768

section

variable (c : Calibration) {raw : Int} (hraw : 0 ≤ raw ∧ raw < 1048576)
include hraw

theorem bounded_var (x : Var) : IntExpr.Bounded (c.env raw) (limit x) (var x) := by
  cases x with
  | rawTemp => exact abs_le.mpr (show -1048576 ≤ raw ∧ raw ≤ 1048576 by omega)
  | digT1 =>
    have h := c.digT1_u16
    exact abs_le.mpr (show -65536 ≤ c.digT1 ∧ c.digT1 ≤ 65536 by omega)
  | digT2 =>
    have h := c.digT2_s16
    exact abs_le.mpr (show -32768 ≤ c.digT2 ∧ c.digT2 ≤ 32768 by omega)
  | digT3 =>
    have h := c.digT3_s16
    exact abs_le.mpr (show -32768 ≤ c.digT3 ∧ c.digT3 ≤ 32768 by omega)

theorem all_var (x : Var) : IntExpr.All (ProductOrFits (c.env raw)) (var x) :=
  IntExpr.all_var (.bounded (bounded_var c hraw x) (by cases x <;> decide))

theorem bounded_raw3 : IntExpr.Bounded (c.env raw) 131072 (var .rawTemp >>> 3) :=
  (bounded_var c hraw .rawTemp).shr

theorem bounded_raw4 : IntExpr.Bounded (c.env raw) 65536 (var .rawTemp >>> 4) :=
  (bounded_var c hraw .rawTemp).shr

theorem bounded_linear :
    IntExpr.Bounded (c.env raw) 262144 (var .rawTemp >>> 3 - var .digT1 <<< 1) :=
  (bounded_raw3 c hraw).sub ((bounded_var c hraw .digT1).shl 1)

theorem bounded_delta : IntExpr.Bounded (c.env raw) 131072 (var .rawTemp >>> 4 - var .digT1) :=
  (bounded_raw4 c hraw).sub (bounded_var c hraw .digT1)

theorem bounded_var1 : IntExpr.Bounded (c.env raw) 4194304 var1 :=
  ((bounded_linear c hraw).mul (bounded_var c hraw .digT2)).shr

theorem bounded_square : IntExpr.Bounded (c.env raw) 4194304 (square >>> 12) :=
  ((bounded_delta c hraw).mul (bounded_delta c hraw)).shr

theorem bounded_var2 : IntExpr.Bounded (c.env raw) 8388608 var2 :=
  ((bounded_square c hraw).mul (bounded_var c hraw .digT3)).shr

theorem bounded_sum : IntExpr.Bounded (c.env raw) 12582912 (var1 + var2) :=
  (bounded_var1 c hraw).add (bounded_var2 c hraw)

theorem bounded_scaled : IntExpr.Bounded (c.env raw) 62914560 ((var1 + var2) * lit 5) := by
  have hfive : IntExpr.Bounded (c.env raw) 5 (lit 5) := le_refl 5
  exact (bounded_sum c hraw).mul hfive

theorem bounded_rounded :
    IntExpr.Bounded (c.env raw) (245761 * 2 ^ 8) ((var1 + var2) * lit 5 + lit 128) := by
  have hhalf : IntExpr.Bounded (c.env raw) 128 (lit 128) := le_refl 128
  exact ((bounded_scaled c hraw).add hhalf).mono (by decide)

theorem all_linear :
    IntExpr.All (ProductOrFits (c.env raw)) (var .rawTemp >>> 3 - var .digT1 <<< 1) :=
  ((all_var c hraw .rawTemp).shr (.bounded (bounded_raw3 c hraw) (by decide))).sub
    ((all_var c hraw .digT1).shl (.bounded ((bounded_var c hraw .digT1).shl 1) (by decide)))
    (.bounded (bounded_linear c hraw) (by decide))

theorem all_delta :
    IntExpr.All (ProductOrFits (c.env raw)) (var .rawTemp >>> 4 - var .digT1) :=
  ((all_var c hraw .rawTemp).shr (.bounded (bounded_raw4 c hraw) (by decide))).sub
    (all_var c hraw .digT1) (.bounded (bounded_delta c hraw) (by decide))

theorem all_var1 : var1.All (ProductOrFits (c.env raw)) := by
  have hmem : linearProduct ∈ products := List.mem_cons_self
  exact ((all_linear c hraw).mul (all_var c hraw .digT2) (.product hmem)).shr
    (.bounded (bounded_var1 c hraw) (by decide))

theorem all_var2 : var2.All (ProductOrFits (c.env raw)) := by
  have hmem : square ∈ products := List.mem_of_getElem? (i := 1) rfl
  have hmem' : quadraticProduct ∈ products := List.mem_of_getElem? (i := 2) rfl
  have hsquare := ((all_delta c hraw).mul (all_delta c hraw) (.product hmem)).shr
    (.bounded (bounded_square c hraw) (by decide))
  exact (hsquare.mul (all_var c hraw .digT3) (.product hmem')).shr
    (.bounded (bounded_var2 c hraw) (by decide))

/-- Apart from the products, no intermediate result leaves the range of `int`. -/
theorem all_temperature : temperature.All (ProductOrFits (c.env raw)) := by
  have hfive : IntExpr.All (ProductOrFits (c.env raw)) (lit 5) :=
    IntExpr.all_lit (.inr (show InInt 5 by decide))
  have hhalf : IntExpr.All (ProductOrFits (c.env raw)) (lit 128) :=
    IntExpr.all_lit (.inr (show InInt 128 by decide))
  have hsum := (all_var1 c hraw).add (all_var2 c hraw) (.bounded (bounded_sum c hraw) (by decide))
  have hscaled := hsum.mul hfive (.bounded (bounded_scaled c hraw) (by decide))
  have hrounded := hscaled.add hhalf (.bounded (bounded_rounded c hraw) (by decide))
  exact hrounded.shr (.bounded (bounded_rounded c hraw).shr (by decide))

end

/-- When the products fit, every intermediate result does. -/
theorem fits_of_products {c : Calibration} {raw : Int} (hraw : 0 ≤ raw ∧ raw < 1048576)
    (h : ∀ t ∈ products, InInt (t.value (c.env raw))) : temperature.Fits (c.env raw) := by
  intro t ht
  rcases all_temperature c hraw t ht with hmem | hin
  · exact h t hmem
  · exact hin

theorem rawData_range (r : SpiRead) :
    0 ≤ rawTemp r.rawData ∧ rawTemp r.rawData < 1048576 :=
  rawTemp_range _ _ _

theorem readTemperature_eq_value {r : SpiRead} (hr : r.Succeeds) (dmaMode : Int) {c : Calibration}
    (hfits : temperature.Fits (c.env (rawTemp r.rawData))) :
    readTemperature dmaMode c r = temperature.value (c.env (rawTemp r.rawData)) := by
  rw [readTemperature_of_succeeds hr]
  exact IntExpr.run_eq_value hfits

/-- Every intermediate result of the formula but the three products is in the range of
`int`, and when these are too the formula is computed exactly. -/
theorem readTemperature_overflows_only_in_products (dmaMode : Int) (c : Calibration) {r : SpiRead}
    (hr : r.Succeeds) :
    (∀ t ∈ temperature.subterms, t ∉ products →
      InInt (t.value (c.env (rawTemp r.rawData)))) ∧
    ((∀ t ∈ products, InInt (t.value (c.env (rawTemp r.rawData)))) →
      readTemperature dmaMode c r = temperature.value (c.env (rawTemp r.rawData))) := by
  constructor
  · intro t ht hproduct
    rcases all_temperature c (rawData_range r) t ht with hmem | hin
    · exact absurd hmem hproduct
    · exact hin
  · intro h
    exact readTemperature_eq_value hr dmaMode (fits_of_products (rawData_range r) h)

/-- A typical chip, and a sample at 25.08 degrees. -/
def typicalCalibration : Calibration := loadCalibration (0x70, 0x6B) (0x43, 0x67) (0x18, 0xFC)

def typicalRead : SpiRead := ⟨true, true, 0, fun i => [0x00, 0x7E, 0xED, 0x00].getD i 0⟩

theorem readTemperature_typical : readTemperature 1 typicalCalibration typicalRead = 2508 := by
  rw [(readTemperature_overflows_only_in_products 1 typicalCalibration (r := typicalRead)
    (by decide)).2 (by decide)]
  decide

theorem products_subset : products ⊆ temperature.subterms := by
  unfold products
  rw [List.cons_subset, List.cons_subset, List.cons_subset]
  exact ⟨List.mem_of_getElem? (i := 5) rfl, List.mem_of_getElem? (i := 15) rfl,
    List.mem_of_getElem? (i := 13) rfl, List.nil_subset _⟩

/-- With the words 65535, -32768 and 32767 the sample 0 overflows in all three products, and
the value that is returned is not the value of the formula. -/
theorem products_overflow :
    ∃ calib1 calib2 calib3, ∃ r : SpiRead, r.Succeeds ∧
      (∀ t ∈ products, t ∈ temperature.subterms ∧
        ¬InInt (t.value ((loadCalibration calib1 calib2 calib3).env (rawTemp r.rawData)))) ∧
      readTemperature 0 (loadCalibration calib1 calib2 calib3) r ≠
        temperature.value ((loadCalibration calib1 calib2 calib3).env (rawTemp r.rawData)) := by
  refine ⟨(0xFF, 0xFF), (0x00, 0x80), (0xFF, 0x7F), ⟨true, true, 0, fun _ => 0⟩, by decide,
    fun t ht => ⟨products_subset ht, ?_⟩, ?_⟩
  · revert t
    decide
  · rw [readTemperature_of_succeeds (by decide)]
    decide

/-! ## Accuracy -/

/-- The formula over the rationals. -/
def exactTemperature (raw digT1 digT2 digT3 : ℚ) : ℚ :=
  5 / 256 * ((raw / 8 - 2 * digT1) * digT2 / 2 ^ 11 +
    (raw / 16 - digT1) ^ 2 * digT3 / 2 ^ 26)

theorem abs_word_le {n : Int} (h : -32768 ≤ n ∧ n < 32768) : |(n : ℚ)| ≤ 32768 := by
  rw [abs_le]
  constructor
  · exact_mod_cast h.1
  · exact_mod_cast h.2.le

theorem approx_var1 (c : Calibration) (raw : Int) :
    Approx 17 (var1.value (c.env raw)) ((raw / 8 - 2 * c.digT1) * c.digT2 / 2 ^ 11) := by
  have hlinear := ((Approx.refl raw).shr 3).sub_int (c.digT1 <<< (1 : Nat))
  have hvar1 := (hlinear.mul_int (abs_word_le c.digT2_s16)).shr 11
  have hexact : ((raw : ℚ) / 2 ^ 3 - ((c.digT1 <<< (1 : Nat) : Int) : ℚ)) * c.digT2 / 2 ^ 11 =
      (raw / 8 - 2 * c.digT1) * c.digT2 / 2 ^ 11 := by
    rw [Int.shiftLeft_eq]
    push_cast
    ring
  rw [hexact] at hvar1
  exact hvar1.mono (by norm_num)

/-- A square in the range of `int` has a root of at most 46340. -/
theorem abs_root_le {n : Int} (h : InInt (n * n)) : |(n : ℚ)| ≤ 46340 := by
  have hroot : |n| ≤ 46340 := by
    by_contra hlt
    have hlarge : 46341 * 46341 ≤ |n| * |n| := mul_le_mul (by omega) (by omega) (by decide)
      (abs_nonneg n)
    rw [abs_mul_abs_self] at hlarge
    have := h.2
    omega
  exact_mod_cast hroot

theorem approx_var2 {c : Calibration} {raw : Int} (hsquare : InInt (square.value (c.env raw))) :
    Approx 49 (var2.value (c.env raw)) ((raw / 16 - c.digT1) ^ 2 * c.digT3 / 2 ^ 26) := by
  have hdelta := ((Approx.refl raw).shr 4).sub_int c.digT1
  have hshift := (hdelta.square (abs_root_le hsquare)).shr 12
  have hvar2 := (hshift.mul_int (abs_word_le c.digT3_s16)).shr 14
  have hexact : ((raw : ℚ) / 2 ^ 4 - c.digT1) ^ 2 / 2 ^ 12 * c.digT3 / 2 ^ 14 =
      (raw / 16 - c.digT1) ^ 2 * c.digT3 / 2 ^ 26 := by ring
  rw [hexact] at hvar2
  exact hvar2.mono (by norm_num)

/-- The errors of `var1` and `var2` add up to 66, of which 5/256 remain, and the last shift
rounds to a nearest integer. -/
theorem approx_temperature {c : Calibration} {raw : Int}
    (hsquare : InInt (square.value (c.env raw))) :
    Approx 2 (temperature.value (c.env raw))
      (exactTemperature raw c.digT1 c.digT2 c.digT3) := by
  have hfive : |((5 : Int) : ℚ)| ≤ 5 := by norm_num
  have hsum := (approx_var1 c raw).add (approx_var2 hsquare)
  have hround := (hsum.mul_int hfive).round_shr 7
  have hexact : ((raw / 8 - 2 * c.digT1) * c.digT2 / 2 ^ 11 +
      ((raw : ℚ) / 16 - c.digT1) ^ 2 * c.digT3 / 2 ^ 26) * ((5 : Int) : ℚ) / 2 ^ (7 + 1) =
      exactTemperature raw c.digT1 c.digT2 c.digT3 := by
    rw [exactTemperature]
    push_cast
    ring
  rw [hexact] at hround
  exact hround.mono (by norm_num)

/-- For every 20-bit sample, which some read delivers, the value returned is within two
hundredths of a degree of the exact one, unless an intermediate result overflows. -/
theorem readTemperature_accurate {raw : Int} (hraw : 0 ≤ raw ∧ raw < 1048576) (c : Calibration)
    (hfits : temperature.Fits (c.env raw)) :
    (∃ r : SpiRead, r.Succeeds ∧ rawTemp r.rawData = raw) ∧
    ∀ (dmaMode : Int) (r : SpiRead), r.Succeeds → rawTemp r.rawData = raw →
      |(readTemperature dmaMode c r : ℚ) - exactTemperature raw c.digT1 c.digT2 c.digT3| ≤ 2 := by
  constructor
  · obtain ⟨b₀, b₁, b₂, hbytes⟩ := exists_rawTemp hraw
    exact ⟨⟨true, true, 0, fun i => [0, b₀, b₁, b₂].getD i 0⟩, ⟨rfl, rfl, rfl⟩, hbytes⟩
  · intro dmaMode r hr hsample
    subst hsample
    have hsquare : square ∈ temperature.subterms :=
      products_subset (List.mem_cons_of_mem _ List.mem_cons_self)
    rw [readTemperature_eq_value hr dmaMode hfits]
    exact approx_temperature (hfits square hsquare)

theorem readTemperature_accurate_typical :
    |(readTemperature 0 typicalCalibration typicalRead : ℚ) -
      exactTemperature 519888 27504 26435 (-1000)| ≤ 2 := by
  have hT1 : typicalCalibration.digT1 = 27504 := by decide
  have hT2 : typicalCalibration.digT2 = 26435 := by decide
  have hT3 : typicalCalibration.digT3 = -1000 := by decide
  have hraw : 0 ≤ (519888 : Int) ∧ (519888 : Int) < 1048576 := by decide
  have h := (readTemperature_accurate hraw typicalCalibration
    (fits_of_products hraw (by decide))).2 0 typicalRead (by decide) (by decide)
  rw [hT1, hT2, hT3] at h
  exact_mod_cast h

end SensorSpi
end LinuxLab
