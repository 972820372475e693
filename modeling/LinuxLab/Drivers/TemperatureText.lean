import LinuxLab.Drivers.SensorSpi

/-!
# The temperature as text

`show` and `k_driver_read` print the whole degrees and the hundredths with one `%d` each,
after a division that truncates.  Below zero both carry the sign, and the second one ends
the number that `sscanf` reads: the text of -150 is `-1.-50`.
-/

namespace LinuxLab
namespace SensorSpi

open Lib

/-- Quotient and remainder by 100 have the sign of the value. -/
theorem hundredths_spec (v : Int) :
    100 * v.tdiv 100 + v.tmod 100 = v ∧ -100 < v.tmod 100 ∧ v.tmod 100 < 100 ∧
      (0 ≤ v → 0 ≤ v.tmod 100) ∧ (v ≤ 0 → v.tmod 100 ≤ 0) := by
  refine ⟨Int.mul_tdiv_add_tmod v 100, ?_, Int.tmod_lt_of_pos v (by decide),
    fun hv => Int.tmod_nonneg 100 hv, ?_⟩
  · have hneg := Int.tmod_lt_of_pos (-v) (b := 100) (by decide)
    rw [Int.neg_tmod] at hneg
    omega
  · intro hv
    have hneg := Int.tmod_nonneg (a := -v) 100 (by omega)
    rw [Int.neg_tmod] at hneg
    omega

theorem tmod_neg_iff (v : Int) : v.tmod 100 < 0 ↔ ¬(0 ≤ v ∨ (100 : Int) ∣ v) := by
  obtain ⟨hsplit, hlow, hhigh, hpos, hneg⟩ := hundredths_spec v
  omega

theorem length_formatPadded_le {r : Int} (hlow : -100 < r) (hhigh : r < 100) :
    (formatPadded 2 r).length ≤ 3 := by
  have hdigits : (formatUnsigned r.natAbs).length ≤ 2 :=
    length_formatUnsigned_le (by decide) (by omega)
  unfold formatPadded zeroPad
  split
  · rw [List.length_cons, List.length_append, List.length_replicate]
    omega
  · rw [List.length_append, List.length_replicate]
    omega

/-- The text of a 32-bit value fits in `out_string`. -/
theorem length_temperatureText_le {v : Int} (h : InInt v) : (temperatureText v).length ≤ 14 := by
  obtain ⟨hsplit, hlow, hhigh, -, -⟩ := hundredths_spec v
  unfold InInt at h
  have hwhole : (formatSigned (v.tdiv 100)).length ≤ 8 + 1 :=
    length_formatSigned_le (by decide) (by omega)
  have hrest := length_formatPadded_le hlow hhigh
  rw [temperatureText, List.length_append, List.length_cons, List.length_append,
    List.length_singleton]
  omega

/-- The second minus sign ends the number. -/
theorem scanFloat_of_tmod_neg {v : Int} (h : v.tmod 100 < 0) :
    scanFloat (temperatureText v) = some (v.tdiv 100 : ℚ) := by
  have hminus : ∀ c ∈ (formatPadded 2 (v.tmod 100) ++ ['\n']).head?, c.isDigit = false := by
    rw [formatPadded, if_pos h]
    rintro c ⟨⟩
    rfl
  have hscan := scanFloat_formatSigned (v.tdiv 100) [] _ nofun hminus
  have hzero : (digitsValue [] : ℚ) / 10 ^ ([] : CString).length = 0 := by
    rw [digitsValue, Nat.ofDigitChars_nil, Nat.cast_zero, zero_div]
  rw [hzero, sub_zero, add_zero, ite_self] at hscan
  exact hscan

theorem scanFloat_of_tmod_nonneg {v : Int} (h : 0 ≤ v.tmod 100) :
    scanFloat (temperatureText v) = some ((v : ℚ) / 100) := by
  obtain ⟨hsplit, hlow, hhigh, -, hneg⟩ := hundredths_spec v
  have hlength : (zeroPad 2 (formatUnsigned (v.tmod 100).natAbs)).length = 2 :=
    length_zeroPad 2 (length_formatUnsigned_le (by decide) (by omega))
  have hscan := scanFloat_formatSigned (v.tdiv 100)
    (zeroPad 2 (formatUnsigned (v.tmod 100).natAbs)) ['\n']
    (fun c => isDigit_of_mem_zeroPad) (by rintro c ⟨⟩; rfl)
  have habs : (((v.tmod 100).natAbs : Nat) : ℚ) = (v.tmod 100 : Int) := by
    rw [Nat.cast_natAbs, abs_of_nonneg h]
  have hvalue : (v : ℚ) = 100 * (v.tdiv 100 : Int) + (v.tmod 100 : Int) := by
    exact_mod_cast hsplit.symm
  rw [digitsValue_zeroPad, digitsValue_formatUnsigned, hlength, habs] at hscan
  rw [temperatureText, formatPadded, if_neg (not_lt.mpr h), hscan]
  by_cases hquot : v.tdiv 100 < 0
  · have hrem : v.tmod 100 = 0 := by omega
    rw [if_pos hquot, hvalue, hrem]
    congr 1
    push_cast
    ring
  · rw [if_neg hquot, hvalue]
    congr 1
    ring

/-- The text is read back as the value exactly when there is no second minus sign. -/
theorem scanFloat_temperatureText (v : Int) :
    scanFloat (temperatureText v) = some ((v : ℚ) / 100) ↔ 0 ≤ v ∨ (100 : Int) ∣ v := by
  by_cases h : v.tmod 100 < 0
  · rw [scanFloat_of_tmod_neg h, Option.some.injEq]
    refine ⟨fun heq => ?_, fun hv => absurd hv ((tmod_neg_iff v).mp h)⟩
    have hwhole : v.tdiv 100 * 100 = v := by
      rw [eq_div_iff (by norm_num)] at heq
      exact_mod_cast heq
    obtain ⟨hsplit, -⟩ := hundredths_spec v
    omega
  · rw [scanFloat_of_tmod_nonneg (not_lt.mp h), eq_self_iff_true, true_iff]
    exact not_not.mp (fun hv => h ((tmod_neg_iff v).mpr hv))

/-! ## The attribute and the device -/

theorem snprintf_temperatureText {v : Int} (h : InInt v) {size : Nat} (hsize : 15 ≤ size) :
    snprintf size (temperatureText v) = temperatureText v := by
  have hlength := length_temperatureText_le h
  exact List.take_of_length_le (by omega)

theorem nul_notMem_temperatureText (v : Int) : nul ∉ temperatureText v := by
  rw [temperatureText, List.mem_append, List.mem_cons, List.mem_append, List.mem_singleton]
  rintro (h | h | h | h)
  · exact nul_notMem_formatSigned _ h
  · exact absurd h (by decide)
  · exact nul_notMem_formatPadded 2 _ h
  · exact absurd h (by decide)

/-- What `toy_temp` reads in a printed temperature. -/
theorem toyTemp_snprintf {v : Int} (h : InInt v) {size : Nat} (hsize : 15 ≤ size) :
    toyTemp (snprintf size (temperatureText v)) = scanFloat (temperatureText v) := by
  have hlength := length_temperatureText_le h
  rw [snprintf_temperatureText h hsize, toyTemp, List.take_of_length_le (by omega),
    stringAt_of_notMem (nul_notMem_temperatureText v)]

/-- A temperature in either text is read back exactly when it is not negative or a whole
number of degrees. -/
theorem toyTemp_reads_back_iff {v : Int} (hv : InInt v) :
    (∀ (attr : TempAttr) (s : Sensor), s.value attr = v →
      (toyTemp (showAttr attr s) = some ((v : ℚ) / 100) ↔ 0 ≤ v ∨ (100 : Int) ∣ v)) ∧
    (toyTemp (snprintf 20 (temperatureText v)) = some ((v : ℚ) / 100) ↔
      0 ≤ v ∨ (100 : Int) ∣ v) := by
  constructor
  · intro attr s hvalue
    rw [showAttr, hvalue, toyTemp_snprintf hv (by decide)]
    exact scanFloat_temperatureText v
  · rw [toyTemp_snprintf hv (by decide)]
    exact scanFloat_temperatureText v

theorem toyTemp_reads_back_zero_point_five :
    toyTemp (snprintf 20 (temperatureText 50)) = some ((50 : Int) / 100 : ℚ) :=
  (toyTemp_reads_back_iff (v := 50) (by decide)).2.mpr (.inl (by decide))

/-- Half a degree below zero is printed as `0.-50` and read as zero. -/
theorem toyTemp_loses_hundredths :
    temperatureText (-50) = "0.-50\n".toList ∧
    toyTemp (snprintf 20 (temperatureText (-50))) = some 0 ∧
    toyTemp (snprintf 20 (temperatureText (-50))) ≠ some (((-50 : Int) : ℚ) / 100) := by
  have hread : toyTemp (snprintf 20 (temperatureText (-50))) = some 0 := by
    rw [toyTemp_snprintf (by decide) (by decide), scanFloat_of_tmod_neg (by decide)]
    rfl
  refine ⟨by decide, hread, ?_⟩
  rw [hread]
  norm_num

end SensorSpi
end LinuxLab
