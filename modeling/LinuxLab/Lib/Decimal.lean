import LinuxLab.Lib.IntExpr
import Mathlib.Algebra.Order.Field.Rat
import Mathlib.Tactic.FieldSimp
import Mathlib.Tactic.Linarith
import Mathlib.Tactic.Ring

/-!
# Decimal numbers in text

The conversion `%0wd` of `printf`, and what `sscanf` reads with `%d` and `%f`.  A `%f`
takes the longest prefix that is a sign, digits, a point and digits; exponents,
hexadecimal numbers and the names of infinities are left out.  The `%d` is the kernel's,
which takes no plus sign and keeps the low 32 bits.
-/

namespace LinuxLab
namespace Lib

/-- Zeros before the digits, up to `width` characters. -/
def zeroPad (width : Nat) (digits : CString) : CString :=
  List.replicate (width - digits.length) '0' ++ digits

/-- The conversion `%0wd`: the sign counts as one of the `width` characters. -/
def formatPadded (width : Nat) (n : Int) : CString :=
  if n < 0 then '-' :: zeroPad (width - 1) (formatUnsigned n.natAbs)
  else zeroPad width (formatUnsigned n.natAbs)

/-- `isspace` in the C locale. -/
def isSpace (c : Char) : Bool := c.toNat == 32 || (9 ≤ c.toNat && c.toNat ≤ 13)

/-- A minus sign at the front of the text, and what follows the sign. -/
def scanSign : CString → Bool × CString
  | '-' :: text => (true, text)
  | '+' :: text => (false, text)
  | text => (false, text)

def digitsValue (digits : CString) : Nat := Nat.ofDigitChars 10 digits 0

/-- The digits behind the decimal point, if there is one. -/
def scanFraction : CString → CString
  | '.' :: text => text.takeWhile Char.isDigit
  | _ => []

/-- `sscanf` with `%f`, with the exact value of the text it takes. -/
def scanFloat (text : CString) : Option ℚ :=
  let signed := scanSign (text.dropWhile isSpace)
  let whole := signed.2.takeWhile Char.isDigit
  let fraction := scanFraction (signed.2.dropWhile Char.isDigit)
  if whole = [] ∧ fraction = [] then none
  else
    let magnitude : ℚ := digitsValue (whole ++ fraction) / 10 ^ fraction.length
    some (if signed.1 then -magnitude else magnitude)

/-- `sscanf` with `%d` in the kernel. -/
def scanInt (text : CString) : Option Int :=
  let start := text.dropWhile (fun c => isSpace c || c.toNat == 160)
  match start with
  | '-' :: text =>
    let digits := text.takeWhile Char.isDigit
    if digits = [] then none else some (wrapInt (-(digitsValue digits : Int)))
  | text =>
    let digits := text.takeWhile Char.isDigit
    if digits = [] then none else some (wrapInt (digitsValue digits))

/-! ## Digits -/

theorem digitsValue_formatUnsigned (n : Nat) : digitsValue (formatUnsigned n) = n :=
  Nat.ofDigitChars_ten_toDigits

theorem digitsValue_append (a b : CString) :
    digitsValue (a ++ b) = 10 ^ b.length * digitsValue a + digitsValue b := by
  rw [digitsValue, Nat.ofDigitChars_append, Nat.ofDigitChars_eq_ofDigitChars_zero]
  rfl

theorem digitsValue_zeroPad (width : Nat) (digits : CString) :
    digitsValue (zeroPad width digits) = digitsValue digits := by
  rw [zeroPad, digitsValue_append, digitsValue, Nat.ofDigitChars_replicate_zero, Nat.mul_zero,
    Nat.mul_zero, Nat.zero_add]

theorem isDigit_of_mem_zeroPad {width n : Nat} {c : Char}
    (h : c ∈ zeroPad width (formatUnsigned n)) : c.isDigit = true := by
  rcases List.mem_append.mp h with hc | hc
  · rw [List.eq_of_mem_replicate hc]
    rfl
  · exact isDigit_of_mem_formatUnsigned hc

theorem formatUnsigned_ne_nil (n : Nat) : formatUnsigned n ≠ [] := Nat.toDigits_ne_nil

theorem length_zeroPad (width : Nat) {digits : CString} (h : digits.length ≤ width) :
    (zeroPad width digits).length = width := by
  rw [zeroPad, List.length_append, List.length_replicate]
  omega

theorem length_formatUnsigned_le {n k : Nat} (hk : 0 < k) (h : n < 10 ^ k) :
    (formatUnsigned n).length ≤ k :=
  (Nat.length_toDigits_le_iff (by decide) hk).mpr h

theorem length_formatSigned_le {n : Int} {k : Nat} (hk : 0 < k) (h : n.natAbs < 10 ^ k) :
    (formatSigned n).length ≤ k + 1 := by
  have hdigits := length_formatUnsigned_le hk h
  unfold formatSigned
  split
  · rw [List.length_cons]
    omega
  · omega

theorem nul_notMem_formatPadded (width : Nat) (n : Int) : nul ∉ formatPadded width n := by
  unfold formatPadded
  split
  · exact List.not_mem_cons_of_ne_of_not_mem (by decide)
      (nul_notMem_digits (fun c => isDigit_of_mem_zeroPad))
  · exact nul_notMem_digits (fun c => isDigit_of_mem_zeroPad)

/-! ## Reading a printed number -/

theorem dropWhile_digits {digits rest : CString} (hdigits : ∀ c ∈ digits, c.isDigit = true)
    (hrest : ∀ c ∈ rest.head?, c.isDigit = false) :
    (digits ++ rest).dropWhile Char.isDigit = rest := by
  rw [List.dropWhile_append_of_pos hdigits]
  cases rest with
  | nil => rfl
  | cons c rest => rw [List.dropWhile_cons_of_neg (by rw [hrest c rfl]; decide)]

theorem toNat_of_isDigit {c : Char} (h : c.isDigit = true) : 48 ≤ c.toNat ∧ c.toNat ≤ 57 := by
  simp only [Char.isDigit, Bool.and_eq_true, decide_eq_true_eq, ge_iff_le,
    UInt32.le_iff_toNat_le] at h
  exact h

theorem not_isSpace_of_isDigit {c : Char} (h : c.isDigit = true) : ¬isSpace c = true := by
  have hc := toNat_of_isDigit h
  simp only [isSpace, Bool.or_eq_true, beq_iff_eq, Bool.and_eq_true, decide_eq_true_eq]
  omega

/-- A digit is no sign. -/
theorem scanSign_cons_digit {c : Char} (h : c.isDigit = true) (text : CString) :
    scanSign (c :: text) = (false, c :: text) := by
  have hc := toNat_of_isDigit h
  unfold scanSign
  split
  · next heq =>
    rw [(List.cons.inj heq).1] at hc
    exact absurd hc (by decide)
  · next heq =>
    rw [(List.cons.inj heq).1] at hc
    exact absurd hc (by decide)
  · rfl

theorem scanSign_formatSigned (n : Int) (rest : CString) :
    scanSign ((formatSigned n ++ rest).dropWhile isSpace) =
      (decide (n < 0), formatUnsigned n.natAbs ++ rest) := by
  by_cases hn : n < 0
  · rw [formatSigned, if_pos hn, List.cons_append, List.dropWhile_cons_of_neg (by decide),
      decide_eq_true hn]
    rfl
  · obtain ⟨c, digits, hdigits⟩ := List.exists_cons_of_ne_nil (formatUnsigned_ne_nil n.natAbs)
    have hc : c.isDigit = true :=
      isDigit_of_mem_formatUnsigned (hdigits ▸ List.mem_cons_self)
    rw [formatSigned, if_neg hn, decide_eq_false hn, hdigits, List.cons_append,
      List.dropWhile_cons_of_neg (not_isSpace_of_isDigit hc), scanSign_cons_digit hc]

/-- A printed number, a point and digits are read as the number they denote: the sign
is the sign of the whole. -/
theorem scanFloat_formatSigned (n : Int) (fraction rest : CString)
    (hfraction : ∀ c ∈ fraction, c.isDigit = true)
    (hrest : ∀ c ∈ rest.head?, c.isDigit = false) :
    scanFloat (formatSigned n ++ '.' :: (fraction ++ rest)) =
      some (if n < 0 then (n : ℚ) - digitsValue fraction / 10 ^ fraction.length
        else (n : ℚ) + digitsValue fraction / 10 ^ fraction.length) := by
  have hpoint : ∀ c ∈ ('.' :: (fraction ++ rest)).head?, c.isDigit = false := by
    rintro c ⟨⟩
    rfl
  have hvalue : (digitsValue (formatUnsigned n.natAbs ++ fraction) : ℚ) / 10 ^ fraction.length =
      (n.natAbs : ℚ) + digitsValue fraction / 10 ^ fraction.length := by
    rw [digitsValue_append, digitsValue_formatUnsigned]
    push_cast
    field_simp
  unfold scanFloat
  simp only [scanSign_formatSigned]
  rw [takeWhile_append_stop (fun c => isDigit_of_mem_formatUnsigned) hpoint,
    dropWhile_digits (fun c => isDigit_of_mem_formatUnsigned) hpoint, scanFraction,
    takeWhile_append_stop hfraction hrest, if_neg (fun h => formatUnsigned_ne_nil _ h.1), hvalue]
  rw [Nat.cast_natAbs]
  by_cases hn : n < 0
  · rw [decide_eq_true hn, if_pos rfl, if_pos hn, abs_of_neg hn]
    push_cast
    congr 1
    ring
  · rw [decide_eq_false hn, if_neg hn, abs_of_nonneg (not_lt.mp hn)]
    rfl

end Lib
end LinuxLab
