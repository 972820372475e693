import Mathlib.Data.List.Basic
import Mathlib.Data.List.TakeWhile

/-!
# C text

A C string is the list of its characters before the terminating NUL.  Comparing
two strings with `strcmp` is then equality of lists; a copy or a print into a
buffer of `n` bytes keeps what fits before the terminator.

Where it matters which cells of a buffer are written, the buffer is the list of its
cells, and a string in it ends at the first NUL.
-/

namespace LinuxLab
namespace Lib

abbrev CString := List Char

/-- `strncpy` of at most `n` characters into a buffer that is zero behind them. -/
def strncpy (src : CString) (n : Nat) : CString := src.take n

/-- What `snprintf` leaves in a buffer of `size` bytes, for `size` at least one. -/
def snprintf (size : Nat) (text : CString) : CString := text.take (size - 1)

/-- `strncmp` finds no difference in the first `n` characters.  `pattern` has at
least `n` characters and no NUL, so a shorter `text` differs from it. -/
def strncmpEq (text pattern : CString) (n : Nat) : Bool := text.take n == pattern.take n

/-- The conversion `%u` (and `%lu`). -/
def formatUnsigned (n : Nat) : CString := Nat.toDigits 10 n

/-- The conversion `%d` (and `%ld`). -/
def formatSigned (n : Int) : CString :=
  if n < 0 then '-' :: formatUnsigned n.natAbs else formatUnsigned n.natAbs

theorem isDigit_of_mem_formatUnsigned {n : Nat} {c : Char} (h : c ∈ formatUnsigned n) :
    c.isDigit = true :=
  Nat.isDigit_of_mem_toDigits (by decide) (by decide) h

theorem strncmpEq_length_iff {text pattern : CString} :
    strncmpEq text pattern pattern.length = true ↔ pattern <+: text := by
  rw [strncmpEq, List.take_length, beq_iff_eq, List.prefix_iff_eq_take, eq_comm]

theorem strncmpEq_exclusive {text p q : CString} {n m : Nat} (h : strncmpEq text p n = true)
    (hpq : strncmpEq p q (min n m) = false) : ¬strncmpEq text q m = true := by
  intro hq
  have hp : text.take (min n m) = p.take (min n m) := by
    have := congrArg (List.take (min n m)) (beq_iff_eq.mp h)
    rwa [List.take_take, List.take_take, Nat.min_eq_left (Nat.min_le_left n m)] at this
  have hq : text.take (min n m) = q.take (min n m) := by
    have := congrArg (List.take (min n m)) (beq_iff_eq.mp hq)
    rwa [List.take_take, List.take_take, Nat.min_eq_left (Nat.min_le_right n m)] at this
  exact beq_eq_false_iff_ne.mp hpq (hp.symm.trans hq)

/-! ## Machine integers -/

/-- `INT_MAX`. -/
def intMax : Nat := 2147483647

/-- `a + b` of two `int`s, of 32 bits. -/
def addInt (a b : Int) : Int := (a + b).bmod 4294967296

/-- `(size_t)n` of an `int`, or of the difference of a `size_t` and an `int`: 64 bits. -/
def toSizeT (n : Int) : Nat := (n % 18446744073709551616).toNat

theorem addInt_eq {a b : Int} (h₁ : 0 ≤ a + b) (h₂ : a + b ≤ intMax) : addInt a b = a + b := by
  rw [intMax] at h₂
  rw [addInt, Int.bmod_eq_of_le (by omega) (by omega)]

theorem toSizeT_natCast {n : Nat} (h : n ≤ intMax) : toSizeT n = n := by
  rw [intMax] at h
  rw [toSizeT, Int.emod_eq_of_lt (by omega) (by omega), Int.toNat_natCast]

/-! ## Strings in memory -/

def nul : Char := '\x00'

theorem nul_notMem_digits {digits : CString} (h : ∀ c ∈ digits, c.isDigit = true) :
    nul ∉ digits := by
  intro hmem
  exact absurd (h nul hmem) (by decide)

theorem nul_notMem_formatUnsigned (n : Nat) : nul ∉ formatUnsigned n :=
  nul_notMem_digits (fun _ => isDigit_of_mem_formatUnsigned)

theorem nul_notMem_formatSigned (n : Int) : nul ∉ formatSigned n := by
  unfold formatSigned
  split
  · rw [List.mem_cons, not_or]
    exact ⟨by decide, nul_notMem_formatUnsigned _⟩
  · exact nul_notMem_formatUnsigned _

/-- The cells `mem` after a string and its terminator have been stored at `pos`. -/
def store (mem : List Char) (pos : Nat) (text : CString) : List Char :=
  mem.take pos ++ (text ++ nul :: mem.drop (pos + (text.length + 1)))

/-- `snprintf` to the `size` cells at `pos`.  With no cells it stores nothing. -/
def snprintfAt (mem : List Char) (pos size : Nat) (text : CString) : List Char :=
  if size = 0 then mem else store mem pos (snprintf size text)

/-- What `snprintf` returns: the length of the whole text, or a negative number when
no `int` is that large. -/
def snprintfResult (text : CString) : Int := if text.length ≤ intMax then text.length else -1

theorem takeWhile_append_stop {p : Char → Bool} {a b : List Char} (ha : ∀ c ∈ a, p c = true)
    (hb : ∀ c ∈ b.head?, p c = false) : (a ++ b).takeWhile p = a := by
  rw [List.takeWhile_append_of_pos ha]
  cases b with
  | nil => rw [List.takeWhile_nil, List.append_nil]
  | cons c b => rw [List.takeWhile_cons_of_neg (by rw [hb c rfl]; decide), List.append_nil]

/-- The string that starts at the first cell. -/
def stringAt (mem : List Char) : CString := mem.takeWhile (· ≠ nul)

theorem store_zero (mem : List Char) (text : CString) :
    store mem 0 text = text ++ nul :: mem.drop (text.length + 1) := by
  rw [store, List.take_zero, List.nil_append, Nat.zero_add]

/-- A string stored over the terminator of another continues it. -/
theorem store_store (mem : List Char) (text more : CString) :
    store (store mem 0 text) text.length more = store mem 0 (text ++ more) := by
  rw [store_zero, store_zero, store, List.take_left, List.drop_length_add_append,
    List.drop_succ_cons, List.drop_drop, List.length_append, List.append_assoc]
  congr 4
  omega

theorem drop_store_zero (mem : List Char) {text : CString} {n : Nat} (h : text.length < n) :
    (store mem 0 text).drop n = mem.drop n := by
  obtain ⟨k, rfl⟩ : ∃ k, n = text.length + (k + 1) := ⟨n - text.length - 1, by omega⟩
  rw [store_zero, List.drop_length_add_append, List.drop_succ_cons, List.drop_drop]
  congr 1
  omega

theorem stringAt_of_notMem {text : CString} (h : nul ∉ text) : stringAt text = text := by
  rw [stringAt, List.takeWhile_eq_self_iff]
  intro c hc
  exact decide_eq_true (fun e => h (e ▸ hc))

theorem nul_notMem_stringAt (mem : List Char) : nul ∉ stringAt mem := by
  intro h
  have hne : decide (nul ≠ nul) = true := List.mem_takeWhile_imp (p := (· ≠ nul)) h
  exact of_decide_eq_true hne rfl

/-- Where the terminator is that ends the string. -/
theorem exists_stringAt_append (mem : List Char) :
    ∃ post, mem ++ [nul] = stringAt mem ++ nul :: post := by
  induction mem with
  | nil => exact ⟨[], rfl⟩
  | cons c mem ih =>
    obtain ⟨post, hpost⟩ := ih
    by_cases hc : c = nul
    · subst hc
      exact ⟨mem ++ [nul], rfl⟩
    · have hfirst : stringAt (c :: mem) = c :: stringAt mem :=
        List.takeWhile_cons_of_pos (decide_eq_true hc)
      rw [hfirst, List.cons_append, hpost]
      exact ⟨post, rfl⟩

theorem stringAt_length_le (mem : List Char) : (stringAt mem).length ≤ mem.length :=
  (List.takeWhile_prefix _).length_le

theorem stringAt_append_nul (text : CString) (rest : List Char) :
    stringAt (text ++ nul :: rest) = stringAt text := by
  unfold stringAt
  induction text with
  | nil => simp
  | cons c text ih =>
    rw [List.cons_append, List.takeWhile_cons, List.takeWhile_cons, ih]

theorem stringAt_store_zero (mem : List Char) (text : CString) :
    stringAt (store mem 0 text) = stringAt text := by
  rw [store_zero, stringAt_append_nul]

end Lib
end LinuxLab
