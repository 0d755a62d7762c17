import Mathlib.Data.Nat.Basic
import Mathlib.Tactic.SplitIfs

/-!
# Byte Maps

A byte map holds bits in bytes, the first bit of a byte in its most significant
position.

## Bits and positions

`bitTest`, `bitSet` and `bitClear` are the single-bit operations with a shifted
mask; the lemmas say that they are reading and updating a function from positions to
bits. A map is a function from indices to bytes, without an end: what a program keeps of it, and
where that ends, is the program's affair.

## Scans

`scanEqual` is the string scan `repe scasb`: it stops at the first byte that
differs, or when no byte is left, and gives the number of bytes left. A scan that stops at its
last byte cannot be told by this number from one that has found nothing.

## Main results

* `bitTest_bitSet`, `bitTest_bitClear`, `bitTest_bitsClear`: what a map holds after an update.
* `bitTest_of_byte_zero`, `byte_eq_ones_iff`: a byte that is zero, or all ones, by its bits.
* `scanEqual_eq_zero`: a scan that leaves no byte has found none that differs, or only the last.
-/

namespace DockerMacos

/-- Bytes by index. -/
abbrev ByteMap := ℕ → BitVec 8

/-- The mask of bit `n` in its byte. -/
def bitMask (n : ℕ) : BitVec 8 := 128#8 >>> (n % 8)

/-- Bit `n`. -/
def bitTest (map : ByteMap) (n : ℕ) : Bool := map (n / 8) &&& bitMask n ≠ 0

/-- The byte map with bit `n` set. -/
def bitSet (map : ByteMap) (n : ℕ) : ByteMap := fun j =>
  if j = n / 8 then map j ||| bitMask n else map j

/-- The byte map with bit `n` cleared. -/
def bitClear (map : ByteMap) (n : ℕ) : ByteMap := fun j =>
  if j = n / 8 then map j &&& ~~~ bitMask n else map j

/-- The byte map with the `count` bits from `first` on cleared one by one. -/
def bitsClear (map : ByteMap) (first : ℕ) : ℕ → ByteMap
  | 0 => map
  | count + 1 => bitsClear (bitClear map first) (first + 1) count

/-- The number of bytes left when a scan for a byte other than `value` stops. The byte
at which it stops has been counted. -/
def scanEqual (map : ByteMap) (value : BitVec 8) : ℕ → ℕ → ℕ
  | _, 0 => 0
  | p, bytes + 1 => if map p = value then scanEqual map value (p + 1) bytes else bytes

/-! ### Single bits -/

/-- The mask selects one bit of the byte. -/
theorem bitMask_getLsbD (n i : ℕ) : (bitMask n).getLsbD i = decide (i = 7 - n % 8) := by
  have hn : n % 8 < 8 := Nat.mod_lt n (by omega)
  rw [bitMask, BitVec.getLsbD_ushiftRight]
  have hbits : ∀ r < 8, ∀ i < 8, (128#8).getLsbD (r + i) = decide (i = 7 - r) := by decide
  by_cases hi : i < 8
  · exact hbits _ hn i hi
  · rw [BitVec.getLsbD_of_ge _ _ (by omega)]
    exact (decide_eq_false (by omega)).symm

/-- A bit is counted from the highest of its byte. -/
theorem bitTest_eq (map : ByteMap) (n : ℕ) :
    bitTest map n = (map (n / 8)).getLsbD (7 - n % 8) := by
  rw [bitTest, Bool.eq_iff_iff, decide_eq_true_iff]
  constructor
  · intro hne
    by_contra hbit
    refine hne (BitVec.eq_of_getLsbD_eq fun i _ => ?_)
    rw [BitVec.getLsbD_and, bitMask_getLsbD]
    by_cases hi : i = 7 - n % 8
    · simp_all
    · simp [hi]
  · intro hbit heq
    have := congrArg (fun b : BitVec 8 => b.getLsbD (7 - n % 8)) heq
    simp [bitMask_getLsbD, hbit] at this

/-- Setting a bit leaves the others. -/
theorem bitTest_bitSet (map : ByteMap) (n m : ℕ) :
    bitTest (bitSet map n) m = if m = n then true else bitTest map m := by
  rw [bitTest_eq, bitTest_eq, bitSet]
  by_cases hbyte : m / 8 = n / 8
  · rw [if_pos hbyte, BitVec.getLsbD_or, bitMask_getLsbD]
    by_cases hmn : m = n
    · simp [hmn]
    · rw [if_neg hmn, decide_eq_false (show ¬ 7 - m % 8 = 7 - n % 8 by omega), Bool.or_false]
  · rw [if_neg hbyte, if_neg (by rintro rfl; exact hbyte rfl)]

/-- So does clearing one. -/
theorem bitTest_bitClear (map : ByteMap) (n m : ℕ) :
    bitTest (bitClear map n) m = if m = n then false else bitTest map m := by
  rw [bitTest_eq, bitTest_eq, bitClear]
  by_cases hbyte : m / 8 = n / 8
  · rw [if_pos hbyte, BitVec.getLsbD_and, BitVec.getLsbD_not, bitMask_getLsbD]
    by_cases hmn : m = n
    · simp [hmn]
    · rw [if_neg hmn, decide_eq_false (show ¬ 7 - m % 8 = 7 - n % 8 by omega)]
      have : 7 - m % 8 < 8 := by omega
      simp [this]
  · rw [if_neg hbyte, if_neg (by rintro rfl; exact hbyte rfl)]

/-! ### Ranges -/

/-- Clearing a range clears its bits and no others. -/
theorem bitTest_bitsClear (map : ByteMap) (first count m : ℕ) :
    bitTest (bitsClear map first count) m =
      if first ≤ m ∧ m < first + count then false else bitTest map m := by
  induction count generalizing map first with
  | zero => rw [bitsClear, if_neg (by omega)]
  | succ count ih =>
      rw [bitsClear, ih, bitTest_bitClear]
      split_ifs <;> first | rfl | omega

/-- Bytes of zeros hold only clear bits. -/
theorem bitTest_of_byte_zero {map : ByteMap} {m : ℕ} (h : map (m / 8) = 0) :
    bitTest map m = false := by
  simp [bitTest_eq, h]

/-- A bit is in its byte. -/
theorem bitTest_congr {map map' : ByteMap} {m : ℕ} (h : map' (m / 8) = map (m / 8)) :
    bitTest map' m = bitTest map m := by
  rw [bitTest_eq, bitTest_eq, h]

/-- A byte of ones holds only set bits, and conversely. -/
theorem byte_eq_ones_iff {map : ByteMap} {j : ℕ} :
    map j = 0xFF ↔ ∀ m, m / 8 = j → bitTest map m = true := by
  constructor
  · rintro h m rfl
    have hm : 7 - m % 8 < 8 := by omega
    have hones : ∀ i < 8, (0xFF : BitVec 8).getLsbD i = true := by decide
    rw [bitTest_eq, h, hones _ hm]
  · intro h
    refine BitVec.eq_of_getLsbD_eq fun i hi => ?_
    have hbit := h (8 * j + (7 - i)) (by omega)
    rw [bitTest_eq, show (8 * j + (7 - i)) / 8 = j by omega,
      show 7 - (8 * j + (7 - i)) % 8 = i by omega] at hbit
    have hones : ∀ i < 8, (0xFF : BitVec 8).getLsbD i = true := by decide
    rw [hbit, hones i hi]

/-- A scan over bytes that all match leaves none. -/
theorem scanEqual_eq_zero {map : ByteMap} {value : BitVec 8} {p bytes : ℕ}
    (h : ∀ j, p ≤ j → j < p + bytes → map j = value) : scanEqual map value p bytes = 0 := by
  induction bytes generalizing p with
  | zero => rfl
  | succ bytes ih =>
      rw [scanEqual, if_pos (h p le_rfl (by omega))]
      exact ih fun j hj hlt => h j (by omega) (by omega)

end DockerMacos
