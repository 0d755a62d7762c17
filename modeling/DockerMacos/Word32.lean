import Mathlib.Data.Nat.ModEq

/-!
# 32-bit Arithmetic on Natural Numbers

The driver keeps offsets, sizes and counters in `uint32_t`. They are natural numbers
here; `add32`, `sub32` and `shl32` are the operations of the C code, which wrap modulo
`2 ^ 32`, and the lemmas say when they are the exact ones.
-/

namespace DockerMacos

/-- `a + b` on `uint32_t`. -/
def add32 (a b : ℕ) : ℕ := (a + b) % 2 ^ 32

/-- `a - b` on `uint32_t`. -/
def sub32 (a b : ℕ) : ℕ := (a + (2 ^ 32 - b % 2 ^ 32)) % 2 ^ 32

/-- `a << n` on `uint32_t`. -/
def shl32 (a n : ℕ) : ℕ := a * 2 ^ n % 2 ^ 32

/-- A sum that fits does not wrap. -/
theorem add32_of_lt {a b : ℕ} (h : a + b < 2 ^ 32) : add32 a b = a + b :=
  Nat.mod_eq_of_lt h

/-- Nor does a difference that is not negative. -/
theorem sub32_of_le {a b : ℕ} (hba : b ≤ a) (ha : a < 2 ^ 32) : sub32 a b = a - b := by
  unfold sub32
  omega

/-- Nor does a shift that loses no bit. -/
theorem shl32_of_lt {a n : ℕ} (h : a * 2 ^ n < 2 ^ 32) : shl32 a n = a * 2 ^ n :=
  Nat.mod_eq_of_lt h

/-- The difference of two 32-bit numbers, without the remainder. -/
theorem sub32_cases {a b : ℕ} (ha : a < 2 ^ 32) (hb : b < 2 ^ 32) :
    b ≤ a ∧ sub32 a b = a - b ∨ a < b ∧ sub32 a b = 2 ^ 32 + a - b := by
  rw [sub32, Nat.mod_eq_of_lt hb]
  omega

/-- Subtracting and adding again is the identity modulo `2 ^ 32`. -/
theorem sub32_add_modEq (a b : ℕ) : sub32 a b + b ≡ a [MOD 2 ^ 32] := by
  rw [Nat.ModEq, sub32]
  omega

/-- A difference has 32 bits. -/
theorem sub32_lt (a b : ℕ) : sub32 a b < 2 ^ 32 := Nat.mod_lt _ (by decide)

end DockerMacos
