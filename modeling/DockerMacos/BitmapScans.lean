import DockerMacos.ReleaseCheck

/-!
# The Bit Map Helpers

`testAll`, `testAny` and `clearAll` (`AC/VMsvga2Allocator.cpp`) work on a range of bits in three
parts: single bits up to a byte boundary, whole bytes, and single bits again. Both tests scan the
whole bytes with `repe scasb` and read only the count that is left, which is zero also when the
last byte is the one that differs.

## What the last byte hides

A scan that stops at the last byte and one that finds no byte to stop at leave the same count.
So a clear bit in the last whole byte is not seen by `testAll`, nor a set bit by `testAny`,
unless another bit of the range gives the same answer (`SeenElsewhere`). `clearAll` writes the
bytes and is right on every range.

The allocator calls the tests only where the invariant of its bit map leaves nothing hidden, or
for checks whose failure it does not need; the statements here are about arbitrary maps.

## Main results

* `testAny_iff`: what the test for a set bit finds.
* `scansExact_iff`: when the three helpers do what their comments say.
-/

namespace DockerMacos

/-- A byte of zeros holds only clear bits, and conversely. -/
theorem byte_eq_zero_iff {map : ByteMap} {j : ℕ} :
    map j = 0 ↔ ∀ m, m / 8 = j → bitTest map m = false := by
  constructor
  · rintro h m rfl
    exact bitTest_of_byte_zero h
  · intro h
    refine BitVec.eq_of_getLsbD_eq fun i hi => ?_
    have hbit := h (8 * j + (7 - i)) (by omega)
    rw [bitTest_eq, show (8 * j + (7 - i)) / 8 = j by omega,
      show 7 - (8 * j + (7 - i)) % 8 = i by omega] at hbit
    rw [hbit]
    exact BitVec.getLsbD_zero.symm

namespace VMsvga2Allocator

/-- `memAny`: whether the scan for a byte other than zero leaves a byte. -/
def memAny (map : ByteMap) (p bytes : ℕ) : Bool := scanEqual map 0 p bytes ≠ 0

/-- `testAny`, in the same three parts as `testAll`. -/
def testAny (s : VMsvga2Allocator) (firstBit pastBit : ℕ) : Bool :=
  let firstFull := (firstBit + 7) / 8 * 8
  let pastFull := pastBit / 8 * 8
  let past := min pastBit firstFull
  let tail := max pastFull past
  (List.range' firstBit (past - firstBit)).any (bitTest s.map) ||
    (if pastFull > firstFull then memAny s.map (firstFull / 8) ((pastFull - firstFull) / 8)
      else false) ||
    (List.range' tail (pastBit - tail)).any (bitTest s.map)

/-- What the helpers are for: whether every bit of a range is set, whether some bit of it is
set, and clearing the range and nothing else. -/
structure ScansExact (s : VMsvga2Allocator) (first past : ℕ) : Prop where
  all : s.testAll first past = true ↔ ∀ n, first ≤ n → n < past → bitTest s.map n = true
  any : s.testAny first past = true ↔ ∃ n, first ≤ n ∧ n < past ∧ bitTest s.map n = true
  clear : ∀ n, bitTest (s.clearAll first past).map n =
    if first ≤ n ∧ n < past then false else bitTest s.map n

/-- The last whole byte of a range holds no bit of this value, or another bit of the range
has it too. -/
def SeenElsewhere (s : VMsvga2Allocator) (first past : ℕ) (value : Bool) : Prop :=
  (∃ n, first ≤ n ∧ n < past ∧ InLastByte first past n ∧ bitTest s.map n = value) →
    ∃ n, first ≤ n ∧ n < past ∧ ¬InLastByte first past n ∧ bitTest s.map n = value

variable {s : VMsvga2Allocator} {first past : ℕ}

/-! ### The tests -/

/-- The scan over the whole bytes sees a set bit everywhere but in the last of them. -/
theorem memAny_iff {map : ByteMap} {p bytes : ℕ} :
    memAny map p bytes = true ↔
      ∃ n, p ≤ n / 8 ∧ n / 8 + 1 < p + bytes ∧ bitTest map n = true := by
  rw [memAny, decide_eq_true_iff, ne_eq, scanEqual_eq_zero_iff]
  constructor
  · intro h
    push Not at h
    obtain ⟨j, hj, hlt, hne⟩ := h
    rw [ne_eq, byte_eq_zero_iff] at hne
    push Not at hne
    obtain ⟨n, rfl, hn⟩ := hne
    exact ⟨n, hj, hlt, by simpa using hn⟩
  · rintro ⟨n, hj, hlt, hn⟩ h
    rw [bitTest_of_byte_zero (h (n / 8) hj hlt)] at hn
    exact Bool.false_ne_true hn

/-- `testAny` sees every set bit but those in the last whole byte. -/
theorem testAny_iff :
    s.testAny first past = true ↔
      ∃ n, first ≤ n ∧ n < past ∧ ¬InLastByte first past n ∧ bitTest s.map n = true := by
  simp only [testAny, Bool.or_eq_true, List.any_eq_true, List.mem_range'_1, InLastByte]
  constructor
  · rintro ((⟨n, hn, hset⟩ | hbody) | ⟨n, hn, hset⟩)
    · exact ⟨n, by omega, by omega, by omega, hset⟩
    · split at hbody
      · obtain ⟨n, h₁, h₂, hset⟩ := memAny_iff.mp hbody
        exact ⟨n, by omega, by omega, by omega, hset⟩
      · exact absurd hbody Bool.false_ne_true
    · exact ⟨n, by omega, by omega, by omega, hset⟩
  · rintro ⟨n, hfirst, hpast, hlast, hset⟩
    by_cases hn : n < min past ((first + 7) / 8 * 8)
    · exact .inl (.inl ⟨n, by omega, hset⟩)
    by_cases hn' : max (past / 8 * 8) (min past ((first + 7) / 8 * 8)) ≤ n
    · exact .inr ⟨n, by omega, hset⟩
    refine .inl (.inr ?_)
    rw [if_pos (by omega), memAny_iff]
    exact ⟨n, by omega, by omega, hset⟩

/-- `testAll` is right unless all clear bits of the range lie in the last whole byte. -/
theorem testAll_exact_iff :
    (s.testAll first past = true ↔ ∀ n, first ≤ n → n < past → bitTest s.map n = true) ↔
      s.SeenElsewhere first past false := by
  rw [testAll_iff]
  constructor
  · rintro h ⟨n, hfirst, hpast, -, hclear⟩
    by_contra hnone
    refine Bool.false_ne_true (hclear.symm.trans (h.mp (fun m h₁ h₂ h₃ => ?_) n hfirst hpast))
    by_contra hm
    exact hnone ⟨m, h₁, h₂, h₃, by simpa using hm⟩
  · refine fun h => ⟨fun hseen n hfirst hpast => ?_, fun hall n h₁ h₂ _ => hall n h₁ h₂⟩
    by_cases hlast : InLastByte first past n
    · by_contra hn
      obtain ⟨m, h₁, h₂, h₃, hm⟩ := h ⟨n, hfirst, hpast, hlast, by simpa using hn⟩
      exact Bool.false_ne_true (hm.symm.trans (hseen m h₁ h₂ h₃))
    · exact hseen n hfirst hpast hlast

/-- `testAny` is right unless all set bits of the range lie in the last whole byte. -/
theorem testAny_exact_iff :
    (s.testAny first past = true ↔ ∃ n, first ≤ n ∧ n < past ∧ bitTest s.map n = true) ↔
      s.SeenElsewhere first past true := by
  rw [testAny_iff]
  constructor
  · rintro h ⟨n, hfirst, hpast, -, hset⟩
    exact h.mpr ⟨n, hfirst, hpast, hset⟩
  · intro h
    constructor
    · rintro ⟨n, hfirst, hpast, -, hset⟩
      exact ⟨n, hfirst, hpast, hset⟩
    · rintro ⟨n, hfirst, hpast, hset⟩
      by_cases hlast : InLastByte first past n
      · exact h ⟨n, hfirst, hpast, hlast, hset⟩
      · exact ⟨n, hfirst, hpast, hlast, hset⟩

/-- **The bit map helpers.** All three are right on a range exactly when neither the clear
nor the set bits of the range are confined to its last whole byte. -/
theorem scansExact_iff :
    s.ScansExact first past ↔
      s.SeenElsewhere first past false ∧ s.SeenElsewhere first past true := by
  rw [← testAll_exact_iff, ← testAny_exact_iff]
  exact ⟨fun h => ⟨h.all, h.any⟩, fun h => ⟨h.1, h.2, clearAll_bit s first past⟩⟩

/-- `testAll` takes a single whole byte of zeros for a byte of ones. -/
theorem not_scansExact_byte :
    ¬({ freshAllocator with map := fun _ => 0 } : VMsvga2Allocator).ScansExact 0 8 := by
  intro h
  exact absurd (h.all.mp (by decide) 0 le_rfl (by decide)) (by decide)

end VMsvga2Allocator

end DockerMacos
