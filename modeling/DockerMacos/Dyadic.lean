import Mathlib.Algebra.BigOperators.Group.Finset.Basic
import Mathlib.Data.Nat.Bitwise
import Mathlib.Order.Interval.Finset.Nat
import Mathlib.Order.Interval.Set.Basic
import Mathlib.Tactic.Ring

/-!
# Dyadic Blocks

A block is an interval `[off, off + 2 ^ bits)` of cells whose start is a multiple of its
size. Two blocks are nested or disjoint, and every block but the largest has a buddy,
with which it makes up its parent.

## Tilings

`Tiling N S U` says that the blocks of `S` and the remaining cells `U` partition the
interval `[0, N)`. Splitting a block and merging two buddies change `S` and not the cells; taking
a block out of `S`, or putting one in, moves its cells to `U` or from there.

## Coalescing

`Coalesced` says that no two buddies are both in a set of free blocks; in such a set every
aligned run of free cells lies inside a single free block. So a search for a block of some size
that goes through the blocks and not through the cells misses nothing.

## Main results

* `Block.subset_of_le`: blocks are nested or disjoint.
* `Tiling.remove`, `Tiling.insert`: cells move between blocks and the remainder.
* `Coalesced.exists_superset`: an aligned run of free cells is inside one free block.
* `Coalesced.subset_of_cells`: the cells determine the coalesced blocks.
* `sum_size_le`: disjoint blocks inside an interval are not larger than it.
-/

namespace DockerMacos

/-- A dyadic block: its start is a multiple of its size. -/
@[ext]
structure Block where
  /-- The binary logarithm of the size. -/
  bits : ℕ
  /-- The first cell. -/
  off : ℕ
  aligned : 2 ^ bits ∣ off

namespace Block

/-- The number of cells. -/
def size (b : Block) : ℕ := 2 ^ b.bits

/-- The cell after the last one. -/
def past (b : Block) : ℕ := b.off + 2 ^ b.bits

/-- The cells of a block. -/
def cells (b : Block) : Set ℕ := Set.Ico b.off b.past

/-- The cells of a block are those from its start to its end. -/
theorem mem_cells {b : Block} {n : ℕ} : n ∈ b.cells ↔ b.off ≤ n ∧ n < b.past := Iff.rfl

/-- A block is not empty. -/
theorem size_pos (b : Block) : 0 < 2 ^ b.bits := Nat.two_pow_pos _

/-- It ends behind its start. -/
theorem off_lt_past (b : Block) : b.off < b.past := Nat.lt_add_of_pos_right b.size_pos

/-- It has its first cell. -/
theorem off_mem (b : Block) : b.off ∈ b.cells := ⟨le_rfl, b.off_lt_past⟩

/-- The last cell of a block. -/
def last (b : Block) : ℕ := b.past - 1

/-- And its last one. -/
theorem last_mem (b : Block) : b.last ∈ b.cells := by
  have := b.off_lt_past
  rw [mem_cells, last]
  omega

/-- A block ends on a boundary of its size, and of any smaller one. -/
theorem dvd_past {b : Block} {k : ℕ} (hk : k ≤ b.bits) : 2 ^ k ∣ b.past :=
  Nat.dvd_add ((Nat.pow_dvd_pow 2 hk).trans b.aligned) (Nat.pow_dvd_pow 2 hk)

/-- It starts on one. -/
theorem dvd_off {b : Block} {k : ℕ} (hk : k ≤ b.bits) : 2 ^ k ∣ b.off :=
  (Nat.pow_dvd_pow 2 hk).trans b.aligned

/-- Multiples of `m` that are less than `m` apart on the far side are ordered. -/
theorem add_le_of_dvd {m x y : ℕ} (hx : m ∣ x) (hy : m ∣ y) (h : x < y) : x + m ≤ y := by
  obtain ⟨a, rfl⟩ := hx
  obtain ⟨b, rfl⟩ := hy
  have hab : a + 1 ≤ b := Nat.lt_of_mul_lt_mul_left h
  calc m * a + m = m * (a + 1) := (Nat.mul_succ m a).symm
    _ ≤ m * b := Nat.mul_le_mul_left m hab

/-- **Nested or disjoint.** A block that meets a block at least as large is part of it. -/
theorem subset_of_le {b c : Block} (hbits : b.bits ≤ c.bits) {n : ℕ} (hb : n ∈ b.cells)
    (hc : n ∈ c.cells) : c.off ≤ b.off ∧ b.past ≤ c.past := by
  rw [mem_cells] at hb hc
  constructor
  · by_contra hlt
    have := add_le_of_dvd b.aligned (dvd_off hbits) (not_le.mp hlt)
    rw [past] at hb
    omega
  · have := add_le_of_dvd b.aligned (dvd_past hbits) (show b.off < c.past by omega)
    rwa [past]

/-- Two blocks of one size that meet are the same. -/
theorem eq_of_mem {b c : Block} (hbits : b.bits = c.bits) {n : ℕ} (hb : n ∈ b.cells)
    (hc : n ∈ c.cells) : b = c := by
  have h₁ := (subset_of_le hbits.le hb hc).1
  have h₂ := (subset_of_le hbits.ge hc hb).1
  exact Block.ext hbits (le_antisymm h₂ h₁)

/-- A block inside another is at most as large. -/
theorem bits_le_of_subset {b c : Block} (h₁ : c.off ≤ b.off) (h₂ : b.past ≤ c.past) :
    b.bits ≤ c.bits := by
  have hsize : 2 ^ b.bits ≤ 2 ^ c.bits := by
    rw [past, past] at h₂
    omega
  exact (Nat.pow_le_pow_iff_right (by omega)).mp hsize

/-! ### Buddies -/

/-- Flipping the bit of its size in a multiple of `2 ^ k`. -/
theorem xor_two_pow {o k : ℕ} (h : 2 ^ k ∣ o) :
    o ^^^ 2 ^ k = if 2 ^ (k + 1) ∣ o then o + 2 ^ k else o - 2 ^ k := by
  obtain ⟨q, rfl⟩ := h
  have hxor : 2 ^ k * q ^^^ 2 ^ k = 2 ^ k * (q ^^^ 1) := by
    have := @Nat.shiftLeft_xor_distrib k q 1
    simp only [Nat.shiftLeft_eq, one_mul] at this
    rw [Nat.mul_comm (2 ^ k) q, Nat.mul_comm (2 ^ k) (q ^^^ 1)]
    exact this.symm
  have hdvd : 2 ^ (k + 1) ∣ 2 ^ k * q ↔ Even q := by
    rw [pow_succ, Nat.mul_dvd_mul_iff_left (Nat.two_pow_pos k), even_iff_two_dvd]
  rw [hxor]
  by_cases hq : Even q
  · rw [if_pos (hdvd.mpr hq), Nat.xor_one_of_even hq, Nat.mul_succ]
  · rw [if_neg (mt hdvd.mp hq), Nat.xor_one_of_odd (Nat.not_even_iff_odd.mp hq),
      Nat.mul_sub, Nat.mul_one]

/-- The block that differs in the bit of its size. -/
def buddy (b : Block) : Block where
  bits := b.bits
  off := b.off ^^^ 2 ^ b.bits
  aligned := by
    rw [xor_two_pow b.aligned]
    split
    · exact Nat.dvd_add b.aligned dvd_rfl
    · exact Nat.dvd_sub b.aligned dvd_rfl

/-- The buddy has the same size. -/
@[simp] theorem buddy_bits (b : Block) : b.buddy.bits = b.bits := rfl

/-- The buddy of the buddy is the block. -/
theorem buddy_buddy (b : Block) : b.buddy.buddy = b :=
  Block.ext rfl (Nat.xor_xor_cancel_right b.off (2 ^ b.bits))

/-- A block and its buddy, in order. -/
theorem buddy_off (b : Block) :
    2 ^ (b.bits + 1) ∣ b.off ∧ b.buddy.off = b.off + 2 ^ b.bits ∨
      2 ^ (b.bits + 1) ∣ b.buddy.off ∧ b.off = b.buddy.off + 2 ^ b.bits := by
  have hoff : b.buddy.off = b.off ^^^ 2 ^ b.bits := rfl
  rw [xor_two_pow b.aligned] at hoff
  by_cases h : 2 ^ (b.bits + 1) ∣ b.off
  · rw [if_pos h] at hoff
    exact .inl ⟨h, hoff⟩
  · rw [if_neg h] at hoff
    obtain ⟨q, hq⟩ := b.aligned
    have hodd : ¬ 2 ∣ q := by
      rintro ⟨r, rfl⟩
      exact h ⟨r, by rw [hq, pow_succ, mul_assoc]⟩
    obtain ⟨r, rfl⟩ : ∃ r, q = 2 * r + 1 := ⟨q / 2, by omega⟩
    have hsum : b.off = 2 ^ (b.bits + 1) * r + 2 ^ b.bits := by
      rw [hq, pow_succ]
      ring
    refine .inr ⟨⟨r, by omega⟩, by omega⟩

/-- The block made up of a block and its buddy. -/
def parent (b : Block) : Block where
  bits := b.bits + 1
  off := min b.off b.buddy.off
  aligned := by
    rcases b.buddy_off with ⟨h, heq⟩ | ⟨h, heq⟩
    · rwa [heq, min_eq_left (by omega)]
    · rwa [heq, min_eq_right (by omega)]

/-- The parent has twice the size. -/
@[simp] theorem parent_bits (b : Block) : b.parent.bits = b.bits + 1 := rfl

/-- It ends where the later of the two buddies does. -/
theorem parent_past (b : Block) : b.parent.past = max b.past b.buddy.past := by
  rw [past, past, past, parent_bits, buddy_bits, pow_succ]
  show min b.off b.buddy.off + _ = _
  rcases b.buddy_off with ⟨-, h⟩ | ⟨-, h⟩ <;> rw [h] <;> omega

/-- The cells of the parent are those of the two buddies. -/
theorem mem_parent {b : Block} {n : ℕ} :
    n ∈ b.parent.cells ↔ n ∈ b.cells ∨ n ∈ b.buddy.cells := by
  have hpast := b.parent_past
  rw [mem_cells, mem_cells, mem_cells, hpast]
  show min b.off b.buddy.off ≤ n ∧ _ ↔ _
  simp only [past, buddy_bits]
  rcases b.buddy_off with ⟨-, h⟩ | ⟨-, h⟩ <;> rw [h] <;> omega

/-- No block is its own buddy. -/
theorem buddy_ne (b : Block) : b.buddy ≠ b := by
  intro h
  have hoff := congrArg Block.off h
  have := b.size_pos
  rcases b.buddy_off with ⟨-, heq⟩ | ⟨-, heq⟩ <;> omega

/-- A block strictly inside another lies there together with its buddy. -/
theorem parent_subset {b c : Block} (hlt : b.bits < c.bits) {n : ℕ} (hb : n ∈ b.cells)
    (hc : n ∈ c.cells) : c.off ≤ b.parent.off ∧ b.parent.past ≤ c.past :=
  subset_of_le (b := b.parent) hlt (mem_parent.mpr (.inl hb)) hc

/-- A block that starts inside a larger one, after its first cell, has its buddy there. -/
theorem buddy_off_mem {b c : Block} (hoff : c.off < b.off) (hpast : b.past ≤ c.past) :
    b.buddy.off ∈ c.cells := by
  have hlt : b.bits < c.bits := by
    by_contra hge
    have hb : b.off ∈ c.cells := ⟨hoff.le, lt_of_lt_of_le b.off_lt_past hpast⟩
    have := (subset_of_le (not_lt.mp hge) hb b.off_mem).1
    omega
  have hb : b.off ∈ c.cells := ⟨hoff.le, lt_of_lt_of_le b.off_lt_past hpast⟩
  obtain ⟨h₁, h₂⟩ := parent_subset hlt b.off_mem hb
  have hmem : b.buddy.off ∈ b.parent.cells := mem_parent.mpr (.inr b.buddy.off_mem)
  exact ⟨h₁.trans hmem.1, lt_of_lt_of_le hmem.2 h₂⟩

/-- A block and its buddy have no cell in common. -/
theorem not_mem_buddy {b : Block} {n : ℕ} (hb : n ∈ b.cells) : n ∉ b.buddy.cells :=
  fun h => b.buddy_ne (eq_of_mem rfl h hb)

end Block

/-! ### Tilings -/

/-- The blocks of `S` and the cells of `U` partition the interval `[0, N)`. -/
structure Tiling (N : ℕ) (S : Set Block) (U : Set ℕ) : Prop where
  inside : ∀ b ∈ S, b.past ≤ N
  disjoint : ∀ b ∈ S, ∀ c ∈ S, ∀ n, n ∈ b.cells → n ∈ c.cells → b = c
  avoid : ∀ b ∈ S, ∀ n ∈ b.cells, n ∉ U
  cover : ∀ n < N, n ∈ U ∨ ∃ b ∈ S, n ∈ b.cells

namespace Tiling

variable {N : ℕ} {S T : Set Block} {U V : Set ℕ} {b : Block}

/-- A block leaves the tiling; its cells remain. -/
theorem remove (h : Tiling N S U) (hT : ∀ c, c ∈ T ↔ c ∈ S ∧ c ≠ b) (hb : b ∈ S)
    (hV : ∀ n, n ∈ V ↔ n ∈ U ∨ n ∈ b.cells) : Tiling N T V where
  inside c hc := h.inside c ((hT c).mp hc).1
  disjoint c hc d hd := h.disjoint c ((hT c).mp hc).1 d ((hT d).mp hd).1
  avoid c hc n hn hnV := by
    obtain ⟨hcS, hne⟩ := (hT c).mp hc
    rcases (hV n).mp hnV with hU | hnb
    · exact h.avoid c hcS n hn hU
    · exact hne (h.disjoint c hcS b hb n hn hnb)
  cover n hn := by
    rcases h.cover n hn with hU | ⟨c, hc, hnc⟩
    · exact .inl ((hV n).mpr (.inl hU))
    · by_cases hcb : c = b
      · exact .inl ((hV n).mpr (.inr (hcb ▸ hnc)))
      · exact .inr ⟨c, (hT c).mpr ⟨hc, hcb⟩, hnc⟩

/-- Remaining cells become a block. -/
theorem insert (h : Tiling N S U) (hT : ∀ c, c ∈ T ↔ c = b ∨ c ∈ S)
    (hb : ∀ n ∈ b.cells, n ∈ U) (hpast : b.past ≤ N)
    (hV : ∀ n, n ∈ V ↔ n ∈ U ∧ n ∉ b.cells) : Tiling N T V where
  inside c hc := by
    rcases (hT c).mp hc with rfl | hc
    · exact hpast
    · exact h.inside c hc
  disjoint c hc d hd n hnc hnd := by
    rcases (hT c).mp hc with rfl | hc <;> rcases (hT d).mp hd with rfl | hd
    · rfl
    · exact absurd (hb n hnc) (h.avoid d hd n hnd)
    · exact absurd (hb n hnd) (h.avoid c hc n hnc)
    · exact h.disjoint c hc d hd n hnc hnd
  avoid c hc n hn hnV := by
    obtain ⟨hU, hnb⟩ := (hV n).mp hnV
    rcases (hT c).mp hc with rfl | hc
    · exact hnb hn
    · exact h.avoid c hc n hn hU
  cover n hn := by
    rcases h.cover n hn with hU | ⟨c, hc, hnc⟩
    · by_cases hnb : n ∈ b.cells
      · exact .inr ⟨b, (hT b).mpr (.inl rfl), hnb⟩
      · exact .inl ((hV n).mpr ⟨hU, hnb⟩)
    · exact .inr ⟨c, (hT c).mpr (.inr hc), hnc⟩

end Tiling

/-! ### Coalescing -/

/-- No free block below the largest size has a free buddy. -/
def Coalesced (maxBits : ℕ) (F : Set Block) : Prop :=
  ∀ b ∈ F, b.bits < maxBits → b.buddy ∉ F

/-- Removing free blocks keeps them coalesced. -/
theorem Coalesced.mono {maxBits : ℕ} {F G : Set Block} (h : Coalesced maxBits F)
    (hGF : G ⊆ F) : Coalesced maxBits G :=
  fun b hb hlt hbuddy => h b (hGF hb) hlt (hGF hbuddy)

/-- **Completeness.** In a coalesced set every aligned run of free cells, up to the
largest size, lies inside one free block. -/
theorem Coalesced.exists_superset {maxBits : ℕ} {F : Set Block} (h : Coalesced maxBits F)
    (k : ℕ) (hk : k ≤ maxBits) (r : Block) (hr : r.bits = k)
    (hfree : ∀ n ∈ r.cells, ∃ b ∈ F, n ∈ b.cells) :
    ∃ b ∈ F, b.off ≤ r.off ∧ r.past ≤ b.past := by
  induction k generalizing r with
  | zero =>
      obtain ⟨b, hb, hmem⟩ := hfree r.off r.off_mem
      exact ⟨b, hb, Block.subset_of_le (by omega) r.off_mem hmem⟩
  | succ k ih =>
      -- the two halves of the run
      have hdvd : 2 ^ (k + 1) ∣ r.off := hr ▸ r.aligned
      let left : Block := ⟨k, r.off, (pow_dvd_pow 2 (Nat.le_succ k)).trans hdvd⟩
      have hbuddy : left.buddy.off = r.off + 2 ^ k := by
        show r.off ^^^ 2 ^ k = _
        rw [Block.xor_two_pow left.aligned, if_pos hdvd]
      have hpow : 2 ^ (k + 1) = 2 ^ k + 2 ^ k := by rw [pow_succ]; omega
      have hrpast : r.past = r.off + (2 ^ k + 2 ^ k) := by rw [Block.past, hr, hpow]
      have hleft : left.past = r.off + 2 ^ k := rfl
      have hright : left.buddy.past = r.off + (2 ^ k + 2 ^ k) := by
        rw [Block.past, hbuddy, Nat.add_assoc]
        rfl
      obtain ⟨b, hb, hb₁, hb₂⟩ := ih (by omega) left rfl fun n hn => hfree n
        ⟨hn.1, by have := hn.2; omega⟩
      obtain ⟨c, hc, hc₁, hc₂⟩ := ih (by omega) left.buddy rfl fun n hn => hfree n
        ⟨by have := hn.1; omega, by have := hn.2; omega⟩
      have hbk : k ≤ b.bits := Block.bits_le_of_subset hb₁ hb₂
      have hck : k ≤ c.bits := Block.bits_le_of_subset hc₁ hc₂
      have hbr : r.off ∈ b.cells := ⟨hb₁, by have := left.size_pos; omega⟩
      have hcr : r.off + 2 ^ k ∈ c.cells :=
        ⟨by omega, by have := left.buddy.off_lt_past; omega⟩
      have hcr' : r.off + 2 ^ k ∈ r.cells := ⟨by omega, by have := left.size_pos; omega⟩
      by_cases hbk' : k < b.bits
      · exact ⟨b, hb, Block.subset_of_le (by omega) r.off_mem hbr⟩
      by_cases hck' : k < c.bits
      · exact ⟨c, hc, Block.subset_of_le (by omega) hcr' hcr⟩
      -- both halves would be free blocks
      have hbl : b = left := Block.eq_of_mem (by show b.bits = k; omega) hbr left.off_mem
      have hcl : c = left.buddy :=
        Block.eq_of_mem (by show c.bits = k; omega) hcr (hbuddy ▸ left.buddy.off_mem)
      exact absurd (hcl ▸ hc) (h left (hbl ▸ hb) (show k < maxBits by omega))

/-- **The coalesced blocks are canonical**: a set of disjoint blocks up to the largest size
in which no two buddies are left is determined by the cells it covers. -/
theorem Coalesced.subset_of_cells {maxBits : ℕ} {F G : Set Block} (hF : Coalesced maxBits F)
    (hG : Coalesced maxBits G) (hFbits : ∀ b ∈ F, b.bits ≤ maxBits)
    (hGbits : ∀ b ∈ G, b.bits ≤ maxBits)
    (hdisj : ∀ b ∈ F, ∀ c ∈ F, ∀ n, n ∈ b.cells → n ∈ c.cells → b = c)
    (hcells : ∀ n, (∃ b ∈ F, n ∈ b.cells) ↔ ∃ b ∈ G, n ∈ b.cells) {b : Block} (hb : b ∈ F) :
    b ∈ G := by
  -- the block lies in one of the other set, and that one in one of the first set
  obtain ⟨c, hc, hcb₁, hcb₂⟩ := hG.exists_superset b.bits (hFbits b hb) b rfl
    fun n hn => (hcells n).mp ⟨b, hb, hn⟩
  obtain ⟨d, hd, hdc₁, hdc₂⟩ := hF.exists_superset c.bits (hGbits c hc) c rfl
    fun n hn => (hcells n).mpr ⟨c, hc, hn⟩
  have hlt := b.off_lt_past
  have hbd : b = d := hdisj b hb d hd b.off b.off_mem ⟨by omega, by omega⟩
  subst hbd
  have hbits : b.bits = c.bits :=
    le_antisymm (Block.bits_le_of_subset hcb₁ hcb₂) (Block.bits_le_of_subset hdc₁ hdc₂)
  rwa [Block.ext hbits (le_antisymm hdc₁ hcb₁)]

/-! ### Sizes -/

/-- Pairwise disjoint blocks inside `[0, N)` have at most `N` cells together. -/
theorem sum_size_le {ι : Type*} {N : ℕ} {I : Finset ι} {block : ι → Block}
    (hdisj : ∀ i ∈ I, ∀ j ∈ I, ∀ n, n ∈ (block i).cells → n ∈ (block j).cells → i = j)
    (hin : ∀ i ∈ I, (block i).past ≤ N) : ∑ i ∈ I, (block i).size ≤ N := by
  classical
  have hsub : I.biUnion (fun i => Finset.Ico (block i).off (block i).past) ⊆
      Finset.range N := by
    intro n hn
    obtain ⟨i, hi, hmem⟩ := Finset.mem_biUnion.mp hn
    have := hin i hi
    have := (Finset.mem_Ico.mp hmem).2
    exact Finset.mem_range.mpr (by omega)
  have hcard := Finset.card_le_card hsub
  rw [Finset.card_biUnion, Finset.card_range] at hcard
  · refine le_trans (le_of_eq (Finset.sum_congr rfl fun i _ => ?_)) hcard
    rw [Nat.card_Ico, Block.past, Nat.add_sub_cancel_left]
    rfl
  · intro i hi j hj hne
    refine Finset.disjoint_left.mpr fun n hni hnj => hne ?_
    exact hdisj i hi j hj n (Finset.mem_Ico.mp hni) (Finset.mem_Ico.mp hnj)

end DockerMacos
