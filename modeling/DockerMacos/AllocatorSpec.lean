import Mathlib.Algebra.Order.BigOperators.Group.Finset
import Mathlib.Data.Nat.Log
import DockerMacos.AllocatorInv

/-!
# Adding Free Blocks and Allocating

What `makeFree`, `toFree`, `BuddyMalloc` and `BuddyAllocSize` do, in terms of the
representation invariant.

## Cutting a range

`toFree` goes through a range from its start and takes at each place the largest block that is
on a boundary and fits before the end: the growing loop goes up until the next size would not
do, the shrinking loop goes down until the size does. So it cuts a range into maximal dyadic
blocks: every aligned block of the range that meets a piece is part of it. A piece and its
buddy therefore never both come from one range, and the free blocks stay coalesced
(`Coalesced.cut`).

## Allocating

`BuddyMalloc` takes the first block of the first list that is not empty, from the size asked for
on upwards. The block leaves its list, its first part is marked, and the rest goes back by
`toFree`; between the two steps the rest is in hand (`Taken`). `BuddyAllocSize` reads the size
of a live block off the bit map: the first bit that is set at the end of an aligned block.

## Main results

* `RepInv.makeFree_spec`, `RepInv.toFree_spec`: adding free blocks.
* `RepInv.buddyMalloc_spec`: allocation succeeds if a large enough block is free.
* `RepInv.buddyAllocSize_live`: the size of an allocated block.
-/

namespace DockerMacos

open VMsvga2Allocator

/-! ### Writing headers and trailers -/

/-- The word written reads back, every other one as before. -/
theorem setWord_apply (mem : ℕ → ℕ) (j v i : ℕ) :
    setWord mem j v i = if i = j then v else mem i := Function.update_apply mem j v i

/-- So does a word that is written under a condition. -/
theorem ite_setWord_apply (p : Prop) [Decidable p] (mem : ℕ → ℕ) (j v i : ℕ) :
    (if p then setWord mem j v else mem) i = if p ∧ i = j then v else mem i := by
  by_cases hp : p
  · simp only [hp, if_true, true_and, setWord_apply]
  · simp only [hp, if_false, false_and]

namespace VMsvga2Allocator

/-- The state after a block has been given its header and trailer and put in front of its
list. -/
def linkFront (s : VMsvga2Allocator) (block bits freeBytes : ℕ) : VMsvga2Allocator :=
  let next := s.freeList bits
  let mem := setWord (setWord (setWord s.mem (blockWord block 0) allocMagic)
    (blockWord block 1) ourNull) (blockWord block 2) next
  let mem := setWord mem (trailerWord (block + 2 ^ bits)) (bits + lenOffset)
  { s with
    mem := if next ≠ ourNull then setWord mem (blockWord next 1) block else mem
    freeList := Function.update s.freeList bits block
    freeBytes := freeBytes }

/-- `makeFree` links the block in front of its list, and counts its bytes. -/
theorem makeFree_eq (s : VMsvga2Allocator) (block bits : ℕ) :
    s.makeFree block bits false =
      s.linkFront block bits (add32 s.freeBytes (2 ^ (bits + minBits))) := by
  rw [makeFree, linkFront]
  by_cases h : s.freeList bits = ourNull
  · simp [h, setMagic, setPrev, setNext, setBitsBefore, setFreeList]
  · simp [h, setMagic, setPrev, setNext, setBitsBefore, setFreeList]

/-- It does not change the size of the pool. -/
@[simp] theorem makeFree_poolBlocks (s : VMsvga2Allocator) (block bits : ℕ) :
    (s.makeFree block bits false).poolBlocks = s.poolBlocks := by
  rw [makeFree_eq]
  rfl

/-- Nor where the pool starts. -/
@[simp] theorem makeFree_poolStart (s : VMsvga2Allocator) (block bits : ℕ) :
    (s.makeFree block bits false).poolStart = s.poolStart := by
  rw [makeFree_eq]
  rfl

end VMsvga2Allocator

namespace RepInv

variable {s s' : VMsvga2Allocator} {live : Set Block} {lists : ℕ → List ℕ}
  {unrel hand : Set ℕ} {credit credit' : ℕ} {b c : Block}

/-- Writing the header and the trailer of a block and linking it in front is the move
`RepInv.push`. -/
theorem linkFront (h : RepInv s live lists unrel hand credit) (hbits : b.bits < numSizes)
    (hcells : ∀ n ∈ b.cells, n ∈ hand) (hpast : b.past ≤ s.poolBlocks) {freeBytes : ℕ}
    (hbytes : freeBytes =
      (listBytes lists + 2 ^ (b.bits + minBits) + credit') % 2 ^ 32) :
    RepInv (s.linkFront b.off b.bits freeBytes) live
      (Function.update lists b.bits (b.off :: lists b.bits)) unrel
      {n | n ∈ hand ∧ n ∉ b.cells} credit' := by
  have hne : s.freeList b.bits ≠ ourNull → s.freeList b.bits ≠ b.off := by
    intro hnull heq
    obtain ⟨l, hl⟩ := (h.freeList_ne_iff hbits).mp hnull
    obtain ⟨c, hc, -, hoff⟩ := h.exists_block hbits (hl ▸ List.mem_cons_self)
    exact h.free_not_hand hc c.off_mem (hcells _ (by rw [hoff, heq]; exact b.off_mem))
  have hsize := b.size_pos
  -- the new contents of memory, word by word
  have hmem : ∀ i, (s.linkFront b.off b.bits freeBytes).mem i =
      if s.freeList b.bits ≠ ourNull ∧ i = s.freeList b.bits * 1024 + 1 then b.off
      else if i = (b.off + 2 ^ b.bits) * 1024 - 1 then b.bits + lenOffset
      else if i = b.off * 1024 + 2 then s.freeList b.bits
      else if i = b.off * 1024 + 1 then ourNull
      else if i = b.off * 1024 then allocMagic
      else s.mem i := by
    intro i
    rw [VMsvga2Allocator.linkFront]
    simp only [ite_setWord_apply, setWord_apply, blockWord_eq, trailerWord_eq, Nat.add_zero]
  refine h.push hbits hcells hpast rfl rfl rfl ?_ ?_ ?_ ?_ (fun hnull => ?_)
    (fun i hpage hi => ?_) hbytes
  · rw [magicOf, hmem, blockWord_eq, if_neg (by omega), if_neg (by omega), if_neg (by omega),
      if_neg (by omega), if_pos (by omega)]
  · rw [prevOf, hmem, blockWord_eq, if_neg ?_, if_neg (by omega), if_neg (by omega),
      if_pos rfl]
    rintro ⟨hnull, heq⟩
    exact hne hnull (by omega)
  · rw [nextOf, hmem, blockWord_eq, if_neg (by omega), if_neg (by omega), if_pos rfl]
  · rw [bitsBefore, hmem, trailerWord_eq, Block.past, if_neg (by omega), if_pos rfl]
  · rw [prevOf, hmem, blockWord_eq, if_pos ⟨hnull, rfl⟩]
  · rw [pageOf, Block.mem_cells, Block.past] at hpage
    rw [hmem, if_neg ?_, if_neg (by omega), if_neg (by omega), if_neg (by omega),
      if_neg (by omega)]
    rintro ⟨hnull, heq⟩
    refine hi hnull ?_
    rw [blockWord_eq, heq]

/-- `makeFree` puts a block on its free list. -/
theorem makeFree_spec (h : RepInv s live lists unrel hand credit) (hbits : b.bits < numSizes)
    (hcells : ∀ n ∈ b.cells, n ∈ hand) (hpast : b.past ≤ s.poolBlocks) :
    RepInv (s.makeFree b.off b.bits false) live
      (Function.update lists b.bits (b.off :: lists b.bits)) unrel
      {n | n ∈ hand ∧ n ∉ b.cells} credit := by
  rw [makeFree_eq]
  refine h.linkFront hbits hcells hpast ?_
  rw [add32, h.freeBytes, Nat.mod_add_mod, Nat.add_right_comm]

end RepInv

/-! ### Where the allocator writes -/

/-- The minimum blocks that the allocator has to itself: those in hand and those of the free
blocks. -/
def workCells (lists : ℕ → List ℕ) (hand : Set ℕ) : Set ℕ :=
  {n | n ∈ hand ∨ ∃ c ∈ freeSet lists, n ∈ c.cells}

/-- The second state has other contents than the first only in the given minimum blocks. -/
def WritesOnly (cells : Set ℕ) (s s' : VMsvga2Allocator) : Prop :=
  ∀ i, pageOf i ∉ cells → s'.mem i = s.mem i

namespace WritesOnly

variable {s₁ s₂ s₃ : VMsvga2Allocator} {cells cells' : Set ℕ}

/-- What is unchanged is unchanged outside any blocks. -/
theorem refl (s : VMsvga2Allocator) : WritesOnly cells s s := fun _ _ => rfl

/-- Two writes into the same blocks. -/
theorem trans (h₁ : WritesOnly cells s₁ s₂) (h₂ : WritesOnly cells s₂ s₃) :
    WritesOnly cells s₁ s₃ := fun i hi => (h₂ i hi).trans (h₁ i hi)

/-- A write into fewer blocks is one into more. -/
theorem mono (h : WritesOnly cells s₁ s₂) (hsub : ∀ n ∈ cells, n ∈ cells') :
    WritesOnly cells' s₁ s₂ := fun i hi => h i fun hin => hi (hsub _ hin)

end WritesOnly

/-- Words outside a block are none of its header and not its trailer. -/
theorem outside_ne {c : Block} {i : ℕ} (hi : pageOf i ∉ c.cells) :
    i ≠ trailerWord c.past ∧ ∀ j < 3, i ≠ blockWord c.off j := by
  refine ⟨?_, ?_⟩
  · rintro rfl
    exact hi (c.pageOf_trailer ▸ c.last_mem)
  · rintro j hj rfl
    rw [pageOf_blockWord (by omega)] at hi
    exact hi c.off_mem

/-- A block that goes from the hand to its list stays with the allocator. -/
theorem workCells_push {lists : ℕ → List ℕ} {hand : Set ℕ} {b : Block}
    (hbits : b.bits < numSizes) (hcells : ∀ n ∈ b.cells, n ∈ hand) :
    ∀ n ∈ workCells (Function.update lists b.bits (b.off :: lists b.bits))
      {n | n ∈ hand ∧ n ∉ b.cells}, n ∈ workCells lists hand := by
  rintro n (hn | ⟨c, hc, hn⟩)
  · exact .inl hn.1
  · rcases (freeSet_push hbits c).mp hc with rfl | hc
    · exact .inl (hcells n hn)
    · exact .inr ⟨c, hc, hn⟩

namespace RepInv

variable {s s' : VMsvga2Allocator} {live : Set Block} {lists : ℕ → List ℕ}
  {unrel hand : Set ℕ} {credit credit' : ℕ} {b c : Block}

/-- The headers of the blocks on the lists belong to the allocator. -/
theorem header_mem_workCells (h : RepInv s live lists unrel hand credit) {k o j : ℕ}
    (hk : k < numSizes) (ho : o ∈ lists k) (hj : j < 3) :
    pageOf (blockWord o j) ∈ workCells lists hand := by
  obtain ⟨c, hc, -, rfl⟩ := h.exists_block hk ho
  rw [pageOf_blockWord (by omega)]
  exact .inr ⟨c, hc, c.off_mem⟩

/-- Live blocks are no place of the allocator. -/
theorem live_not_workCells (h : RepInv s live lists unrel hand credit) (hb : b ∈ live) {n : ℕ}
    (hn : n ∈ b.cells) : n ∉ workCells lists hand := by
  rintro (hhand | ⟨c, hc, hnc⟩)
  · exact h.tiling.avoid b (h.live_mem hb) n hn (.inr hhand)
  · exact h.live_not_free hb hc hn hnc

/-- Linking a block in front writes into the block and into the former head of the list. -/
theorem linkFront_writes (h : RepInv s live lists unrel hand credit)
    (hbits : b.bits < numSizes) (hcells : ∀ n ∈ b.cells, n ∈ hand) (freeBytes : ℕ) :
    WritesOnly (workCells lists hand) s (s.linkFront b.off b.bits freeBytes) := by
  intro i hi
  obtain ⟨htrailer, hheader⟩ := outside_ne fun hb => hi (.inl (hcells _ hb))
  rw [Block.past] at htrailer
  have hnext : ¬ (s.freeList b.bits ≠ ourNull ∧ i = blockWord (s.freeList b.bits) 1) := by
    rintro ⟨hnull, rfl⟩
    obtain ⟨l, hl⟩ := (h.freeList_ne_iff hbits).mp hnull
    exact hi (h.header_mem_workCells hbits (hl ▸ List.mem_cons_self) (by omega))
  rw [VMsvga2Allocator.linkFront]
  simp only [ite_setWord_apply, setWord_apply]
  rw [if_neg hnext, if_neg htrailer, if_neg (hheader 2 (by omega)),
    if_neg (hheader 1 (by omega)), if_neg (hheader 0 (by omega))]

/-- `makeFree` writes into the block and into the head of its list. -/
theorem makeFree_writes (h : RepInv s live lists unrel hand credit)
    (hbits : b.bits < numSizes) (hcells : ∀ n ∈ b.cells, n ∈ hand) :
    WritesOnly (workCells lists hand) s (s.makeFree b.off b.bits false) := by
  rw [makeFree_eq]
  exact h.linkFront_writes hbits hcells _

end RepInv

/-! ### Cutting a range into blocks -/

/-- A block of size `2 ^ v` at `i` fits before `past` and is on a boundary. -/
def Fits (i past v : ℕ) : Prop := 2 ^ v ∣ i ∧ i + 2 ^ v ≤ past

/-- Where a block fits, a smaller one does. -/
theorem Fits.mono {i past v w : ℕ} (h : Fits i past w) (hvw : v ≤ w) : Fits i past v := by
  have hpow : 2 ^ v ≤ 2 ^ w := Nat.pow_le_pow_right (by omega) hvw
  exact ⟨(pow_dvd_pow 2 hvw).trans h.1, by have := h.2; omega⟩

/-- The boundary test of the source. -/
theorem and_mask_ne_zero {i v : ℕ} : i &&& (2 ^ v - 1) ≠ 0 ↔ ¬ 2 ^ v ∣ i := by
  rw [Nat.and_two_pow_sub_one_eq_mod, Nat.dvd_iff_mod_eq_zero]

/-- Nothing larger fits after the growing loop. -/
theorem growTry_spec (i past left t : ℕ) :
    ∀ v, growTry i past left t < v → v ≤ t + left → ¬ Fits i past v := by
  induction left generalizing t with
  | zero =>
      intro v hlt hle
      rw [growTry] at hlt
      omega
  | succ left ih =>
      intro v hlt hle hfits
      rw [growTry] at hlt
      split at hlt
      · have := (hfits.mono (v := t + 1) (by omega)).2
        omega
      · split at hlt
        · rename_i hmask
          exact and_mask_ne_zero.mp hmask (hfits.mono (v := t + 1) (by omega)).1
        · exact ih (t + 1) v hlt (by omega) hfits

/-- The growing loop goes up by no more than the sizes that are left. -/
theorem growTry_le (i past left t : ℕ) : growTry i past left t ≤ t + left := by
  induction left generalizing t with
  | zero => rw [growTry, Nat.add_zero]
  | succ left ih =>
      rw [growTry]
      split
      · omega
      · split
        · omega
        · have := ih (t + 1)
          omega

/-- The shrinking loop ends with the largest size that fits. -/
theorem shrinkTry_spec {i past : ℕ} (hi : i < past) (t : ℕ) :
    ∃ u, shrinkTry i past t = some u ∧ u ≤ t ∧ Fits i past u ∧
      ∀ v, u < v → v ≤ t → ¬ Fits i past v := by
  induction t with
  | zero =>
      refine ⟨0, ?_, le_rfl, ⟨one_dvd _, hi⟩, fun v h1 h2 => by omega⟩
      rw [shrinkTry, if_neg (by omega)]
  | succ t ih =>
      by_cases hfits : Fits i past (t + 1)
      · refine ⟨t + 1, ?_, le_rfl, hfits, fun v h1 h2 => by omega⟩
        have hmask : ¬ (i &&& (2 ^ (t + 1) - 1) ≠ 0) := fun h => and_mask_ne_zero.mp h hfits.1
        have hlen := hfits.2
        rw [shrinkTry, if_neg (by omega), if_neg hmask]
      · obtain ⟨u, hu, hle, hfit, hmax⟩ := ih
        refine ⟨u, ?_, by omega, hfit, fun v h1 h2 => ?_⟩
        · rw [shrinkTry]
          split
          · exact hu
          · rename_i hlen
            rw [if_pos (and_mask_ne_zero.mpr fun hdvd => hfits ⟨hdvd, by omega⟩)]
            exact hu
        · by_cases hv : v = t + 1
          · exact hv ▸ hfits
          · exact hmax v h1 (by omega)

/-- Whatever size they start from, the two loops find the largest one that fits. -/
theorem shrinkTry_growTry {i past t : ℕ} (hi : i < past) (ht : t < numSizes) :
    ∃ u, shrinkTry i past (growTry i past (numSizes - 1 - t) t) = some u ∧ u < numSizes ∧
      Fits i past u ∧ ∀ v < numSizes, Fits i past v → v ≤ u := by
  obtain ⟨u, hu, hule, hfits, hmax⟩ :=
    shrinkTry_spec hi (growTry i past (numSizes - 1 - t) t)
  have hgle := growTry_le i past (numSizes - 1 - t) t
  refine ⟨u, hu, by omega, hfits, fun v hv hfit => ?_⟩
  by_contra hlt
  by_cases hvg : v ≤ growTry i past (numSizes - 1 - t) t
  · exact hmax v (by omega) hvg hfit
  · exact growTry_spec i past (numSizes - 1 - t) t v (by omega) (by omega) hfit

/-- A piece of the range `[first, past)` that no aligned block of the range outgrows. -/
def MaximalIn (first past : ℕ) (p : Block) : Prop :=
  ∀ r : Block, r.bits < numSizes → first ≤ r.off → r.past ≤ past → p.off ∈ r.cells →
    r.bits ≤ p.bits

/-- No aligned block of the range `[first, past)` has cells on both sides of `i`. -/
def Uncrossed (first past i : ℕ) : Prop :=
  ∀ r : Block, r.bits < numSizes → first ≤ r.off → r.past ≤ past → ¬ (r.off < i ∧ i < r.past)

/-- The largest piece at such a place is maximal: a block that meets it there starts there. -/
theorem Uncrossed.maximalIn {first past : ℕ} {p : Block} (h : Uncrossed first past p.off)
    (hlargest : ∀ v < numSizes, Fits p.off past v → v ≤ p.bits) : MaximalIn first past p := by
  intro r hr hro hrp hmem
  have hoff : r.off = p.off := by
    have := h r hr hro hrp
    have h₁ : r.off ≤ p.off := hmem.1
    have h₂ : p.off < r.past := hmem.2
    omega
  exact hlargest r.bits hr ⟨hoff ▸ r.aligned, by rwa [Block.past, hoff] at hrp⟩

/-- The place after a maximal piece is not inside an aligned block either. -/
theorem Uncrossed.past {first past : ℕ} {p : Block} (hmax : MaximalIn first past p) :
    Uncrossed first past p.past := by
  rintro r hr hro hrp ⟨h₁, h₂⟩
  have hlt := p.off_lt_past
  by_cases hri : r.off ≤ p.off
  · -- the block would contain the piece
    have hp : p.off ∈ r.cells := ⟨hri, hlt.trans h₂⟩
    have hsub := Block.subset_of_le (hmax r hr hro hrp hp) hp p.off_mem
    omega
  · -- the block would start inside the piece
    have hmem : r.off ∈ p.cells := ⟨(not_le.mp hri).le, h₁⟩
    by_cases hle : r.bits ≤ p.bits
    · have hsub := Block.subset_of_le hle r.off_mem hmem
      omega
    · exact hri (Block.subset_of_le (not_le.mp hle).le hmem r.off_mem).1

/-- The free blocks after a range has been cut into pieces. -/
structure Cut (first past : ℕ) (lists lists' : ℕ → List ℕ) : Prop where
  keeps : ∀ b ∈ freeSet lists, b ∈ freeSet lists'
  pieces : ∀ b ∈ freeSet lists', b ∈ freeSet lists ∨
    first ≤ b.off ∧ b.past ≤ past ∧ MaximalIn first past b

namespace RepInv

variable {s s' : VMsvga2Allocator} {live : Set Block} {lists : ℕ → List ℕ}
  {unrel hand : Set ℕ} {credit credit' : ℕ} {b c : Block}

/-- The loop of `toFree`. The place `i` it has come to is never inside an aligned block
of the range, which makes the next piece maximal. -/
theorem toFreeLoop_spec {first past : ℕ} (fuel : ℕ) {i t : ℕ} (ht : t < numSizes)
    (hfuel : past - i ≤ fuel) (h : RepInv s live lists unrel hand credit)
    (hhand : ∀ n, i ≤ n → n < past → n ∈ hand) (hpast : past ≤ s.poolBlocks)
    (hfirst : first ≤ i) (hcursor : Uncrossed first past i) :
    ∃ lists', RepInv (toFreeLoop past false fuel s i t) live lists' unrel
      {n | n ∈ hand ∧ ¬ (i ≤ n ∧ n < past)} credit ∧ Cut first past lists lists' := by
  induction fuel generalizing s lists hand i t with
  | zero =>
      refine ⟨lists, h.congrParts (fun _ => Iff.rfl) (fun _ => Iff.rfl) fun n => ?_,
        fun b hb => hb, fun b hb => .inl hb⟩
      exact ⟨fun hn => hn.1, fun hn => ⟨hn, by omega⟩⟩
  | succ fuel ih =>
      rw [toFreeLoop]
      by_cases hi : i < past
      · rw [if_pos hi]
        obtain ⟨u, hu, hulast, hfits, hlargest⟩ := shrinkTry_growTry hi ht
        simp only [hu]
        -- the next piece
        let p : Block := ⟨u, i, hfits.1⟩
        have hpcells : ∀ n, n ∈ p.cells ↔ i ≤ n ∧ n < i + 2 ^ u := fun n => Iff.rfl
        have hplen : i + 2 ^ u ≤ past := hfits.2
        have hpos : 0 < 2 ^ u := p.size_pos
        have hpmax : MaximalIn first past p := hcursor.maximalIn hlargest
        have hstep := h.makeFree_spec (b := p) hulast
          (fun n hn => hhand n hn.1 (lt_of_lt_of_le hn.2 hplen)) (le_trans hplen hpast)
        obtain ⟨lists', hrep, hcut⟩ := ih (i := i + 2 ^ u) hulast (by omega) hstep
          (fun n h₁ h₂ => ⟨hhand n (by omega) h₂, fun hn => by have := (hpcells n).mp hn; omega⟩)
          (by rwa [makeFree_poolBlocks]) (by omega) (.past hpmax)
        refine ⟨lists', hrep.congrParts (fun _ => Iff.rfl) (fun _ => Iff.rfl) fun n => ?_,
          fun c hc => hcut.keeps c ((freeSet_push hulast c).mpr (.inr hc)), fun c hc => ?_⟩
        · constructor
          · rintro ⟨hn, hout⟩
            exact ⟨⟨hn, fun hp => hout (by have := (hpcells n).mp hp; omega)⟩, by omega⟩
          · rintro ⟨⟨hn, hp⟩, hout⟩
            exact ⟨hn, fun hin => hp ((hpcells n).mpr (by omega))⟩
        · rcases hcut.pieces c hc with hc | hc
          · rcases (freeSet_push (b := p) hulast c).mp hc with rfl | hc
            · exact .inr ⟨hfirst, hplen, hpmax⟩
            · exact .inl hc
          · exact .inr hc
      · rw [if_neg hi]
        refine ⟨lists, h.congrParts (fun _ => Iff.rfl) (fun _ => Iff.rfl) fun n => ?_,
          fun b hb => hb, fun b hb => .inl hb⟩
        exact ⟨fun hn => hn.1, fun hn => ⟨hn, by omega⟩⟩

/-- `toFree` cuts a range that is in hand into maximal free blocks. -/
theorem toFree_spec (h : RepInv s live lists unrel hand credit) (first past : ℕ)
    (hhand : ∀ n, first ≤ n → n < past → n ∈ hand) (hpast : past ≤ s.poolBlocks) :
    ∃ lists', RepInv (s.toFree first past false) live lists' unrel
      {n | n ∈ hand ∧ ¬ (first ≤ n ∧ n < past)} credit ∧ Cut first past lists lists' :=
  h.toFreeLoop_spec _ (by decide) le_rfl hhand hpast le_rfl fun r _ h₁ _ h₂ => by omega

/-- The loop of `toFree` writes only into what it frees and into free blocks. -/
theorem toFreeLoop_writes {past : ℕ} (fuel : ℕ) {i t : ℕ} (ht : t < numSizes)
    (h : RepInv s live lists unrel hand credit)
    (hhand : ∀ n, i ≤ n → n < past → n ∈ hand) (hpast : past ≤ s.poolBlocks) :
    WritesOnly (workCells lists hand) s (toFreeLoop past false fuel s i t) := by
  induction fuel generalizing s lists hand i t with
  | zero => exact .refl s
  | succ fuel ih =>
      rw [toFreeLoop]
      split
      · rename_i hi
        obtain ⟨u, hu, hulast, hfits, -⟩ := shrinkTry_growTry hi ht
        simp only [hu]
        let p : Block := ⟨u, i, hfits.1⟩
        have hppast : p.past ≤ past := hfits.2
        have hpcells : ∀ n ∈ p.cells, n ∈ hand := fun n hn =>
          hhand n hn.1 (lt_of_lt_of_le hn.2 hppast)
        have hstep := h.makeFree_spec (b := p) hulast hpcells (hppast.trans hpast)
        have hrest := ih (i := i + 2 ^ u) hulast hstep
          (fun n h₁ h₂ => ⟨hhand n (le_trans (Nat.le_add_right _ _) h₁) h₂,
            fun hn => not_lt.mpr h₁ hn.2⟩)
          (by rwa [makeFree_poolBlocks])
        exact (h.makeFree_writes (b := p) hulast hpcells).trans
          (hrest.mono (workCells_push (b := p) hulast hpcells))
      · exact .refl s

/-- `toFree` writes into the range and into free blocks. -/
theorem toFree_writes (h : RepInv s live lists unrel hand credit) {first past : ℕ}
    (hhand : ∀ n, first ≤ n → n < past → n ∈ hand) (hpast : past ≤ s.poolBlocks) :
    WritesOnly (workCells lists hand) s (s.toFree first past false) :=
  h.toFreeLoop_writes _ (by decide) hhand hpast

end RepInv

/-- The loop of `toFree` leaves the pool's size and start. -/
theorem toFreeLoop_pool (past fuel : ℕ) (s : VMsvga2Allocator) (i t : ℕ) :
    (toFreeLoop past false fuel s i t).poolBlocks = s.poolBlocks ∧
      (toFreeLoop past false fuel s i t).poolStart = s.poolStart := by
  induction fuel generalizing s i t with
  | zero => exact ⟨rfl, rfl⟩
  | succ fuel ih =>
      rw [toFreeLoop]
      split
      · split
        · exact ⟨rfl, rfl⟩
        · obtain ⟨h₁, h₂⟩ := ih (s.makeFree i _ false) _ _
          exact ⟨h₁.trans (makeFree_poolBlocks s i _), h₂.trans (makeFree_poolStart s i _)⟩
      · exact ⟨rfl, rfl⟩

/-- So `toFree` leaves its size. -/
@[simp] theorem toFree_poolBlocks (s : VMsvga2Allocator) (first past : ℕ) :
    (s.toFree first past false).poolBlocks = s.poolBlocks := (toFreeLoop_pool _ _ s _ _).1

/-- And its start. -/
@[simp] theorem toFree_poolStart (s : VMsvga2Allocator) (first past : ℕ) :
    (s.toFree first past false).poolStart = s.poolStart := (toFreeLoop_pool _ _ s _ _).2

/-- Cutting a range keeps the free blocks coalesced, if the buddies of its blocks were
not free before. -/
theorem Coalesced.cut {lists lists' : ℕ → List ℕ} {first past : ℕ}
    (h : Coalesced (numSizes - 1) (freeSet lists)) (hcut : Cut first past lists lists')
    (hsep : ∀ p : Block, p.bits < numSizes - 1 → first ≤ p.off → p.past ≤ past →
      p.buddy ∉ freeSet lists) : Coalesced (numSizes - 1) (freeSet lists') := by
  intro b hb hlt hbuddy
  rcases hcut.pieces b hb with hold | ⟨h₁, h₂, hmax⟩ <;>
    rcases hcut.pieces b.buddy hbuddy with hold' | ⟨h₃, h₄, -⟩
  · exact h b hold hlt hold'
  · exact hsep b.buddy hlt h₃ h₄ (b.buddy_buddy.symm ▸ hold)
  · exact hsep b hlt h₁ h₂ hold'
  · -- both pieces: their parent would be inside the range
    have hpast : b.parent.past ≤ past := by rw [b.parent_past]; exact max_le h₂ h₄
    have hoff : first ≤ b.parent.off := le_min h₁ h₃
    have := hmax b.parent (by rw [Block.parent_bits]; omega) hoff hpast
      (Block.mem_parent.mpr (.inl b.off_mem))
    rw [Block.parent_bits] at this
    omega

/-! ### Allocating -/

/-- What the search for a free list finds. -/
theorem findList_eq_some {s : VMsvga2Allocator} {left bits r : ℕ}
    (h : findList s left bits = some r) :
    bits ≤ r ∧ r < bits + left ∧ s.freeList r ≠ ourNull := by
  induction left generalizing bits with
  | zero => cases h
  | succ left ih =>
      rw [findList] at h
      split at h
      · obtain rfl := Option.some.inj h
        exact ⟨le_rfl, by omega, ‹_›⟩
      · obtain ⟨h₁, h₂, h₃⟩ := ih h
        exact ⟨by omega, by omega, h₃⟩

/-- No list found: all that were looked at are empty. -/
theorem findList_eq_none {s : VMsvga2Allocator} {left bits : ℕ}
    (h : findList s left bits = none) {k : ℕ} (h₁ : bits ≤ k) (h₂ : k < bits + left) :
    s.freeList k = ourNull := by
  induction left generalizing bits with
  | zero => omega
  | succ left ih =>
      rw [findList] at h
      split at h
      · cases h
      · rename_i hnull
        by_cases hk : k = bits
        · rw [hk]
          exact not_not.mp hnull
        · exact ih h (by omega) (by omega)

namespace RepInv

variable {s s' : VMsvga2Allocator} {live : Set Block} {lists : ℕ → List ℕ}
  {unrel hand : Set ℕ} {credit credit' : ℕ} {b c : Block}

/-- The neighbours of a free block on its list. -/
theorem neighbours (h : RepInv s live lists unrel hand credit) (hb : b ∈ freeSet lists)
    {l m : List ℕ} (hsplit : lists b.bits = l ++ b.off :: m) :
    s.prevOf b.off = l.getLast?.getD ourNull ∧ s.nextOf b.off = m.head?.getD ourNull ∧
      (∀ y, m.head? = some y →
        y < s.poolBlocks ∧ s.magicOf y = allocMagic ∧ s.prevOf y = b.off) ∧
      ∀ y, l.getLast? = some y →
        y < s.poolBlocks ∧ s.magicOf y = allocMagic ∧ s.nextOf y = b.off := by
  have hlinked := h.linked _ hb.1
  rw [hsplit] at hlinked
  have hin : ∀ y ∈ lists b.bits, y < s.poolBlocks ∧ s.magicOf y = allocMagic := by
    intro y hy
    obtain ⟨c, hc, -, rfl⟩ := h.exists_block hb.1 hy
    exact ⟨h.off_lt (h.free_mem hc), h.magic c hc⟩
  obtain ⟨hprev, hnext⟩ := hlinked.split
  obtain ⟨hback, hforth⟩ := hlinked.back
  refine ⟨hprev, hnext, fun y hy => ?_, fun y hy => ?_⟩
  · obtain ⟨h₁, h₂⟩ := hin y (by rw [hsplit]; simp [List.mem_of_mem_head? hy])
    exact ⟨h₁, h₂, hback y hy⟩
  · obtain ⟨h₁, h₂⟩ := hin y (by rw [hsplit]; simp [List.mem_of_getLast? hy])
    exact ⟨h₁, h₂, hforth y hy⟩

/-- A list that is not empty counts in `listBytes`. -/
theorem le_listBytes (lists : ℕ → List ℕ) {k o : ℕ} (hk : k < numSizes) (ho : o ∈ lists k) :
    2 ^ (k + minBits) ≤ listBytes lists := by
  have hlen : 1 ≤ (lists k).length := List.length_pos_of_mem ho
  calc 2 ^ (k + minBits) ≤ (lists k).length * 2 ^ (k + minBits) :=
        Nat.le_mul_of_pos_left _ hlen
    _ ≤ listBytes lists :=
        Finset.single_le_sum (f := fun k => (lists k).length * 2 ^ (k + minBits))
          (fun _ _ => Nat.zero_le _) (Finset.mem_range.mpr hk)

/-- The next block on a list, if there is one, is the head of the rest. -/
theorem head_of_next (h : RepInv s live lists unrel hand credit) (hb : b ∈ freeSet lists)
    {l m : List ℕ} (hsplit : lists b.bits = l ++ b.off :: m)
    (hne : s.nextOf b.off ≠ ourNull) : m.head? = some (s.nextOf b.off) := by
  have hnext := (h.neighbours hb hsplit).2.1
  cases hh : m.head? with
  | none => rw [hh] at hnext; exact absurd hnext hne
  | some y => rw [hh] at hnext; rw [hnext]; rfl

/-- The checks of the next block that `BuddyMalloc` and `Free` make succeed. -/
theorem next_checks (h : RepInv s live lists unrel hand credit) (hb : b ∈ freeSet lists)
    {l m : List ℕ} (hsplit : lists b.bits = l ++ b.off :: m) :
    ¬ (s.nextOf b.off ≠ ourNull ∧ s.nextOf b.off ≥ s.poolBlocks) ∧
    ¬ (s.nextOf b.off ≠ ourNull ∧ (s.magicOf (s.nextOf b.off) ≠ allocMagic ∨
      s.prevOf (s.nextOf b.off) ≠ b.off)) := by
  obtain ⟨-, -, hback, -⟩ := h.neighbours hb hsplit
  constructor
  · rintro ⟨hne, hge⟩
    exact absurd (hback _ (h.head_of_next hb hsplit hne)).1 (not_lt.mpr hge)
  · rintro ⟨hne, hbad⟩
    obtain ⟨-, hm, hp⟩ := hback _ (h.head_of_next hb hsplit hne)
    exact hbad.elim (fun h => h hm) fun h => h hp

/-- A list with `ourNull` at its head is empty. -/
theorem lists_eq_nil (h : RepInv s live lists unrel hand credit) {k : ℕ} (hk : k < numSizes)
    (hnull : s.freeList k = ourNull) : lists k = [] := by
  by_contra hne
  obtain ⟨x, l, hl⟩ := List.exists_cons_of_ne_nil hne
  have hx := h.freeList_eq hk
  rw [hl, hnull] at hx
  exact (h.linked k hk).ne_null x (hl ▸ List.mem_cons_self) hx.symm

/-- With fewer free bytes than a block has, no list holds one as large. -/
theorem lists_eq_nil_of_lt (h : RepInv s live lists unrel ∅ 0) {bits k : ℕ}
    (hbytes : s.freeBytes < 2 ^ (bits + minBits)) (hle : bits ≤ k) (hk : k < numSizes) :
    lists k = [] := by
  by_contra hne
  obtain ⟨x, l, hl⟩ := List.exists_cons_of_ne_nil hne
  have hsum := le_listBytes lists hk (hl ▸ List.mem_cons_self : x ∈ lists k)
  have hpow : 2 ^ (bits + minBits) ≤ 2 ^ (k + minBits) :=
    Nat.pow_le_pow_right (by omega) (by omega)
  rw [h.freeBytes_eq] at hbytes
  omega

/-- The first block of a list is taken off. -/
theorem popHead (h : RepInv s live lists unrel ∅ 0) (hc : c ∈ freeSet lists) {rest : List ℕ}
    (hlist : lists c.bits = c.off :: rest) {s₁ : VMsvga2Allocator}
    (hs₁ : s₁ = (if s.nextOf c.off ≠ ourNull then s.setPrev (s.nextOf c.off) ourNull
      else s).setFreeList c.bits (s.nextOf c.off)) :
    RepInv { s₁ with freeBytes := sub32 s₁.freeBytes (2 ^ (c.bits + minBits)) } live
      (Function.update lists c.bits rest) unrel {n | n ∈ (∅ : Set ℕ) ∨ n ∈ c.cells} 0 ∧
      s₁.poolBlocks = s.poolBlocks ∧ s₁.poolStart = s.poolStart := by
  obtain ⟨hprev, hnext, -, -⟩ := h.neighbours hc (l := []) hlist
  have hnextmem := h.head_of_next hc (l := []) hlist
  have hfields : s₁.poolBlocks = s.poolBlocks ∧ s₁.poolStart = s.poolStart ∧
      s₁.map = s.map ∧ s₁.freeBytes = s.freeBytes ∧
      s₁.freeList = Function.update s.freeList c.bits (s.nextOf c.off) ∧
      ∀ i, s₁.mem i = if s.nextOf c.off ≠ ourNull ∧ i = blockWord (s.nextOf c.off) 1 then
        ourNull else s.mem i := by
    rw [hs₁]
    by_cases hne : s.nextOf c.off = ourNull
    · simp [hne, setFreeList]
    · simp [hne, setFreeList, setPrev, setWord_apply]
  obtain ⟨hpool, hstart, hmap, hfb, hfl, hmem⟩ := hfields
  refine ⟨?_, hpool, hstart⟩
  refine h.unlink (l := []) hc hlist hpool hmap hfl (fun y hy => ?_) (by simp)
    (fun i _ hi _ => ?_) ?_ (sub32_lt _ _)
  · rw [hy] at hnext
    have hne : y ≠ ourNull := (h.linked _ hc.1).ne_null y (by
      rw [hlist]
      exact List.mem_cons_of_mem _ (List.mem_of_mem_head? hy))
    dsimp only [prevOf]
    rw [hmem, hnext, Option.getD_some, if_pos ⟨hne, rfl⟩]
    exact hprev.symm
  · dsimp only
    rw [hmem, if_neg]
    rintro ⟨hne, heq⟩
    exact hi _ (hnextmem hne) heq
  · show sub32 s₁.freeBytes _ + _ ≡ _ [MOD _]
    rw [hfb, h.freeBytes_eq, Nat.add_zero]
    exact sub32_add_modEq _ _

/-- Taking the first block off a list writes into the next one only. -/
theorem popHead_writes (h : RepInv s live lists unrel hand credit) (hc : c ∈ freeSet lists)
    {rest : List ℕ} (hlist : lists c.bits = c.off :: rest) :
    WritesOnly (workCells lists hand) s
      ((if s.nextOf c.off ≠ ourNull then s.setPrev (s.nextOf c.off) ourNull
        else s).setFreeList c.bits (s.nextOf c.off)) := by
  intro i hi
  split
  · rename_i hne
    refine (setWord_apply _ _ _ _).trans (if_neg ?_)
    rintro rfl
    refine hi (h.header_mem_workCells hc.1 (o := s.nextOf c.off) ?_ (by omega))
    rw [hlist]
    exact List.mem_cons_of_mem _
      (List.mem_of_mem_head? (h.head_of_next hc (l := []) hlist hne))
  · rfl

/-- How `BuddyMalloc` takes the block `b`: the free block `c` leaves its list, and `b`, the
first part of it, is marked. `t` is the state before the rest of `c` goes back. -/
structure Taken (s t : VMsvga2Allocator) (live : Set Block) (lists : ℕ → List ℕ)
    (unrel : Set ℕ) (rest : List ℕ) (b c : Block) : Prop where
  free : c ∈ freeSet lists
  head : lists c.bits = c.off :: rest
  off : b.off = c.off
  bits : b.bits ≤ c.bits
  rep : RepInv t (insert b live) (Function.update lists c.bits rest) unrel
    {n | (n ∈ (∅ : Set ℕ) ∨ n ∈ c.cells) ∧ n ∉ b.cells} 0
  poolBlocks : t.poolBlocks = s.poolBlocks
  poolStart : t.poolStart = s.poolStart
  writes : WritesOnly (workCells lists ∅) s t

namespace Taken

variable {t : VMsvga2Allocator} {rest : List ℕ}

/-- The block taken ends inside the free block. -/
theorem past_le (h : Taken s t live lists unrel rest b c) : b.past ≤ c.past := by
  have hpow : 2 ^ b.bits ≤ 2 ^ c.bits := Nat.pow_le_pow_right (by omega) h.bits
  have hoff := h.off
  rw [Block.past, Block.past]
  omega

/-- It is a part of the free block. -/
theorem subset (h : Taken s t live lists unrel rest b c) : ∀ n ∈ b.cells, n ∈ c.cells :=
  fun _ hn => ⟨h.off ▸ hn.1, lt_of_lt_of_le hn.2 h.past_le⟩

/-- The rest of the free block is in hand. -/
theorem rest_in_hand (h : Taken s t live lists unrel rest b c) (n : ℕ) (h₁ : b.past ≤ n)
    (h₂ : n < c.past) :
    n ∈ {n | (n ∈ (∅ : Set ℕ) ∨ n ∈ c.cells) ∧ n ∉ b.cells} :=
  ⟨.inr ⟨h.off ▸ b.off_lt_past.le.trans h₁, h₂⟩, fun hn => not_lt.mpr h₁ hn.2⟩

end Taken

/-- **The two ways of `BuddyMalloc`**: it fails without a change when no list holds a large
enough block, or takes the first part of a free block and puts the rest back. -/
theorem buddyMalloc_cases (h : RepInv s live lists unrel ∅ 0) (bits : ℕ) :
    (s.buddyMalloc bits = (.noMemory, s, none) ∧
      ∀ k, bits ≤ k → k < numSizes → lists k = []) ∨
    ∃ b c rest t, b.bits = bits ∧ Taken s t live lists unrel rest b c ∧
      s.buddyMalloc bits = (.success, t.toFree b.past c.past false, some (s.addr b.off)) := by
  rw [VMsvga2Allocator.buddyMalloc]
  by_cases hbytes : s.freeBytes < 2 ^ (bits + minBits)
  · rw [if_pos hbytes]
    exact .inl ⟨rfl, fun k h₁ h₂ => h.lists_eq_nil_of_lt hbytes h₁ h₂⟩
  rw [if_neg hbytes]
  cases hfind : findList s (numSizes - bits) bits with
  | none =>
      exact .inl ⟨rfl, fun k h₁ h₂ =>
        h.lists_eq_nil h₂ (findList_eq_none hfind h₁ (by omega))⟩
  | some r =>
      obtain ⟨hle, hlt, hnull⟩ := findList_eq_some hfind
      have hr : r < numSizes := by omega
      obtain ⟨rest, hlist⟩ := (h.freeList_ne_iff hr).mp hnull
      -- the free block at the head of the list, and its first part
      obtain ⟨c, hc, rfl, hoff⟩ := h.exists_block hr (hlist ▸ List.mem_cons_self)
      rw [← hoff] at hlist
      let b : Block := ⟨bits, c.off, Block.dvd_off hle⟩
      have hcpast := h.past_le (h.free_mem hc)
      have hbc : b.past ≤ c.past := by
        have : 2 ^ bits ≤ 2 ^ c.bits := Nat.pow_le_pow_right (by omega) hle
        show c.off + 2 ^ bits ≤ c.off + 2 ^ c.bits
        omega
      have hsub : ∀ n ∈ b.cells, n ∈ c.cells := fun n hn => ⟨hn.1, lt_of_lt_of_le hn.2 hbc⟩
      obtain ⟨hcheck₁, hcheck₂⟩ := h.next_checks hc (l := []) hlist
      have htrailer : s.bitsBefore (c.off + 2 ^ c.bits) = c.bits + lenOffset := h.trailer c hc
      have hprev' : s.prevOf c.off = ourNull := (h.neighbours hc (l := []) hlist).1
      have hlt' := h.off_lt (h.free_mem hc)
      simp only [← hoff, ge_iff_le, not_le.mpr hlt', h.magic c hc, hprev', htrailer, ne_eq,
        not_true_eq_false, if_false]
      rw [if_neg hcheck₁, if_neg hcheck₂]
      set s₁ := (if s.nextOf c.off ≠ ourNull then s.setPrev (s.nextOf c.off) ourNull
        else s).setFreeList c.bits (s.nextOf c.off) with hs₁
      obtain ⟨hpop, hpool, hstart⟩ := h.popHead hc hlist hs₁
      -- the first part becomes live
      have hmark := hpop.mark (b := b) (lt_of_le_of_lt hle hr)
        (fun n hn => .inr (hsub n hn)) (hpool ▸ hbc.trans hcpast)
      have hwrites : WritesOnly (workCells lists ∅) s s₁ := h.popHead_writes hc hlist
      have haddr : ∀ t : VMsvga2Allocator, t.poolStart = s.poolStart →
          t.addr c.off = s.addr c.off := fun t ht => by rw [addr, addr, ht]
      refine .inr ⟨b, c, rest, _, rfl, ⟨hc, hlist, rfl, hle, hmark, hpool, hstart, hwrites⟩, ?_⟩
      refine Prod.ext rfl (Prod.ext rfl (congrArg some (haddr _ ?_)))
      rw [toFree_poolStart]
      exact hstart

/-- **`BuddyMalloc`** fails without a change when no list holds a large enough block, and
otherwise turns the first part of a free block into a live one. -/
theorem buddyMalloc_spec (h : RepInv s live lists unrel ∅ 0) (bits : ℕ) :
    (s.buddyMalloc bits = (.noMemory, s, none) ∧
      ∀ k, bits ≤ k → k < numSizes → lists k = []) ∨
    ∃ b s' lists', s.buddyMalloc bits = (.success, s', some (s.addr b.off)) ∧
      b.bits = bits ∧ RepInv s' (insert b live) lists' unrel ∅ 0 ∧
      s'.poolBlocks = s.poolBlocks ∧ s'.poolStart = s.poolStart ∧
      (∃ c ∈ freeSet lists, ∀ n ∈ b.cells, n ∈ c.cells) ∧
      (Coalesced (numSizes - 1) (freeSet lists) →
        Coalesced (numSizes - 1) (freeSet lists')) := by
  rcases h.buddyMalloc_cases bits with hfail | ⟨b, c, rest, t, hbits, htaken, heq⟩
  · exact .inl hfail
  have hc := htaken.free
  have hnodup := h.nodup _ hc.1
  have hcpast := h.past_le (h.free_mem hc)
  -- the rest goes back to the lists
  obtain ⟨lists', hfree, hcut⟩ := htaken.rep.toFree_spec b.past c.past htaken.rest_in_hand
    (htaken.poolBlocks ▸ hcpast)
  refine .inr ⟨b, _, lists', heq, hbits,
    hfree.congrParts (fun _ => Iff.rfl) (fun _ => Iff.rfl) fun n => ?_,
    (toFree_poolBlocks _ _ _).trans htaken.poolBlocks,
    (toFree_poolStart _ _ _).trans htaken.poolStart, ⟨c, hc, htaken.subset⟩, fun hco => ?_⟩
  · simp only [Set.mem_empty_iff_false, false_iff]
    rintro ⟨⟨hn | hn, hnb⟩, hrest⟩
    · exact hn
    · exact hrest ⟨not_lt.mp fun hlt => hnb ⟨htaken.off ▸ hn.1, hlt⟩, hn.2⟩
  · refine Coalesced.cut (hco.mono fun d hd => ?_) hcut fun p _ h₁ h₂ hbuddy => ?_
    · exact ((freeSet_unlink (l := []) htaken.head hnodup d).mp hd).1
    · obtain ⟨hmem, hne⟩ := (freeSet_unlink (l := []) htaken.head hnodup p.buddy).mp hbuddy
      have hin := Block.buddy_off_mem (b := p) (c := c)
        (lt_of_lt_of_le (htaken.off ▸ b.off_lt_past) h₁) h₂
      exact hne (h.free_unique hmem hc p.buddy.off_mem hin)

/-- `BuddyMalloc` writes only into free blocks. -/
theorem buddyMalloc_writes (h : RepInv s live lists unrel ∅ 0) (bits : ℕ) :
    WritesOnly (workCells lists ∅) s (s.buddyMalloc bits).2.1 := by
  rcases h.buddyMalloc_cases bits with ⟨heq, -⟩ | ⟨b, c, rest, t, -, htaken, heq⟩
  · rw [heq]
    exact .refl s
  · rw [heq]
    have hcpast := h.past_le (h.free_mem htaken.free)
    refine htaken.writes.trans ((htaken.rep.toFree_writes htaken.rest_in_hand
      (htaken.poolBlocks ▸ hcpast)).mono ?_)
    rintro n (⟨hn | hn, -⟩ | ⟨d, hd, hn⟩)
    · exact absurd hn (Set.notMem_empty n)
    · exact .inr ⟨c, htaken.free, hn⟩
    · exact .inr ⟨d, ((freeSet_unlink (l := []) htaken.head
        (h.nodup _ htaken.free.1) d).mp hd).1, hn⟩

/-! ### The size of an allocated block -/

/-- The loop of `BuddyAllocSize` on a live block: no smaller block ends at a mark. -/
theorem allocSizeLoop_live (h : RepInv s live lists unrel hand credit) (hb : b ∈ live)
    (left k : ℕ) (hk : k ≤ b.bits) (hleft : b.bits < k + left) :
    allocSizeLoop s b.off left k = some b.bits := by
  have hbmem := h.live_mem hb
  have hpast := h.past_le hbmem
  rw [Block.past] at hpast
  induction left generalizing k with
  | zero => omega
  | succ left ih =>
      have hpow : 2 ^ k ≤ 2 ^ b.bits := Nat.pow_le_pow_right (by omega) hk
      have hpos := Nat.two_pow_pos k
      rw [allocSizeLoop, if_neg]
      · by_cases hkb : k = b.bits
        · subst hkb
          have hend : bitTest s.map b.last = true :=
            (h.ends _ (by rw [Block.last, Block.past]; omega)).mpr (.inr ⟨b, hb, rfl⟩)
          exact if_pos hend
        · have hlt : 2 ^ k < 2 ^ b.bits := Nat.pow_lt_pow_right (by omega) (by omega)
          have hin : b.off + 2 ^ k - 1 ∈ b.cells := ⟨by omega, by rw [Block.past]; omega⟩
          rw [if_neg]
          · exact ih (k + 1) (by omega) (by omega)
          · intro hset
            rcases (h.ends _ (by omega)).mp hset with hu | ⟨c, hc, heq⟩
            · exact h.tiling.avoid b hbmem _ hin (.inl hu)
            · have hcb := h.tiling.disjoint c (h.live_mem hc) b hbmem _
                (heq ▸ c.last_mem) hin
              rw [hcb, Block.last, Block.past] at heq
              omega
      · rintro (hlt | hmask)
        · omega
        · exact and_mask_ne_zero.mp hmask (Block.dvd_off hk)

/-- **`BuddyAllocSize`** of a live block is its size. -/
theorem buddyAllocSize_live (h : RepInv s live lists unrel hand credit) (hb : b ∈ live) :
    s.buddyAllocSize (s.addr b.off) = .ok b.bits := by
  have hlt := h.off_lt (h.live_mem hb)
  have hbits := h.live_bits b hb
  have hoff : s.addr b.off - s.poolStart = b.off * 2 ^ minBits := Nat.add_sub_cancel_left _ _
  have hblock : b.off * 2 ^ minBits / 2 ^ minBits = b.off :=
    Nat.mul_div_cancel _ (Nat.two_pow_pos _)
  have hge : ¬ s.addr b.off < s.poolStart := not_lt.mpr (Nat.le_add_right _ _)
  rw [buddyAllocSize, if_neg hge]
  simp only [hoff, hblock, ne_eq, not_true_eq_false, if_false, ge_iff_le, not_le.mpr hlt,
    h.allocSizeLoop_live hb numSizes 0 (Nat.zero_le _) (by omega)]

end RepInv

end DockerMacos
