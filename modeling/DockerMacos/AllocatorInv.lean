import Mathlib.Algebra.BigOperators.Group.Finset.Sigma
import Mathlib.Algebra.BigOperators.Ring.Finset
import Mathlib.Data.Nat.ModEq
import DockerMacos.Allocator
import DockerMacos.Dyadic
import DockerMacos.LinkedList

/-!
# The Representation Invariant of the Allocator

`RepInv s live lists unrel hand credit` relates a state of the allocator to its contents:
the allocated blocks `live`, the free lists `lists` (block numbers, for each size), the
minimum blocks `unrel` that were never released, and the minimum blocks `hand` that the
operation in progress holds. `credit` is what `freeBytes` is ahead of the free lists in
the middle of an operation.

## What it says

The blocks and the other minimum blocks tile the pool. A bit of the map is set exactly at the
last minimum block of an allocated block and at what was never released. Every free list is a
doubly linked list through the pool, its blocks have the magic number and, behind them, their
size. Nothing is said of memory outside the free blocks, so clients may write there
(`RepInv.writeMem`).

## Moves

Every operation is made up of a few moves between these parts: a block enters the front
of a free list (`RepInv.push`), leaves a free list (`RepInv.unlink`), becomes allocated
(`RepInv.mark`) or stops being allocated (`RepInv.unmark`). A move changes a few words, and its
proof is about those: that the other lists are linked as before follows from where they lie
(`PushFrame`, `UnlinkFrame`).

## Main results

* `RepInv.push`, `RepInv.unlink`, `RepInv.mark`, `RepInv.unmark`: the moves.
* `RepInv.writeMem`: memory outside the free blocks may be written.
* `RepInv.listBytes_le`: the free blocks fit the pool.
-/

namespace DockerMacos

open VMsvga2Allocator

/-- The blocks on the free lists. -/
def freeSet (lists : ℕ → List ℕ) : Set Block :=
  {b | b.bits < numSizes ∧ b.off ∈ lists b.bits}

/-- The sum of the sizes of the blocks on the free lists, in bytes. -/
def listBytes (lists : ℕ → List ℕ) : ℕ :=
  ∑ k ∈ Finset.range numSizes, (lists k).length * 2 ^ (k + minBits)

/-- The minimum block that holds a word of the pool. -/
def pageOf (i : ℕ) : ℕ := i / 1024

/-- **The representation invariant.** -/
structure RepInv (s : VMsvga2Allocator) (live : Set Block) (lists : ℕ → List ℕ)
    (unrel hand : Set ℕ) (credit : ℕ) : Prop where
  poolBlocks_lt : s.poolBlocks < 2 ^ 20
  live_bits : ∀ b ∈ live, b.bits < numSizes
  aligned : ∀ k < numSizes, ∀ o ∈ lists k, 2 ^ k ∣ o
  nodup : ∀ k < numSizes, (lists k).Nodup
  tiling : Tiling s.poolBlocks (live ∪ freeSet lists) (unrel ∪ hand)
  live_free : ∀ b ∈ live, b ∉ freeSet lists
  hand_unrel : ∀ n ∈ hand, n ∉ unrel
  ends : ∀ n < s.poolBlocks,
    (bitTest s.map n = true ↔ n ∈ unrel ∨ ∃ b ∈ live, n = b.last)
  linked : ∀ k < numSizes,
    Linked s.prevOf s.nextOf ourNull ourNull (s.freeList k) (lists k)
  magic : ∀ b ∈ freeSet lists, s.magicOf b.off = allocMagic
  trailer : ∀ b ∈ freeSet lists, s.bitsBefore b.past = b.bits + lenOffset
  freeBytes : s.freeBytes = (listBytes lists + credit) % 2 ^ 32

/-! ### Words and pages -/

/-- A minimum block has 1024 words. -/
theorem blockWord_eq (block j : ℕ) : blockWord block j = block * 1024 + j := by
  simp only [blockWord, minBits]
  omega

/-- The trailer is the last word before the end. -/
theorem trailerWord_eq (past : ℕ) : trailerWord past = past * 1024 - 1 := by
  rw [trailerWord, blockWord_eq, Nat.add_zero]

/-- The header lies in the first minimum block. -/
@[simp] theorem pageOf_blockWord {block j : ℕ} (hj : j < 1024) :
    pageOf (blockWord block j) = block := by
  rw [pageOf, blockWord_eq]
  omega

/-- The trailer lies in the last one. -/
theorem pageOf_trailerWord {past : ℕ} (h : 0 < past) :
    pageOf (trailerWord past) = past - 1 := by
  rw [pageOf, trailerWord_eq]
  omega

/-- No block ends at 0. -/
theorem Block.past_pos (b : Block) : 0 < b.past := lt_of_le_of_lt (Nat.zero_le _) b.off_lt_past

/-- The trailer of a block lies in its last minimum block. -/
theorem Block.pageOf_trailer (b : Block) : pageOf (trailerWord b.past) = b.last :=
  pageOf_trailerWord b.past_pos

/-- The trailer of a block is not a word of a header. -/
theorem trailerWord_ne_blockWord {past block j : ℕ} (hpast : 0 < past) (hj : j < 3) :
    trailerWord past ≠ blockWord block j := by
  rw [trailerWord_eq, blockWord_eq]
  omega

/-! ### Free lists -/

/-- The free blocks are those on the lists, by their sizes. -/
theorem mem_freeSet {lists : ℕ → List ℕ} {b : Block} :
    b ∈ freeSet lists ↔ b.bits < numSizes ∧ b.off ∈ lists b.bits := Iff.rfl

/-- What holds of the lists after one of them has changed. -/
theorem forall_update_lists {P : ℕ → List ℕ → Prop} {lists : ℕ → List ℕ} {n k : ℕ} {l : List ℕ}
    (hnew : P k l) (hother : ∀ j < n, j ≠ k → P j (lists j)) :
    ∀ j < n, P j (Function.update lists k l j) := by
  intro j hj
  by_cases hjk : j = k
  · rw [hjk, Function.update_self]
    exact hnew
  · rw [Function.update_of_ne hjk]
    exact hother j hj hjk

/-- The blocks after one more has been put on its list. -/
theorem freeSet_push {lists : ℕ → List ℕ} {b : Block} (hb : b.bits < numSizes) (c : Block) :
    c ∈ freeSet (Function.update lists b.bits (b.off :: lists b.bits)) ↔
      c = b ∨ c ∈ freeSet lists := by
  rw [mem_freeSet, mem_freeSet]
  by_cases hbits : c.bits = b.bits
  · rw [hbits, Function.update_self, List.mem_cons]
    constructor
    · rintro ⟨-, hoff | hmem⟩
      · exact .inl (Block.ext hbits hoff)
      · exact .inr ⟨hb, hmem⟩
    · rintro (rfl | ⟨-, hmem⟩)
      · exact ⟨hb, .inl rfl⟩
      · exact ⟨hb, .inr hmem⟩
  · rw [Function.update_of_ne hbits]
    constructor
    · exact .inr
    · rintro (rfl | h)
      · exact absurd rfl hbits
      · exact h

/-- The blocks after one has been taken off its list. -/
theorem freeSet_unlink {lists : ℕ → List ℕ} {b : Block} {l m : List ℕ}
    (hsplit : lists b.bits = l ++ b.off :: m) (hnodup : (lists b.bits).Nodup) (c : Block) :
    c ∈ freeSet (Function.update lists b.bits (l ++ m)) ↔ c ∈ freeSet lists ∧ c ≠ b := by
  rw [mem_freeSet, mem_freeSet]
  by_cases hbits : c.bits = b.bits
  · have hfresh : b.off ∉ l ++ m := by
      rw [hsplit, List.nodup_middle] at hnodup
      exact (List.nodup_cons.mp hnodup).1
    rw [hbits, Function.update_self, hsplit]
    have hne : c = b ↔ c.off = b.off :=
      ⟨fun h => h ▸ rfl, fun h => Block.ext hbits h⟩
    rw [ne_eq, hne]
    constructor
    · rintro ⟨hlt, hmem⟩
      refine ⟨⟨hlt, ?_⟩, fun h => hfresh (h ▸ hmem)⟩
      rcases List.mem_append.mp hmem with hmem | hmem <;> simp [hmem]
    · rintro ⟨⟨hlt, hmem⟩, hoff⟩
      refine ⟨hlt, ?_⟩
      rcases List.mem_append.mp hmem with hmem | hmem
      · exact List.mem_append_left _ hmem
      · rcases List.mem_cons.mp hmem with hmem | hmem
        · exact absurd hmem hoff
        · exact List.mem_append_right _ hmem
  · rw [Function.update_of_ne hbits]
    exact ⟨fun h => ⟨h, fun hcb => hbits (hcb ▸ rfl)⟩, fun h => h.1⟩

/-- The bytes on the lists when one list changes. -/
theorem listBytes_update (lists : ℕ → List ℕ) {k : ℕ} (hk : k < numSizes) (l : List ℕ) :
    listBytes (Function.update lists k l) + (lists k).length * 2 ^ (k + minBits) =
      listBytes lists + l.length * 2 ^ (k + minBits) := by
  have hmem : k ∈ Finset.range numSizes := Finset.mem_range.mpr hk
  rw [listBytes, listBytes, ← Finset.add_sum_erase _ _ hmem, ← Finset.add_sum_erase _ _ hmem,
    Function.update_self]
  have hrest : ∑ j ∈ (Finset.range numSizes).erase k,
        (Function.update lists k l j).length * 2 ^ (j + minBits) =
      ∑ j ∈ (Finset.range numSizes).erase k, (lists j).length * 2 ^ (j + minBits) :=
    Finset.sum_congr rfl fun j hj => by
      rw [Function.update_of_ne (Finset.ne_of_mem_erase hj)]
  rw [hrest]
  omega

/-- A block that comes onto a list adds its bytes. -/
theorem listBytes_push {lists : ℕ → List ℕ} {b : Block} (hb : b.bits < numSizes) :
    listBytes (Function.update lists b.bits (b.off :: lists b.bits)) =
      listBytes lists + 2 ^ (b.bits + minBits) := by
  have h := listBytes_update lists hb (b.off :: lists b.bits)
  rw [List.length_cons, Nat.succ_mul] at h
  omega

/-- A block that is unlinked takes them away. -/
theorem listBytes_unlink {lists : ℕ → List ℕ} {b : Block} {l m : List ℕ}
    (hb : b.bits < numSizes) (hsplit : lists b.bits = l ++ b.off :: m) :
    listBytes (Function.update lists b.bits (l ++ m)) + 2 ^ (b.bits + minBits) =
      listBytes lists := by
  have h := listBytes_update lists hb (l ++ m)
  have hlen : (lists b.bits).length = (l ++ m).length + 1 := by
    rw [hsplit, List.length_append, List.length_append, List.length_cons]
    omega
  rw [hlen, Nat.succ_mul] at h
  omega

namespace RepInv

variable {s s' : VMsvga2Allocator} {live : Set Block} {lists : ℕ → List ℕ}
  {unrel hand : Set ℕ} {credit credit' : ℕ} {b c : Block}

/-! ### Blocks and their places -/

/-- A live block is one of the tiling. -/
theorem live_mem (_ : RepInv s live lists unrel hand credit) (hb : b ∈ live) :
    b ∈ live ∪ freeSet lists := Or.inl hb

/-- So is a free one. -/
theorem free_mem (_ : RepInv s live lists unrel hand credit) (hb : b ∈ freeSet lists) :
    b ∈ live ∪ freeSet lists := Or.inr hb

/-- All blocks end inside the pool. -/
theorem past_le (h : RepInv s live lists unrel hand credit) (hb : b ∈ live ∪ freeSet lists) :
    b.past ≤ s.poolBlocks := h.tiling.inside b hb

/-- The entries of a free list are blocks. -/
theorem exists_block (h : RepInv s live lists unrel hand credit) {k o : ℕ}
    (hk : k < numSizes) (ho : o ∈ lists k) :
    ∃ b ∈ freeSet lists, b.bits = k ∧ b.off = o :=
  ⟨⟨k, o, h.aligned k hk o ho⟩, ⟨hk, ho⟩, rfl, rfl⟩

/-- A free block holds none of the minimum blocks in hand. -/
theorem free_not_hand (h : RepInv s live lists unrel hand credit) (hb : b ∈ freeSet lists)
    {n : ℕ} (hn : n ∈ b.cells) : n ∉ hand :=
  fun hhand => h.tiling.avoid b (h.free_mem hb) n hn (.inr hhand)

/-- Free blocks at one place are the same. -/
theorem free_unique (h : RepInv s live lists unrel hand credit) (hb : b ∈ freeSet lists)
    (hc : c ∈ freeSet lists) {n : ℕ} (hnb : n ∈ b.cells) (hnc : n ∈ c.cells) : b = c :=
  h.tiling.disjoint b (h.free_mem hb) c (h.free_mem hc) n hnb hnc

/-- A live block meets no free one. -/
theorem live_not_free (h : RepInv s live lists unrel hand credit) (hb : b ∈ live)
    (hc : c ∈ freeSet lists) {n : ℕ} (hnb : n ∈ b.cells) : n ∉ c.cells := by
  intro hnc
  have heq := h.tiling.disjoint b (h.live_mem hb) c (h.free_mem hc) n hnb hnc
  exact h.live_free b hb (heq ▸ hc)

/-- And so they start inside it. -/
theorem off_lt (h : RepInv s live lists unrel hand credit) (hb : b ∈ live ∪ freeSet lists) :
    b.off < s.poolBlocks := by
  have := h.past_le hb
  have := b.off_lt_past
  omega

/-- Block numbers are not `ourNull`. -/
theorem ne_ourNull (h : RepInv s live lists unrel hand credit) {o : ℕ}
    (ho : o < s.poolBlocks) : o ≠ ourNull := by
  have := h.poolBlocks_lt
  rw [ourNull]
  omega

/-- The head of a free list, if there is one, is its first entry. -/
theorem freeList_eq (h : RepInv s live lists unrel hand credit) {k : ℕ} (hk : k < numSizes) :
    s.freeList k = (lists k).head?.getD ourNull := (h.linked k hk).head_eq

/-- A free list is empty exactly when its head is `ourNull`. -/
theorem freeList_ne_iff (h : RepInv s live lists unrel hand credit) {k : ℕ}
    (hk : k < numSizes) : s.freeList k ≠ ourNull ↔ ∃ l, lists k = s.freeList k :: l := by
  have hlinked := h.linked k hk
  cases hl : lists k with
  | nil =>
      rw [hl, Linked.nil_iff] at hlinked
      simp [hlinked]
  | cons x l =>
      rw [hl] at hlinked
      obtain ⟨hx, hne, -⟩ := hlinked
      simp [hx, hne]

/-! ### The sum of the free blocks -/

/-- The free blocks fit the pool. -/
theorem listBytes_le (h : RepInv s live lists unrel hand credit) :
    listBytes lists ≤ s.poolBlocks * 2 ^ minBits := by
  classical
  -- the free blocks, indexed by their size and their number
  let I := (Finset.range numSizes).sigma fun k => (lists k).toFinset
  let block (i : Σ _ : ℕ, ℕ) : Block :=
    if hd : 2 ^ i.1 ∣ i.2 then ⟨i.1, i.2, hd⟩ else ⟨0, 0, one_dvd _⟩
  have hblock : ∀ i ∈ I, block i ∈ freeSet lists ∧ (block i).bits = i.1 ∧
      (block i).off = i.2 := by
    intro i hi
    obtain ⟨hk, ho⟩ := Finset.mem_sigma.mp hi
    have hk := Finset.mem_range.mp hk
    have ho := List.mem_toFinset.mp ho
    simp only [block, dif_pos (h.aligned i.1 hk i.2 ho), and_self, and_true]
    exact ⟨hk, ho⟩
  have hsize : ∑ i ∈ I, (block i).size ≤ s.poolBlocks := by
    refine sum_size_le (fun i hi j hj n hni hnj => ?_) fun i hi =>
      h.past_le (h.free_mem (hblock i hi).1)
    obtain ⟨hi, hib, hio⟩ := hblock i hi
    obtain ⟨hj, hjb, hjo⟩ := hblock j hj
    have heq := h.free_unique hi hj hni hnj
    exact Sigma.ext (by rw [← hib, ← hjb, heq]) (by rw [← hio, ← hjo, heq])
  have hsum : listBytes lists = (∑ i ∈ I, (block i).size) * 2 ^ minBits := by
    have hbits : ∀ i ∈ I, (block i).size = 2 ^ i.1 := fun i hi => by
      rw [Block.size, (hblock i hi).2.1]
    rw [Finset.sum_congr rfl hbits, Finset.sum_sigma, Finset.sum_mul, listBytes]
    refine Finset.sum_congr rfl fun k hk => ?_
    rw [show (∑ o ∈ (lists k).toFinset, 2 ^ (⟨k, o⟩ : Σ _ : ℕ, ℕ).1) =
        ∑ _ ∈ (lists k).toFinset, 2 ^ k from rfl, Finset.sum_const_nat fun _ _ => rfl,
      List.toFinset_card_of_nodup (h.nodup k (Finset.mem_range.mp hk)), mul_assoc, ← pow_add]
  rw [hsum]
  exact Nat.mul_le_mul_right _ hsize

/-- The bytes counted by `freeBytes`, outside an operation. -/
theorem freeBytes_eq (h : RepInv s live lists unrel hand 0) :
    s.freeBytes = listBytes lists := by
  have hle := h.listBytes_le
  have hlt := h.poolBlocks_lt
  rw [h.freeBytes, Nat.add_zero, Nat.mod_eq_of_lt]
  rw [minBits] at hle
  omega

/-! ### The moves -/

/-- A node of another list, or another node of this one, is another block number. -/
theorem ne_of_mem (h : RepInv s live lists unrel hand credit) {k k' o o' : ℕ}
    (hk : k < numSizes) (hk' : k' < numSizes) (ho : o ∈ lists k) (ho' : o' ∈ lists k')
    (hne : k ≠ k') : o ≠ o' := by
  obtain ⟨b, hb, rfl, rfl⟩ := h.exists_block hk ho
  obtain ⟨c, hc, rfl, rfl⟩ := h.exists_block hk' ho'
  intro heq
  exact hne (congrArg Block.bits (h.free_unique hb hc b.off_mem (heq ▸ c.off_mem)))

/-- The cells outside all blocks, after some in hand have gone into a block. -/
theorem mem_union_hand (h : RepInv s live lists unrel hand credit)
    (hcells : ∀ n ∈ b.cells, n ∈ hand) (n : ℕ) :
    n ∈ unrel ∪ {n | n ∈ hand ∧ n ∉ b.cells} ↔ n ∈ unrel ∪ hand ∧ n ∉ b.cells := by
  constructor
  · rintro (hu | ⟨hhand, hn⟩)
    · exact ⟨.inl hu, fun hn => h.hand_unrel n (hcells n hn) hu⟩
    · exact ⟨.inr hhand, hn⟩
  · rintro ⟨hu | hhand, hn⟩
    · exact .inl hu
    · exact .inr ⟨hhand, hn⟩

/-- Outside the block `b` and the back link of the head of its list, memory is as before. -/
def PushFrame (s s' : VMsvga2Allocator) (b : Block) : Prop :=
  ∀ i, pageOf i ∉ b.cells →
    (s.freeList b.bits ≠ ourNull → i ≠ blockWord (s.freeList b.bits) 1) → s'.mem i = s.mem i

/-- No free block meets one whose cells are in hand. -/
theorem free_not_cells (h : RepInv s live lists unrel hand credit)
    (hcells : ∀ n ∈ b.cells, n ∈ hand) (hc : c ∈ freeSet lists) {n : ℕ} (hn : n ∈ c.cells) :
    n ∉ b.cells := fun hnb => h.free_not_hand hc hn (hcells n hnb)

/-- The nodes of the free lists lie outside a block whose cells are in hand. -/
theorem list_not_cells (h : RepInv s live lists unrel hand credit)
    (hcells : ∀ n ∈ b.cells, n ∈ hand) {k o : ℕ} (hk : k < numSizes) (ho : o ∈ lists k) :
    o ∉ b.cells := by
  obtain ⟨c, hc, rfl, rfl⟩ := h.exists_block hk ho
  exact h.free_not_cells hcells hc c.off_mem

/-- When a block enters its list, the headers of the other free blocks are untouched, but for one
back link. -/
theorem push_word (h : RepInv s live lists unrel hand credit)
    (hcells : ∀ n ∈ b.cells, n ∈ hand) (hframe : PushFrame s s' b) {k o j : ℕ}
    (hk : k < numSizes) (ho : o ∈ lists k) (hj : j < 3)
    (hne : s.freeList b.bits ≠ ourNull → j = 1 → o ≠ s.freeList b.bits) :
    s'.mem (blockWord o j) = s.mem (blockWord o j) := by
  refine hframe _ ?_ fun hnull heq => ?_
  · rw [pageOf_blockWord (by omega)]
    exact h.list_not_cells hcells hk ho
  · rw [blockWord_eq, blockWord_eq] at heq
    exact hne hnull (by omega) (by omega)

/-- The free lists when a block enters one of them. -/
theorem push_linked (h : RepInv s live lists unrel hand credit) (hbits : b.bits < numSizes)
    (hcells : ∀ n ∈ b.cells, n ∈ hand) (hpast : b.past ≤ s.poolBlocks)
    (hprev : s'.prevOf b.off = ourNull) (hnext : s'.nextOf b.off = s.freeList b.bits)
    (hback : s.freeList b.bits ≠ ourNull → s'.prevOf (s.freeList b.bits) = b.off)
    (hframe : PushFrame s s' b) :
    ∀ k < numSizes, Linked s'.prevOf s'.nextOf ourNull ourNull
      (Function.update s.freeList b.bits b.off k)
      (Function.update lists b.bits (b.off :: lists b.bits) k) := by
  intro k hk
  by_cases hkb : k = b.bits
  · subst hkb
    rw [Function.update_self, Function.update_self]
    refine (h.linked _ hk).push ?_ hprev hnext (fun y hy => ?_) (fun y hy hyh => ?_)
      (fun y hy => ?_) (h.nodup _ hk)
    · have hoff : b.off < s.poolBlocks := by have := b.off_lt_past; omega
      exact h.ne_ourNull hoff
    · have hfl := h.freeList_eq hk
      rw [hy, Option.getD_some] at hfl
      rw [← hfl]
      refine hback ?_
      rw [hfl]
      exact (h.linked _ hk).ne_null y (List.mem_of_mem_head? hy)
    · refine h.push_word hcells hframe hk hy (by omega) fun hnull _ heq => hyh ?_
      obtain ⟨l, hl⟩ := (h.freeList_ne_iff hk).mp hnull
      rw [hl, heq]
      rfl
    · exact h.push_word hcells hframe hk hy (by omega) fun _ h2 => by omega
  · rw [Function.update_of_ne hkb, Function.update_of_ne hkb]
    refine (h.linked k hk).congr (fun y hy => ?_) fun y hy => ?_
    · refine h.push_word hcells hframe hk hy (by omega) fun hnull _ => ?_
      obtain ⟨l, hl⟩ := (h.freeList_ne_iff hbits).mp hnull
      exact h.ne_of_mem hk hbits hy (hl ▸ List.mem_cons_self) hkb
    · exact h.push_word hcells hframe hk hy (by omega) fun _ h2 => by omega

/-- **A block enters the front of its free list.** -/
theorem push (h : RepInv s live lists unrel hand credit) (hbits : b.bits < numSizes)
    (hcells : ∀ n ∈ b.cells, n ∈ hand) (hpast : b.past ≤ s.poolBlocks)
    (hpool : s'.poolBlocks = s.poolBlocks) (hmap : s'.map = s.map)
    (hlist : s'.freeList = Function.update s.freeList b.bits b.off)
    (hmagic : s'.magicOf b.off = allocMagic) (hprev : s'.prevOf b.off = ourNull)
    (hnext : s'.nextOf b.off = s.freeList b.bits)
    (htrailer : s'.bitsBefore b.past = b.bits + lenOffset)
    (hback : s.freeList b.bits ≠ ourNull → s'.prevOf (s.freeList b.bits) = b.off)
    (hframe : PushFrame s s' b)
    (hbytes : s'.freeBytes =
      (listBytes lists + 2 ^ (b.bits + minBits) + credit') % 2 ^ 32) :
    RepInv s' live (Function.update lists b.bits (b.off :: lists b.bits)) unrel
      {n | n ∈ hand ∧ n ∉ b.cells} credit' := by
  have hfresh : b.off ∉ lists b.bits :=
    fun hmem => h.list_not_cells hcells hbits hmem b.off_mem
  constructor
  case poolBlocks_lt => exact hpool ▸ h.poolBlocks_lt
  case live_bits => exact h.live_bits
  case aligned =>
    refine forall_update_lists (P := fun k l => ∀ o ∈ l, 2 ^ k ∣ o) (fun o ho => ?_)
      fun k hk _ => h.aligned k hk
    rcases List.mem_cons.mp ho with rfl | ho
    · exact b.aligned
    · exact h.aligned _ hbits o ho
  case nodup =>
    exact forall_update_lists (P := fun _ => List.Nodup)
      (List.nodup_cons.mpr ⟨hfresh, h.nodup _ hbits⟩) fun k hk _ => h.nodup k hk
  case tiling =>
    rw [hpool]
    refine h.tiling.insert (b := b) (fun c => ?_) (fun n hn => .inr (hcells n hn)) hpast
      fun n => ?_
    · rw [Set.mem_union, Set.mem_union, freeSet_push hbits]
      exact or_left_comm
    · exact h.mem_union_hand hcells n
  case live_free =>
    intro c hc hmem
    rcases (freeSet_push hbits c).mp hmem with rfl | hmem
    · exact h.tiling.avoid c (h.live_mem hc) c.off c.off_mem (.inr (hcells _ c.off_mem))
    · exact h.live_free c hc hmem
  case hand_unrel => exact fun n hn => h.hand_unrel n hn.1
  case ends =>
    rw [hpool, hmap]
    exact h.ends
  case linked =>
    rw [hlist]
    exact h.push_linked hbits hcells hpast hprev hnext hback hframe
  case magic =>
    intro c hc
    rcases (freeSet_push hbits c).mp hc with rfl | hc
    · exact hmagic
    · exact (h.push_word hcells hframe hc.1 hc.2 (j := 0) (by omega) fun _ h0 => by omega).trans
        (h.magic c hc)
  case trailer =>
    intro c hc
    rcases (freeSet_push hbits c).mp hc with rfl | hc
    · exact htrailer
    · refine (hframe _ ?_ fun _ => trailerWord_ne_blockWord c.past_pos (by omega)).trans
        (h.trailer c hc)
      rw [c.pageOf_trailer]
      exact h.free_not_cells hcells hc c.last_mem
  case freeBytes => rw [hbytes, listBytes_push hbits]

/-- Outside the block `b` and the links of its neighbours, where `b` stands between `l` and `m` on
its list, memory is as before. -/
def UnlinkFrame (s s' : VMsvga2Allocator) (b : Block) (l m : List ℕ) : Prop :=
  ∀ i, pageOf i ∉ b.cells → (∀ y, m.head? = some y → i ≠ blockWord y 1) →
    (∀ y, l.getLast? = some y → i ≠ blockWord y 2) → s'.mem i = s.mem i

section Unlink

variable {l m : List ℕ}

/-- The nodes of the free lists but `b` itself lie outside of `b`. -/
theorem other_not_cells (h : RepInv s live lists unrel hand credit) (hb : b ∈ freeSet lists)
    {k o : ℕ} (hk : k < numSizes) (ho : o ∈ lists k) (hne : k = b.bits → o ≠ b.off) :
    o ∉ b.cells := by
  intro hmem
  obtain ⟨c, hc, rfl, rfl⟩ := h.exists_block hk ho
  have heq := h.free_unique hc hb c.off_mem hmem
  exact hne (congrArg Block.bits heq) (congrArg Block.off heq)

/-- The nodes before and behind `b` are others of its list. -/
theorem neighbour_mem (h : RepInv s live lists unrel hand credit) (hbits : b.bits < numSizes)
    (hsplit : lists b.bits = l ++ b.off :: m) {y : ℕ} (hy : y ∈ l ++ m) :
    y ∈ lists b.bits ∧ y ≠ b.off := by
  have hnodup := h.nodup _ hbits
  rw [hsplit, List.nodup_middle] at hnodup
  refine ⟨?_, fun heq => (List.nodup_cons.mp hnodup).1 (heq ▸ hy)⟩
  rw [hsplit]
  rcases List.mem_append.mp hy with hy | hy <;> simp [hy]

/-- When a block leaves its list, the headers of the other blocks are untouched, but for the links
of its neighbours. -/
theorem unlink_word (h : RepInv s live lists unrel hand credit) (hb : b ∈ freeSet lists)
    (hframe : UnlinkFrame s s' b l m) {k o j : ℕ} (hk : k < numSizes) (ho : o ∈ lists k)
    (hne : k = b.bits → o ≠ b.off) (hj : j < 3) (h1 : j = 1 → m.head? ≠ some o)
    (h2 : j = 2 → l.getLast? ≠ some o) : s'.mem (blockWord o j) = s.mem (blockWord o j) := by
  refine hframe _ ?_ (fun y hy heq => ?_) fun y hy heq => ?_
  · rw [pageOf_blockWord (by omega)]
    exact h.other_not_cells hb hk ho hne
  · rw [blockWord_eq, blockWord_eq] at heq
    exact h1 (by omega) (hy.trans (congrArg some (by omega)))
  · rw [blockWord_eq, blockWord_eq] at heq
    exact h2 (by omega) (hy.trans (congrArg some (by omega)))

/-- The free lists when a block leaves one of them. -/
theorem unlink_linked (h : RepInv s live lists unrel hand credit) (hb : b ∈ freeSet lists)
    (hsplit : lists b.bits = l ++ b.off :: m)
    (hnext : ∀ y, m.head? = some y → s'.prevOf y = s.prevOf b.off)
    (hlast : ∀ y, l.getLast? = some y → s'.nextOf y = s.nextOf b.off)
    (hframe : UnlinkFrame s s' b l m) :
    ∀ k < numSizes, Linked s'.prevOf s'.nextOf ourNull ourNull
      (Function.update s.freeList b.bits
        (if l = [] then s.nextOf b.off else s.freeList b.bits) k)
      (Function.update lists b.bits (l ++ m) k) := by
  have hin : ∀ y ∈ l ++ m, y ∈ lists b.bits ∧ y ≠ b.off :=
    fun y hy => h.neighbour_mem hb.1 hsplit hy
  intro k hk
  by_cases hkb : k = b.bits
  · subst hkb
    rw [Function.update_self, Function.update_self]
    have hlinked := h.linked _ hk
    have hnodup := h.nodup _ hk
    rw [hsplit] at hlinked hnodup
    refine hlinked.unlink hnodup hnext hlast (fun y hy hne => ?_) fun y hy hne => ?_
    · exact h.unlink_word hb hframe hk (hin y hy).1 (fun _ => (hin y hy).2) (by omega)
        (fun _ => hne) fun h2 => by omega
    · exact h.unlink_word hb hframe hk (hin y hy).1 (fun _ => (hin y hy).2) (by omega)
        (fun h1 => by omega) fun _ => hne
  · rw [Function.update_of_ne hkb, Function.update_of_ne hkb]
    have hne : ∀ y ∈ lists k, ∀ z ∈ l ++ m, z ≠ y := fun y hy z hz heq =>
      h.ne_of_mem hk hb.1 hy (hin z hz).1 hkb heq.symm
    refine (h.linked k hk).congr (fun y hy => ?_) fun y hy => ?_
    · refine h.unlink_word hb hframe hk hy (fun heq => absurd heq hkb) (by omega) (fun _ heq => ?_)
        fun h2 => by omega
      exact hne y hy y (List.mem_append_right _ (List.mem_of_mem_head? heq)) rfl
    · refine h.unlink_word hb hframe hk hy (fun heq => absurd heq hkb) (by omega)
        (fun h1 => by omega) fun _ heq => ?_
      exact hne y hy y (List.mem_append_left _ (List.mem_of_getLast? heq)) rfl

/-- The cells when a block leaves its list: they are in hand. -/
theorem unlink_tiling (h : RepInv s live lists unrel hand credit) (hb : b ∈ freeSet lists)
    (hsplit : lists b.bits = l ++ b.off :: m) :
    Tiling s.poolBlocks (live ∪ freeSet (Function.update lists b.bits (l ++ m)))
      (unrel ∪ {n | n ∈ hand ∨ n ∈ b.cells}) := by
  have hmem := freeSet_unlink hsplit (h.nodup _ hb.1)
  refine h.tiling.remove (b := b) (fun c => ?_) (h.free_mem hb) fun n => ?_
  · rw [Set.mem_union, Set.mem_union, hmem]
    constructor
    · rintro (hc | ⟨hc, hne⟩)
      · exact ⟨.inl hc, fun heq => h.live_free c hc (heq ▸ hb)⟩
      · exact ⟨.inr hc, hne⟩
    · rintro ⟨hc | hc, hne⟩
      · exact .inl hc
      · exact .inr ⟨hc, hne⟩
  · exact or_assoc.symm

/-- **A block leaves its free list**; its neighbours are linked past it. -/
theorem unlink (h : RepInv s live lists unrel hand credit) (hb : b ∈ freeSet lists)
    (hsplit : lists b.bits = l ++ b.off :: m)
    (hpool : s'.poolBlocks = s.poolBlocks) (hmap : s'.map = s.map)
    (hlist : s'.freeList = Function.update s.freeList b.bits
      (if l = [] then s.nextOf b.off else s.freeList b.bits))
    (hnext : ∀ y, m.head? = some y → s'.prevOf y = s.prevOf b.off)
    (hlast : ∀ y, l.getLast? = some y → s'.nextOf y = s.nextOf b.off)
    (hframe : UnlinkFrame s s' b l m)
    (hbytes : s'.freeBytes + 2 ^ (b.bits + minBits) ≡
      listBytes lists + credit' [MOD 2 ^ 32]) (hlt : s'.freeBytes < 2 ^ 32) :
    RepInv s' live (Function.update lists b.bits (l ++ m)) unrel
      {n | n ∈ hand ∨ n ∈ b.cells} credit' := by
  have hbits := hb.1
  have hmem := freeSet_unlink hsplit (h.nodup _ hbits)
  constructor
  case poolBlocks_lt => exact hpool ▸ h.poolBlocks_lt
  case live_bits => exact h.live_bits
  case aligned =>
    exact forall_update_lists (P := fun k l => ∀ o ∈ l, 2 ^ k ∣ o)
      (fun o ho => h.aligned _ hbits o (h.neighbour_mem hbits hsplit ho).1)
      fun k hk _ => h.aligned k hk
  case nodup =>
    have hnodup := h.nodup _ hbits
    rw [hsplit, List.nodup_middle] at hnodup
    exact forall_update_lists (P := fun _ => List.Nodup) (List.nodup_cons.mp hnodup).2
      fun k hk _ => h.nodup k hk
  case tiling => exact hpool ▸ h.unlink_tiling hb hsplit
  case live_free => exact fun c hc hcf => h.live_free c hc ((hmem c).mp hcf).1
  case hand_unrel =>
    rintro n (hn | hn) hu
    · exact h.hand_unrel n hn hu
    · exact h.tiling.avoid b (h.free_mem hb) n hn (.inl hu)
  case ends =>
    rw [hpool, hmap]
    exact h.ends
  case linked =>
    rw [hlist]
    exact h.unlink_linked hb hsplit hnext hlast hframe
  case magic =>
    intro c hc
    obtain ⟨hc, hne⟩ := (hmem c).mp hc
    exact (h.unlink_word hb hframe hc.1 hc.2 (fun hcb hco => hne (Block.ext hcb hco)) (j := 0)
      (by omega) (fun h0 => by omega) fun h0 => by omega).trans (h.magic c hc)
  case trailer =>
    intro c hc
    obtain ⟨hc, hne⟩ := (hmem c).mp hc
    refine (hframe _ ?_ (fun y _ => trailerWord_ne_blockWord c.past_pos (by omega)) fun y _ =>
      trailerWord_ne_blockWord c.past_pos (by omega)).trans (h.trailer c hc)
    rw [c.pageOf_trailer]
    exact fun hlast => hne (h.free_unique hc hb c.last_mem hlast)
  case freeBytes =>
    have hsum := listBytes_unlink hbits hsplit
    rw [← hsum, Nat.add_right_comm] at hbytes
    have := Nat.ModEq.add_right_cancel' _ hbytes
    rw [Nat.ModEq, Nat.mod_eq_of_lt hlt] at this
    exact this

end Unlink

/-- Memory outside the free blocks may be written. -/
theorem writeMem (h : RepInv s live lists unrel hand credit) {mem : ℕ → ℕ}
    (hframe : ∀ b ∈ freeSet lists, ∀ i, pageOf i ∈ b.cells → mem i = s.mem i) :
    RepInv { s with mem := mem } live lists unrel hand credit := by
  obtain ⟨h1, h2, h3, h4, h5, h6, h7, h8, h9, h10, h11, h12⟩ := id h
  have hword : ∀ k < numSizes, ∀ o ∈ lists k, ∀ j < 3,
      mem (blockWord o j) = s.mem (blockWord o j) := by
    intro k hk o ho j hj
    obtain ⟨b, hb, rfl, rfl⟩ := h.exists_block hk ho
    refine hframe b hb _ ?_
    rw [pageOf_blockWord (by omega)]
    exact b.off_mem
  refine ⟨h1, h2, h3, h4, h5, h6, h7, h8, fun k hk => ?_, fun b hb => ?_, fun b hb => ?_, h12⟩
  · exact (h9 k hk).congr (fun y hy => hword k hk y hy 1 (by omega)) fun y hy =>
      hword k hk y hy 2 (by omega)
  · exact (hword b.bits hb.1 b.off hb.2 0 (by omega)).trans (h10 b hb)
  · refine (hframe b hb _ ?_).trans (h11 b hb)
    rw [b.pageOf_trailer]
    exact b.last_mem

/-- **Minimum blocks in hand become an allocated block.** -/
theorem mark (h : RepInv s live lists unrel hand credit) (hbits : b.bits < numSizes)
    (hcells : ∀ n ∈ b.cells, n ∈ hand) (hpast : b.past ≤ s.poolBlocks) :
    RepInv (s.markEnd b.last) (insert b live) lists unrel {n | n ∈ hand ∧ n ∉ b.cells}
      credit := by
  have hnew : b ∉ live ∪ freeSet lists := fun hmem =>
    h.tiling.avoid b hmem b.off b.off_mem (.inr (hcells _ b.off_mem))
  obtain ⟨h1, h2, h3, h4, h5, h6, h7, h8, h9, h10, h11, h12⟩ := id h
  refine ⟨h1, ?_, h3, h4, ?_, ?_, fun n hn => h7 n hn.1, ?_, h9, h10, h11, h12⟩
  · rintro c (rfl | hc)
    · exact hbits
    · exact h2 c hc
  · refine h5.insert (b := b) (fun c => ?_) (fun n hn => .inr (hcells n hn)) hpast
      (h.mem_union_hand hcells)
    exact or_assoc
  · rintro c (rfl | hc)
    · exact fun hcf => hnew (.inr hcf)
    · exact h6 c hc
  · intro n hn
    rw [markEnd, bitTest_bitSet]
    simp only [Set.mem_insert_iff, exists_eq_or_imp]
    by_cases hnb : n = b.last
    · simp [hnb]
    · rw [if_neg hnb, h8 n hn]
      exact ⟨Or.imp_right .inr, Or.imp_right fun h => h.resolve_left hnb⟩

/-- **An allocated block comes into hand.** -/
theorem unmark (h : RepInv s live lists unrel hand credit) (hb : b ∈ live) :
    RepInv (s.unmarkEnd b.last) (live \ {b}) lists unrel {n | n ∈ hand ∨ n ∈ b.cells}
      credit := by
  obtain ⟨h1, h2, h3, h4, h5, h6, h7, h8, h9, h10, h11, h12⟩ := id h
  have hbmem := h.live_mem hb
  refine ⟨h1, fun c hc => h2 c hc.1, h3, h4, ?_, fun c hc => h6 c hc.1, ?_, ?_, h9, h10, h11,
    h12⟩
  · refine h5.remove (b := b) (fun c => ?_) hbmem fun n => ?_
    · constructor
      · rintro (⟨hc, hne⟩ | hc)
        · exact ⟨.inl hc, hne⟩
        · exact ⟨.inr hc, fun heq => h6 b hb (heq ▸ hc)⟩
      · rintro ⟨hc | hc, hne⟩
        · exact .inl ⟨hc, hne⟩
        · exact .inr hc
    · exact or_assoc.symm
  · rintro n (hn | hn) hu
    · exact h7 n hn hu
    · exact h5.avoid b hbmem n hn (.inl hu)
  · intro n hn
    rw [unmarkEnd, bitTest_bitClear]
    by_cases hnb : n = b.last
    · subst hnb
      rw [if_pos rfl]
      simp only [Bool.false_eq_true, false_iff]
      rintro (hu | ⟨c, ⟨hc, hne⟩, heq⟩)
      · exact h5.avoid b hbmem _ b.last_mem (.inl hu)
      · exact hne (h5.disjoint c (h.live_mem hc) b hbmem b.last (heq ▸ c.last_mem) b.last_mem)
    · rw [if_neg hnb, h8 n hn]
      constructor
      · rintro (hu | ⟨c, hc, heq⟩)
        · exact .inl hu
        · exact .inr ⟨c, ⟨hc, fun hcb => hnb (heq.trans (congrArg Block.last hcb))⟩, heq⟩
      · rintro (hu | ⟨c, ⟨hc, -⟩, heq⟩)
        · exact .inl hu
        · exact .inr ⟨c, hc, heq⟩

/-- Only the bits of the pool matter. -/
theorem congrMap (h : RepInv s live lists unrel hand credit) (map : ByteMap)
    (hmap : ∀ n < s.poolBlocks, bitTest map n = bitTest s.map n) :
    RepInv { s with map := map } live lists unrel hand credit := by
  obtain ⟨h1, h2, h3, h4, h5, h6, h7, h8, h9, h10, h11, h12⟩ := h
  refine ⟨h1, h2, h3, h4, h5, h6, h7, fun n hn => ?_, h9, h10, h11, h12⟩
  rw [hmap n hn]
  exact h8 n hn

/-- Only the elements of the parts matter. -/
theorem congrParts (h : RepInv s live lists unrel hand credit) {live' : Set Block}
    {unrel' hand' : Set ℕ} (hlive : ∀ c, c ∈ live' ↔ c ∈ live)
    (hunrel : ∀ n, n ∈ unrel' ↔ n ∈ unrel) (hhand : ∀ n, n ∈ hand' ↔ n ∈ hand) :
    RepInv s live' lists unrel' hand' credit := by
  rwa [Set.ext hlive, Set.ext hunrel, Set.ext hhand]

end RepInv

end DockerMacos
