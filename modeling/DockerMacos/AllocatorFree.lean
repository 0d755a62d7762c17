import DockerMacos.AllocatorSpec

/-!
# Freeing, Reallocating and Releasing

`Free` takes the buddy of the block in hand off its list as long as it is free, and puts
the merged block on a list; the free blocks stay coalesced. `Realloc` moves a block, or
cuts its end off in place. `Release` hands a range of the pool over.

## The merge loop

The block in hand belongs to neither side of the invariant: its cells are those of `hand`. One
turn of the loop asks whether the buddy is free, by its magic number and its size. The magic
number alone would not do, since a live block may hold it; the bit map decides, and the
invariant says that it decides rightly. If the buddy is free the two become their parent
(`MergeStep`), and the loop goes on with that. At the end no free block is the buddy of the
block in hand, and this is what keeps the free blocks coalesced.

## `Realloc`

There are four ways out (`Reallocated`): no block is large enough and nothing has changed; the
block has the right size already; its end is cut off and goes back to the lists; or a new block
is allocated, filled and exchanged for the old one.

## Main results

* `RepInv.mergeLoop_spec`: the merge loop never fails, and stops when the buddy is not free.
* `RepInv.free_spec`, `RepInv.malloc_spec`, `RepInv.realloc_spec`, `RepInv.release_spec`: the
  calls, each by the invariant before and after it.
-/

namespace DockerMacos

open VMsvga2Allocator

namespace RepInv

variable {s s' : VMsvga2Allocator} {live : Set Block} {lists : ℕ → List ℕ}
  {unrel hand : Set ℕ} {credit credit' : ℕ} {b c : Block}

/-! ### Freeing -/

/-- What taking a block off its free list leaves, between the blocks `l` before it in the list
and the blocks `m` behind it. -/
structure Unlinked (s s' : VMsvga2Allocator) (c : Block) (l m : List ℕ) : Prop where
  poolBlocks : s'.poolBlocks = s.poolBlocks
  poolStart : s'.poolStart = s.poolStart
  map : s'.map = s.map
  freeBytes : s'.freeBytes = s.freeBytes
  freeList : s'.freeList = Function.update s.freeList c.bits
    (if l = [] then s.nextOf c.off else s.freeList c.bits)
  next : ∀ y, m.head? = some y → s'.prevOf y = s.prevOf c.off
  last : ∀ y, l.getLast? = some y → s'.nextOf y = s.nextOf c.off
  frame : ∀ i, pageOf i ∉ c.cells → (∀ y, m.head? = some y → i ≠ blockWord y 1) →
    (∀ y, l.getLast? = some y → i ≠ blockWord y 2) → s'.mem i = s.mem i

section Unlink

variable {l m : List ℕ}

/-- The other blocks of the list begin outside the block. -/
theorem other_not_mem (h : RepInv s live lists unrel hand credit) (hc : c ∈ freeSet lists)
    (hsplit : lists c.bits = l ++ c.off :: m) : ∀ y ∈ l ++ m, y ∉ c.cells := by
  intro y hy hyc
  have hnodup := h.nodup _ hc.1
  rw [hsplit, List.nodup_middle] at hnodup
  have hyl : y ∈ lists c.bits := by
    rw [hsplit]
    rcases List.mem_append.mp hy with hy | hy <;> simp [hy]
  obtain ⟨d, hd, -, rfl⟩ := h.exists_block hc.1 hyl
  obtain rfl := h.free_unique hd hc d.off_mem hyc
  exact (List.nodup_cons.mp hnodup).1 hy

/-- The trailer is cleared, and the next block takes over the back link. -/
theorem takeBack_mem (h : RepInv s live lists unrel hand credit) (hc : c ∈ freeSet lists)
    (hsplit : lists c.bits = l ++ c.off :: m) {s₁ : VMsvga2Allocator}
    (hs₁ : s₁ = if s.nextOf c.off ≠ ourNull then
      (s.setBitsBefore c.past 0).setPrev (s.nextOf c.off) (s.prevOf c.off)
      else s.setBitsBefore c.past 0) :
    (∀ y, m.head? = some y → s₁.mem (blockWord y 1) = s.prevOf c.off) ∧
      ∀ i, pageOf i ∉ c.cells → (∀ y, m.head? = some y → i ≠ blockWord y 1) →
        s₁.mem i = s.mem i := by
  have hmem : ∀ i, s₁.mem i =
      if s.nextOf c.off ≠ ourNull ∧ i = blockWord (s.nextOf c.off) 1 then s.prevOf c.off
      else (s.setBitsBefore c.past 0).mem i := by
    intro i
    rw [hs₁]
    by_cases hne : s.nextOf c.off = ourNull
    · simp [hne]
    · simp [hne, setPrev, setWord_apply]
  constructor
  · intro y hy
    have hne : y ≠ ourNull := (h.linked _ hc.1).ne_null y (by
      rw [hsplit]
      exact List.mem_append_right _ (List.mem_cons_of_mem _ (List.mem_of_mem_head? hy)))
    have hnext := (h.neighbours hc hsplit).2.1
    rw [hy, Option.getD_some] at hnext
    rw [hmem, hnext, if_pos ⟨hne, rfl⟩]
  · intro i hi hne
    rw [hmem, if_neg]
    · exact (setWord_apply _ _ _ _).trans (if_neg (outside_ne hi).1)
    · rintro ⟨hnull, heq⟩
      exact hne _ (h.head_of_next hc hsplit hnull) heq

/-- The merge loop takes a free block off its list. -/
theorem unlinkBuddy_run (h : RepInv s live lists unrel hand credit) (hc : c ∈ freeSet lists)
    (hsplit : lists c.bits = l ++ c.off :: m) :
    ∃ s', unlinkBuddy s c.bits c.off = .ok s' ∧ Unlinked s s' c l m := by
  obtain ⟨hprev, -, -, hforth⟩ := h.neighbours hc hsplit
  obtain ⟨hcheck₁, hcheck₂⟩ := h.next_checks hc hsplit
  have hnonempty : s.freeList c.bits ≠ ourNull :=
    mt (h.lists_eq_nil hc.1) (hsplit ▸ List.append_ne_nil_of_right_ne_nil l (List.cons_ne_nil _ m))
  -- no link is read from the trailer, which is cleared first
  set s₀ := s.setBitsBefore (c.off + 2 ^ c.bits) 0 with hs₀
  have hword : ∀ y j, j < 3 → s₀.mem (blockWord y j) = s.mem (blockWord y j) := by
    intro y j hj
    rw [hs₀, setBitsBefore]
    exact (setWord_apply _ _ _ _).trans (if_neg (trailerWord_ne_blockWord c.past_pos hj).symm)
  have hmagic₀ : ∀ y, s₀.magicOf y = s.magicOf y := fun y => hword y 0 (by omega)
  have hprev₀ : ∀ y, s₀.prevOf y = s.prevOf y := fun y => hword y 1 (by omega)
  have hnext₀ : ∀ y, s₀.nextOf y = s.nextOf y := fun y => hword y 2 (by omega)
  have hfl₀ : s₀.freeList = s.freeList := rfl
  have hpool₀ : s₀.poolBlocks = s.poolBlocks := rfl
  set s₁ := if s.nextOf c.off ≠ ourNull then s₀.setPrev (s.nextOf c.off) (s.prevOf c.off)
    else s₀ with hs₁
  obtain ⟨htaken, hrest⟩ := h.takeBack_mem hc hsplit hs₁
  have hfields : s₁.poolBlocks = s.poolBlocks ∧ s₁.poolStart = s.poolStart ∧
      s₁.map = s.map ∧ s₁.freeBytes = s.freeBytes ∧ s₁.freeList = s.freeList := by
    rw [hs₁]
    split <;> exact ⟨rfl, rfl, rfl, rfl, rfl⟩
  obtain ⟨hpool, hstart, hmap, hfb, hfl⟩ := hfields
  clear_value s₁
  rw [unlinkBuddy]
  simp only [← hs₀, hmagic₀, hprev₀, hnext₀, hfl₀, hpool₀, h.magic c hc, ne_eq,
    not_true_eq_false, if_false, hnonempty]
  cases hl : l.getLast? with
  | none =>
      obtain rfl := List.getLast?_eq_none_iff.mp hl
      have hnull : s.prevOf c.off = ourNull := hprev
      rw [if_pos hnull, if_neg hcheck₁, if_neg hcheck₂]
      rw [hnull] at hs₁
      rw [← hs₁]
      refine ⟨_, rfl, hpool, hstart, hmap, hfb, ?_, htaken, by simp,
        fun i hi hne _ => hrest i hi hne⟩
      show Function.update s₁.freeList _ _ = _
      rw [hfl, if_pos rfl]
  | some p =>
      obtain ⟨hplt, hpmagic, hpnext⟩ := hforth p hl
      have hprevp : s.prevOf c.off = p := by rw [hprev, hl, Option.getD_some]
      have hpne : s.prevOf c.off ≠ ourNull := hprevp ▸ h.ne_ourNull hplt
      rw [if_neg hpne, hprevp, if_neg (not_le.mpr hplt), if_neg (not_not.mpr hpmagic),
        if_neg (not_not.mpr hpnext), if_neg hcheck₁, if_neg hcheck₂]
      rw [hprevp] at hs₁
      rw [← hs₁]
      have hset : ∀ i, (s₁.setNext p (s.nextOf c.off)).mem i =
          if i = blockWord p 2 then s.nextOf c.off else s₁.mem i := fun i => setWord_apply _ _ _ _
      refine ⟨_, rfl, hpool, hstart, hmap, hfb, ?_, fun y hy => ?_, fun y hy => ?_,
        fun i hi hne hne' => ?_⟩
      · have hlne : l ≠ [] := by
          rintro rfl
          cases hl
        rw [if_neg hlne, Function.update_eq_self]
        exact hfl
      · refine (hset _).trans ?_
        rw [if_neg, htaken y hy]
        rw [blockWord_eq, blockWord_eq]
        omega
      · obtain rfl : p = y := by rw [hl] at hy; exact Option.some.inj hy
        exact (hset _).trans (if_pos rfl)
      · rw [hset, if_neg (hne' p hl)]
        exact hrest i hi hne

/-- The memory outside a block when its header is cleared. -/
theorem clearHeader_mem (s : VMsvga2Allocator) {i : ℕ} (hi : pageOf i ∉ c.cells) :
    (((s.setMagic c.off 0).setPrev c.off 0).setNext c.off 0).mem i = s.mem i := by
  obtain ⟨-, hne⟩ := outside_ne hi
  simp only [setMagic, setPrev, setNext, setWord_apply, hne 0 (by omega), hne 1 (by omega),
    hne 2 (by omega), if_false]

/-- The header of a block that is off its list is cleared. -/
theorem Unlinked.clearHeader (hunlinked : Unlinked s s' c l m)
    (hother : ∀ y ∈ l ++ m, y ∉ c.cells) :
    Unlinked s (((s'.setMagic c.off 0).setPrev c.off 0).setNext c.off 0) c l m := by
  have hsame : ∀ y ∈ l ++ m, ∀ j < 3,
      (((s'.setMagic c.off 0).setPrev c.off 0).setNext c.off 0).mem (blockWord y j) =
        s'.mem (blockWord y j) := by
    intro y hy j hj
    refine clearHeader_mem s' ?_
    rw [pageOf_blockWord (by omega)]
    exact hother y hy
  refine { hunlinked with next := fun y hy => ?_, last := fun y hy => ?_,
                          frame := fun i hi hne hne' => ?_ }
  · have hmem : y ∈ l ++ m := List.mem_append_right _ (List.mem_of_mem_head? hy)
    exact (hsame y hmem 1 (by omega)).trans (hunlinked.next y hy)
  · have hmem : y ∈ l ++ m := List.mem_append_left _ (List.mem_of_getLast? hy)
    exact (hsame y hmem 2 (by omega)).trans (hunlinked.last y hy)
  · exact (clearHeader_mem s' hi).trans (hunlinked.frame i hi hne hne')

/-- Only the block and the headers of its neighbours are written. -/
theorem Unlinked.writes (hunlinked : Unlinked s s' c l m)
    (h : RepInv s live lists unrel hand credit) (hc : c ∈ freeSet lists)
    (hsplit : lists c.bits = l ++ c.off :: m) : WritesOnly (workCells lists hand) s s' := by
  intro i hi
  refine hunlinked.frame i (fun hic => hi (.inr ⟨c, hc, hic⟩)) ?_ ?_
  · rintro y hy rfl
    refine hi (h.header_mem_workCells hc.1 (o := y) ?_ (by omega))
    rw [hsplit]
    exact List.mem_append_right _ (List.mem_cons_of_mem _ (List.mem_of_mem_head? hy))
  · rintro y hy rfl
    refine hi (h.header_mem_workCells hc.1 (o := y) ?_ (by omega))
    rw [hsplit]
    exact List.mem_append_left _ (List.mem_of_getLast? hy)

end Unlink

/-- **Unlinking a buddy.** The merge loop of `Free` takes a free block off its list and
clears its header and trailer. -/
theorem unlinkBuddy_spec (h : RepInv s live lists unrel hand credit) (hc : c ∈ freeSet lists) :
    ∃ s' lists', unlinkBuddy s c.bits c.off = .ok s' ∧
      RepInv (((s'.setMagic c.off 0).setPrev c.off 0).setNext c.off 0) live lists' unrel
        {n | n ∈ hand ∨ n ∈ c.cells} (credit + 2 ^ (c.bits + minBits)) ∧
      s'.poolBlocks = s.poolBlocks ∧ s'.poolStart = s.poolStart ∧ s'.map = s.map ∧
      (∀ d, d ∈ freeSet lists' ↔ d ∈ freeSet lists ∧ d ≠ c) ∧
      WritesOnly (workCells lists hand) s
        (((s'.setMagic c.off 0).setPrev c.off 0).setNext c.off 0) := by
  obtain ⟨l, m, hsplit⟩ := List.append_of_mem hc.2
  obtain ⟨s', hok, hunlinked⟩ := h.unlinkBuddy_run hc hsplit
  have hcleared := hunlinked.clearHeader (h.other_not_mem hc hsplit)
  have hbytes : s'.freeBytes + 2 ^ (c.bits + minBits) ≡
      listBytes lists + (credit + 2 ^ (c.bits + minBits)) [MOD 2 ^ 32] := by
    rw [hunlinked.freeBytes, h.freeBytes, ← Nat.add_assoc]
    exact Nat.ModEq.add_right _ (Nat.mod_modEq _ _)
  have hlt : s'.freeBytes < 2 ^ 32 := by
    rw [hunlinked.freeBytes, h.freeBytes]
    exact Nat.mod_lt _ (by decide)
  exact ⟨s', _, hok, h.unlink hc hsplit hcleared.poolBlocks hcleared.map hcleared.freeList
    hcleared.next hcleared.last hcleared.frame hbytes hlt, hunlinked.poolBlocks,
    hunlinked.poolStart, hunlinked.map, freeSet_unlink hsplit (h.nodup _ hc.1),
    hcleared.writes h hc hsplit⟩

/-- A minimum block next to the block in hand that is not marked, at the end of the
buddy, ends a free block inside the buddy. -/
theorem exists_free_of_unmarked (h : RepInv s live lists unrel b.cells credit)
    (hpast : b.buddy.past ≤ s.poolBlocks) (hbit : ¬ bitTest s.map b.buddy.last = true) :
    ∃ d ∈ freeSet lists, d.past = b.buddy.past ∧ d.bits ≤ b.bits := by
  have hlast : b.buddy.last < s.poolBlocks := by
    have := b.buddy.last_mem.2
    omega
  rw [h.ends _ hlast, not_or] at hbit
  -- no block outside hand reaches over the buddy into the block in hand
  have hsmall : ∀ d ∈ live ∪ freeSet lists, b.buddy.last ∈ d.cells → d.bits ≤ b.bits := by
    intro d hd hmem
    by_contra hlt
    have hsub := Block.parent_subset (b := b.buddy) (not_le.mp hlt) b.buddy.last_mem hmem
    have hb : b.off ∈ b.buddy.parent.cells :=
      Block.mem_parent.mpr (.inr (by rw [b.buddy_buddy]; exact b.off_mem))
    refine h.tiling.avoid d hd b.off ?_ (.inr b.off_mem)
    exact ⟨hsub.1.trans hb.1, lt_of_lt_of_le hb.2 hsub.2⟩
  have hends : ∀ d ∈ live ∪ freeSet lists, b.buddy.last ∈ d.cells →
      d.past = b.buddy.past := by
    intro d hd hmem
    have hle := (Block.subset_of_le (b := d) (c := b.buddy) (hsmall d hd hmem) hmem
      b.buddy.last_mem).2
    have h₁ := hmem.2
    have h₂ := b.buddy.past_pos
    rw [Block.last] at h₁
    omega
  rcases h.tiling.cover _ hlast with (hu | hh) | ⟨d, hd | hd, hmem⟩
  · exact absurd hu hbit.1
  · exact absurd b.buddy.last_mem (Block.not_mem_buddy hh)
  · refine absurd ⟨d, hd, ?_⟩ hbit.2
    rw [Block.last, Block.last, hends d (.inl hd) hmem]
  · exact ⟨d, hd, hends d (.inr hd) hmem, hsmall d (.inr hd) hmem⟩

/-- What the merge loop of `Free` leaves: from a state `s` with the block `b` in hand it
comes to `s'` with the larger block `b'`, made up of `b` and former free blocks. -/
structure Merged (s s' : VMsvga2Allocator) (live : Set Block) (lists lists' : ℕ → List ℕ)
    (unrel : Set ℕ) (credit : ℕ) (b b' : Block) : Prop where
  rep : RepInv s' live lists' unrel b'.cells
    (credit + (2 ^ (b'.bits + minBits) - 2 ^ (b.bits + minBits)))
  grows : b.bits ≤ b'.bits
  bits_lt : b'.bits < numSizes
  past_le : b'.past ≤ s.poolBlocks
  poolBlocks : s'.poolBlocks = s.poolBlocks
  poolStart : s'.poolStart = s.poolStart
  subset : ∀ d ∈ freeSet lists', d ∈ freeSet lists
  buddy : b'.bits < numSizes - 1 → b'.buddy ∉ freeSet lists'

/-- What a turn of the merge loop does when the buddy is free: the two become their parent. -/
structure MergeStep (s s' : VMsvga2Allocator) (live : Set Block) (lists lists' : ℕ → List ℕ)
    (unrel : Set ℕ) (credit : ℕ) (b : Block) : Prop where
  rep : RepInv s' live lists' unrel b.parent.cells (credit + 2 ^ (b.bits + minBits))
  buddy : b.buddy ∈ freeSet lists
  past_le : b.parent.past ≤ s'.poolBlocks
  poolBlocks : s'.poolBlocks = s.poolBlocks
  poolStart : s'.poolStart = s.poolStart
  free : ∀ d, d ∈ freeSet lists' ↔ d ∈ freeSet lists ∧ d ≠ b.buddy
  writes : WritesOnly (workCells lists b.cells) s s'

/-- **A turn of the merge loop**: it ends the loop when the buddy is not free, and goes on with
the parent when it is. -/
theorem mergeLoop_step (left : ℕ) (h : RepInv s live lists unrel b.cells credit)
    (hpast : b.past ≤ s.poolBlocks) :
    (b.buddy ∉ freeSet lists ∧ mergeLoop (left + 1) s b.bits b.off = .ok (s, b.bits, b.off)) ∨
    ∃ s' lists', MergeStep s s' live lists lists' unrel credit b ∧
      mergeLoop (left + 1) s b.bits b.off = mergeLoop left s' b.parent.bits b.parent.off := by
  have hoff : b.off ^^^ 2 ^ b.bits = b.buddy.off := rfl
  have hpastb : b.buddy.off + 2 ^ b.bits = b.buddy.past := rfl
  have hlastb : b.buddy.past - 1 = b.buddy.last := rfl
  rw [mergeLoop]
  simp only [hoff, hpastb, hlastb]
  by_cases hout : b.buddy.past > s.poolBlocks
  · rw [if_pos hout]
    refine .inl ⟨fun hmem => ?_, rfl⟩
    have := h.past_le (h.free_mem hmem)
    omega
  rw [if_neg hout]
  by_cases hbit : bitTest s.map b.buddy.last = true
  · rw [if_pos hbit]
    refine .inl ⟨fun hmem => ?_, rfl⟩
    have hlast : b.buddy.last < s.poolBlocks := by
      have := b.buddy.last_mem.2
      omega
    rcases (h.ends _ hlast).mp hbit with hu | ⟨d, hd, heq⟩
    · exact h.tiling.avoid _ (h.free_mem hmem) _ b.buddy.last_mem (.inl hu)
    · exact h.live_not_free hd hmem d.last_mem (heq ▸ b.buddy.last_mem)
  rw [if_neg hbit]
  obtain ⟨d, hd, hdpast, hdbits⟩ := h.exists_free_of_unmarked (by omega) hbit
  have hdlast : b.buddy.last ∈ d.cells := by
    have := d.last_mem
    rwa [Block.last, hdpast] at this
  have htrue : sub32 (s.bitsBefore b.buddy.past) lenOffset = d.bits := by
    have hlt := hd.1
    rw [← hdpast, h.trailer d hd, sub32_of_le (Nat.le_add_left _ _) ?_,
      Nat.add_sub_cancel]
    simp only [numSizes, lenOffset] at *
    omega
  rw [htrue, if_neg (not_le.mpr hd.1)]
  by_cases hne : d.bits ≠ b.bits
  · rw [if_pos hne]
    refine .inl ⟨fun hmem => hne ?_, rfl⟩
    have heq : d = b.buddy := h.free_unique hd hmem hdlast b.buddy.last_mem
    rw [heq, Block.buddy_bits]
  rw [if_neg hne]
  -- the buddy is free: the two become their parent
  obtain rfl : d = b.buddy := Block.eq_of_mem (not_not.mp hne) hdlast b.buddy.last_mem
  obtain ⟨s₁, lists₁, hok, hrep, hpool, hstart, -, hmem, hwrites⟩ := h.unlinkBuddy_spec hd
  rw [Block.buddy_bits] at hok hrep
  simp only [hok]
  have hparent : b.parent.off = if b.buddy.off < b.off then b.buddy.off else b.off := by
    show min b.off b.buddy.off = _
    split <;> omega
  have hpast₁ : b.parent.past ≤ s₁.poolBlocks := by
    rw [b.parent_past]
    exact max_le (hpool ▸ hpast) (hpool ▸ not_lt.mp hout)
  rw [← hparent, ← Block.parent_bits]
  exact .inr ⟨_, lists₁, ⟨hrep.congrParts (fun _ => Iff.rfl) (fun _ => Iff.rfl) fun _ =>
    Block.mem_parent, hd, hpast₁, hpool, hstart, hmem, hwrites⟩, rfl⟩

/-- **The merge loop of `Free`** never fails, and ends when the buddy is not free. -/
theorem mergeLoop_spec (left : ℕ) (h : RepInv s live lists unrel b.cells credit)
    (hleft : left = numSizes - 1 - b.bits) (hbits : b.bits < numSizes)
    (hpast : b.past ≤ s.poolBlocks) :
    ∃ (s' : VMsvga2Allocator) (b' : Block) (lists' : ℕ → List ℕ),
      mergeLoop left s b.bits b.off = .ok (s', b'.bits, b'.off) ∧
      Merged s s' live lists lists' unrel credit b b' := by
  -- the block as it is, when its buddy is not free
  have hstay : (b.bits < numSizes - 1 → b.buddy ∉ freeSet lists) →
      Merged s s live lists lists unrel credit b b := fun hb =>
    ⟨by rwa [Nat.sub_self, Nat.add_zero], le_rfl, hbits, hpast, rfl, rfl, fun d hd => hd, hb⟩
  induction left generalizing s lists b credit with
  | zero => exact ⟨s, b, lists, rfl, hstay fun hlt => by omega⟩
  | succ left ih =>
      rcases h.mergeLoop_step left hpast with ⟨hb, heq⟩ | ⟨s₁, lists₁, hstep, heq⟩
      · exact ⟨s, b, lists, heq, hstay fun _ => hb⟩
      have hlt : b.parent.bits < numSizes := by rw [Block.parent_bits]; omega
      obtain ⟨s', b', lists', hmerge, hmerged⟩ := ih hstep.rep
        (by rw [Block.parent_bits]; omega) hlt hstep.past_le fun hb =>
          ⟨by rw [Nat.sub_self, Nat.add_zero]; exact hstep.rep, le_rfl, hlt, hstep.past_le, rfl,
            rfl, fun d hd => hd, hb⟩
      obtain ⟨hrep', hle, hlt', hpast', hpool', hstart', hsub, hend⟩ := hmerged
      rw [Block.parent_bits] at hle hrep'
      have hcredit : credit + 2 ^ (b.bits + minBits) +
          (2 ^ (b'.bits + minBits) - 2 ^ (b.bits + 1 + minBits)) =
          credit + (2 ^ (b'.bits + minBits) - 2 ^ (b.bits + minBits)) := by
        have hpow : 2 ^ (b.bits + 1 + minBits) = 2 * 2 ^ (b.bits + minBits) := by
          rw [Nat.add_right_comm, pow_succ, Nat.mul_comm]
        have hpow' : 2 ^ (b.bits + 1 + minBits) ≤ 2 ^ (b'.bits + minBits) :=
          Nat.pow_le_pow_right (by omega) (Nat.add_le_add_right hle _)
        rw [hpow] at hpow' ⊢
        generalize 2 ^ (b.bits + minBits) = x at hpow' ⊢
        generalize 2 ^ (b'.bits + minBits) = y at hpow' ⊢
        omega
      rw [hcredit] at hrep'
      exact ⟨s', b', lists', heq.trans hmerge, hrep', by omega, hlt', hstep.poolBlocks ▸ hpast',
        hpool'.trans hstep.poolBlocks, hstart'.trans hstep.poolStart,
        fun e he => ((hstep.free e).mp (hsub e he)).1, hend⟩

end RepInv

/-- The last part of `Free` writes the same words as `makeFree`. -/
theorem linkFreed_eq {s : VMsvga2Allocator} {bits oldBits block : ℕ}
    (hnext : s.freeList bits ≠ ourNull → s.freeList bits < s.poolBlocks ∧
      s.freeList bits ≠ block ∧ s.magicOf (s.freeList bits) = allocMagic ∧
      s.prevOf (s.freeList bits) = ourNull) :
    s.linkFreed bits oldBits block =
      (.success, s.linkFront block bits (add32 s.freeBytes (2 ^ (oldBits + minBits)))) := by
  rw [linkFreed, linkFront]
  by_cases hnull : s.freeList bits = ourNull
  · simp [hnull, setMagic, setPrev, setNext, setBitsBefore, setFreeList]
  · obtain ⟨hlt, hne, hmagic, hprev⟩ := hnext hnull
    have hfl : ((s.setMagic block allocMagic).setPrev block ourNull).freeList bits =
        s.freeList bits := rfl
    have hmagic' : ((s.setMagic block allocMagic).setPrev block ourNull).magicOf
        (s.freeList bits) = allocMagic := by
      simp only [setMagic, setPrev, magicOf, setWord_apply] at hmagic ⊢
      rw [blockWord_eq, blockWord_eq, blockWord_eq] at *
      rw [if_neg (by omega), if_neg (by omega)]
      exact hmagic
    have hprev' : ((s.setMagic block allocMagic).setPrev block ourNull).prevOf
        (s.freeList bits) = ourNull := by
      simp only [setMagic, setPrev, prevOf, setWord_apply] at hprev ⊢
      rw [blockWord_eq, blockWord_eq, blockWord_eq] at *
      rw [if_neg (by omega), if_neg (by omega)]
      exact hprev
    simp only [hfl, hmagic', hprev', hnull, ne_eq, not_false_eq_true, true_and, ge_iff_le,
      not_true_eq_false, or_self, if_false, if_true]
    have hpool : ((s.setMagic block allocMagic).setPrev block ourNull).poolBlocks =
        s.poolBlocks := rfl
    rw [hpool, if_neg (not_le.mpr hlt)]
    refine Prod.ext rfl ?_
    have hpos := Nat.two_pow_pos bits
    simp only [setMagic, setPrev, setNext, setBitsBefore, setFreeList, VMsvga2Allocator.mk.injEq,
      true_and]
    -- the link of the next block is written earlier here, and no word is written twice
    funext i
    simp only [setWord_apply, blockWord_eq, trailerWord_eq]
    split_ifs <;> first | rfl | omega

namespace RepInv

variable {s s' : VMsvga2Allocator} {live : Set Block} {lists : ℕ → List ℕ}
  {unrel hand : Set ℕ} {credit credit' : ℕ} {b c : Block}

/-- A live block comes into hand at the start of `Free`. -/
theorem takeLive (h : RepInv s live lists unrel ∅ credit) (hb : b ∈ live) :
    RepInv (s.unmarkEnd b.last) (live \ {b}) lists unrel b.cells credit :=
  (h.unmark hb).congrParts (fun _ => Iff.rfl) (fun _ => Iff.rfl) fun n =>
    ⟨.inr, fun hn => hn.resolve_left (Set.notMem_empty n)⟩

/-- **The way of `Free`** of a live block: the merge loop comes to a block, which goes to the
front of its list. -/
theorem free_eq (h : RepInv s live lists unrel ∅ 0) (hb : b ∈ live) (hstart : s.poolStart ≠ 0) :
    ∃ (s₁ : VMsvga2Allocator) (b' : Block) (lists₁ : ℕ → List ℕ),
      mergeLoop (numSizes - 1 - b.bits) (s.unmarkEnd b.last) b.bits b.off =
        .ok (s₁, b'.bits, b'.off) ∧
      Merged (s.unmarkEnd b.last) s₁ (live \ {b}) lists lists₁ unrel 0 b b' ∧
      s.free (s.addr b.off) = (.success, s₁.linkFront b'.off b'.bits
        (add32 s₁.freeBytes (2 ^ (b.bits + minBits)))) := by
  have hne : s.addr b.off ≠ 0 := by
    rw [addr]
    omega
  have hblock : (s.addr b.off - s.poolStart) / 2 ^ minBits = b.off := by
    rw [addr, Nat.add_sub_cancel_left, Nat.mul_div_cancel _ (Nat.two_pow_pos _)]
  obtain ⟨s₁, b', lists₁, hmerge, hmerged⟩ := (h.takeLive hb).mergeLoop_spec _ rfl
    (h.live_bits b hb) (h.past_le (h.live_mem hb))
  refine ⟨s₁, b', lists₁, hmerge, hmerged, ?_⟩
  have hrep := hmerged.rep
  have hbits' := hmerged.bits_lt
  -- the head of the list that the merged block goes to is in order
  have hnext : s₁.freeList b'.bits ≠ ourNull → s₁.freeList b'.bits < s₁.poolBlocks ∧
      s₁.freeList b'.bits ≠ b'.off ∧ s₁.magicOf (s₁.freeList b'.bits) = allocMagic ∧
      s₁.prevOf (s₁.freeList b'.bits) = ourNull := by
    intro hnull
    obtain ⟨l, hl⟩ := (hrep.freeList_ne_iff hbits').mp hnull
    obtain ⟨c, hc, hcb, hco⟩ := hrep.exists_block hbits' (hl ▸ List.mem_cons_self)
    rw [← hco] at hl ⊢
    rw [← hcb] at hl
    refine ⟨hrep.off_lt (hrep.free_mem hc), fun heq => ?_, hrep.magic c hc, ?_⟩
    · exact hrep.free_not_hand hc c.off_mem (heq ▸ b'.off_mem)
    · exact (hrep.neighbours hc (l := []) hl).1
  rw [VMsvga2Allocator.free, if_neg hne, h.buddyAllocSize_live hb]
  simp only [hblock]
  have hlast : b.off + 2 ^ b.bits - 1 = b.last := rfl
  rw [hlast, hmerge]
  exact linkFreed_eq hnext

/-- **`Free`** of a live block succeeds. -/
theorem free_spec (h : RepInv s live lists unrel ∅ 0) (hb : b ∈ live)
    (hstart : s.poolStart ≠ 0) :
    ∃ s' lists', s.free (s.addr b.off) = (.success, s') ∧
      RepInv s' (live \ {b}) lists' unrel ∅ 0 ∧ s'.poolBlocks = s.poolBlocks ∧
      s'.poolStart = s.poolStart ∧
      (Coalesced (numSizes - 1) (freeSet lists) →
        Coalesced (numSizes - 1) (freeSet lists')) := by
  obtain ⟨s₁, b', lists₁, -, ⟨hrep, hgrows, hbits', hpast', hpool, hpstart, hsub, hend⟩, heq⟩ :=
    h.free_eq hb hstart
  have hbytes : add32 s₁.freeBytes (2 ^ (b.bits + minBits)) =
      (listBytes lists₁ + 2 ^ (b'.bits + minBits) + 0) % 2 ^ 32 := by
    have hpow : 2 ^ (b.bits + minBits) ≤ 2 ^ (b'.bits + minBits) :=
      Nat.pow_le_pow_right (by omega) (Nat.add_le_add_right hgrows _)
    have hsum : listBytes lists₁ + (0 + (2 ^ (b'.bits + minBits) - 2 ^ (b.bits + minBits))) +
        2 ^ (b.bits + minBits) = listBytes lists₁ + 2 ^ (b'.bits + minBits) + 0 := by omega
    rw [add32, hrep.freeBytes, Nat.mod_add_mod, hsum]
  have hlink := hrep.linkFront hbits' (fun n hn => hn) (hpool ▸ hpast') hbytes
  refine ⟨_, _, heq, hlink.congrParts (fun _ => Iff.rfl) (fun _ => Iff.rfl) fun n => ?_,
    hpool, hpstart, fun hco d hd hlt hbuddy => ?_⟩
  · simp only [Set.mem_empty_iff_false, false_iff]
    exact fun hn => hn.2 hn.1
  · -- the merged block has no free buddy, and the others had none before
    rcases (freeSet_push hbits' d).mp hd with rfl | hd <;>
      rcases (freeSet_push hbits' _).mp hbuddy with heq | hbuddy
    · exact d.buddy_ne heq
    · exact hend hlt hbuddy
    · rw [← heq, Block.buddy_bits, Block.buddy_buddy] at hend
      exact hend hlt hd
    · exact hco d (hsub d hd) hlt (hsub _ hbuddy)

end RepInv

/-! ### Sizes -/

/-- The size that a request is rounded up to: the smallest block that holds it. -/
def blockBits (bytes : ℕ) : ℕ := Nat.clog 2 bytes - minBits

/-- A size holds the bytes exactly when it is at least `blockBits` of them. -/
theorem blockBits_le_iff {bytes k : ℕ} : blockBits bytes ≤ k ↔ bytes ≤ 2 ^ (minBits + k) := by
  rw [blockBits, Nat.sub_le_iff_le_add', Nat.clog_le_iff_le_pow (by decide)]

/-- The size loop of `Malloc` finds the rounded size, if it is among the sizes. -/
theorem mallocBits_eq {bytes left bits : ℕ} (h : bits ≤ blockBits bytes) :
    mallocBits bytes left bits =
      if blockBits bytes ≤ bits + left then some (blockBits bytes) else none := by
  induction left generalizing bits with
  | zero =>
      rw [mallocBits]
      by_cases hlt : 2 ^ (minBits + bits) < bytes
      · have := mt blockBits_le_iff.mp (not_le.mpr hlt)
        rw [if_pos hlt, if_neg (by omega)]
      · have := blockBits_le_iff.mpr (not_lt.mp hlt)
        rw [if_neg hlt, if_pos (by omega), le_antisymm h this]
  | succ left ih =>
      rw [mallocBits]
      by_cases hlt : 2 ^ (minBits + bits) < bytes
      · have := mt blockBits_le_iff.mp (not_le.mpr hlt)
        rw [if_pos hlt]
        show mallocBits bytes left (bits + 1) = _
        rw [ih (by omega), show bits + 1 + left = bits + (left + 1) by omega]
      · have := blockBits_le_iff.mpr (not_lt.mp hlt)
        rw [if_neg hlt, if_pos (by omega), le_antisymm h this]

/-- The size loop of `Realloc` finds the rounded size. -/
theorem canBitsLoop_eq {size left k : ℕ} (h : k ≤ blockBits size)
    (hleft : blockBits size ≤ k + left) :
    canBitsLoop size left (minBits + k) = minBits + blockBits size := by
  induction left generalizing k with
  | zero => rw [canBitsLoop, le_antisymm h hleft]
  | succ left ih =>
      rw [canBitsLoop]
      by_cases hlt : 2 ^ (minBits + k) < size
      · have := mt blockBits_le_iff.mp (not_le.mpr hlt)
        rw [if_pos hlt]
        exact ih (k := k + 1) (by omega) (by omega)
      · have := blockBits_le_iff.mpr (not_lt.mp hlt)
        rw [if_neg hlt, le_antisymm h this]

/-- What a successful allocation leaves: a new live block that was free before. -/
structure Allocated (s s' : VMsvga2Allocator) (live : Set Block) (lists lists' : ℕ → List ℕ)
    (unrel : Set ℕ) (b : Block) : Prop where
  rep : RepInv s' (insert b live) lists' unrel ∅ 0
  poolBlocks : s'.poolBlocks = s.poolBlocks
  poolStart : s'.poolStart = s.poolStart
  fresh : b ∉ live
  coalesced : Coalesced (numSizes - 1) (freeSet lists) →
    Coalesced (numSizes - 1) (freeSet lists')

namespace RepInv

variable {s s' : VMsvga2Allocator} {live : Set Block} {lists : ℕ → List ℕ}
  {unrel hand : Set ℕ} {credit credit' : ℕ} {b c : Block}

/-- **`Malloc`** fails without a change when no list holds a large enough block, and
otherwise returns a block of the rounded size. -/
theorem malloc_spec (h : RepInv s live lists unrel ∅ 0) (bytes : ℕ) :
    (∃ e, s.malloc bytes = (e, s, none) ∧ (e = .noMemory ∨ e = .noResources) ∧
      ∀ k, blockBits bytes ≤ k → k < numSizes → lists k = []) ∨
    ∃ b s' lists', s.malloc bytes = (.success, s', some (s.addr b.off)) ∧
      b.bits = blockBits bytes ∧ Allocated s s' live lists lists' unrel b := by
  rw [VMsvga2Allocator.malloc, mallocBits_eq (Nat.zero_le _), Nat.zero_add]
  by_cases hbits : blockBits bytes ≤ numSizes
  · rw [if_pos hbits]
    simp only
    rcases h.buddyMalloc_spec (blockBits bytes) with ⟨heq, hempty⟩ |
      ⟨b, s', lists', heq, hb, hrep, hpool, hstart, ⟨c, hc, hsub⟩, hco⟩
    · exact .inl ⟨.noMemory, heq, .inl rfl, hempty⟩
    · refine .inr ⟨b, s', lists', heq, hb, hrep, hpool, hstart, fun hmem => ?_, hco⟩
      exact h.live_not_free hmem hc b.off_mem (hsub _ b.off_mem)
  · rw [if_neg hbits]
    exact .inl ⟨.noResources, rfl, .inr rfl, fun k h₁ h₂ => by omega⟩

/-! ### Reallocating -/

/-- The state of `Realloc` before the end of the block `b` goes back to the lists: its first part
is marked, and its own mark is cleared. -/
def cutMarks (s : VMsvga2Allocator) (c b : Block) : VMsvga2Allocator :=
  (s.markEnd c.last).unmarkEnd b.last

/-- **The ways of `Realloc`** of the live block `b` to `size` bytes, and what it returns. -/
inductive Reallocated (s : VMsvga2Allocator) (live : Set Block) (lists : ℕ → List ℕ)
    (unrel : Set ℕ) (b : Block) (size : ℕ) : AllocResult → Prop
  /-- There is no block to move to. -/
  | failed (e : IOReturn) (he : e = .noMemory ∨ e = .noResources) :
      Reallocated s live lists unrel b size (e, s, none)
  /-- A new block is allocated, filled and exchanged for the old one. -/
  | moved (c : Block) (s₁ s₂ : VMsvga2Allocator) (lists₁ : ℕ → List ℕ)
      (hbits : c.bits = blockBits size) (hgrow : b.bits < c.bits)
      (hmalloc : s.malloc size = (.success, s₁, some (s.addr c.off)))
      (halloc : Allocated s s₁ live lists lists₁ unrel c)
      (hfree : (s₁.copyBytes (s.addr c.off) (s.addr b.off) (2 ^ (b.bits + minBits))).free
        (s.addr b.off) = (.success, s₂)) :
      Reallocated s live lists unrel b size (.success, s₂, some (s.addr c.off))
  /-- The block has the right size already. -/
  | kept (hbits : b.bits = blockBits size) :
      Reallocated s live lists unrel b size (.success, s, some (s.addr b.off))
  /-- The end of the block is cut off. -/
  | cut (c : Block) (hbits : c.bits = blockBits size) (hoff : c.off = b.off)
      (hlt : c.bits < b.bits) :
      Reallocated s live lists unrel b size
        (.success, (cutMarks s c b).toFree c.past b.past false, some (s.addr c.off))

/-- The words that the copy of `Realloc` writes. -/
theorem copyBytes_mem {s₁ : VMsvga2Allocator} (hstart : s₁.poolStart = s.poolStart) (i : ℕ) :
    (s₁.copyBytes (s.addr c.off) (s.addr b.off) (2 ^ (b.bits + minBits))).mem i =
      if c.off * 1024 ≤ i ∧ i < c.off * 1024 + 2 ^ b.bits * 1024 then
        s₁.mem (i - c.off * 1024 + b.off * 1024)
      else s₁.mem i := by
  have hword : ∀ n, n * 2 ^ minBits / 4 = n * 1024 := fun n => by
    rw [show 2 ^ minBits = 1024 * 4 from rfl, ← Nat.mul_assoc, Nat.mul_div_cancel _ (by decide)]
  rw [copyBytes, addr, addr, hstart, Nat.add_sub_cancel_left, Nat.add_sub_cancel_left, hword,
    hword, pow_add, hword]

/-- The new block is filled before the old one is freed. -/
theorem copied {s₁ : VMsvga2Allocator} {lists₁ : ℕ → List ℕ}
    (halloc : Allocated s s₁ live lists lists₁ unrel c) (hle : b.bits ≤ c.bits) :
    RepInv (s₁.copyBytes (s.addr c.off) (s.addr b.off) (2 ^ (b.bits + minBits)))
      (insert c live) lists₁ unrel ∅ 0 := by
  refine halloc.rep.writeMem fun d hd i hi => ?_
  refine (copyBytes_mem halloc.poolStart i).trans (if_neg fun hin => ?_)
  have hlen : 2 ^ b.bits ≤ 2 ^ c.bits := Nat.pow_le_pow_right (by omega) hle
  refine halloc.rep.live_not_free (Set.mem_insert c live) hd (n := pageOf i) ?_ hi
  rw [Block.mem_cells, Block.past, pageOf]
  omega

/-- The marks of a cut block: its first part is live, and its end is in hand. -/
theorem cutMarks_rep (h : RepInv s live lists unrel ∅ 0) (hb : b ∈ live) (hoff : c.off = b.off)
    (hlt : c.bits < b.bits) :
    RepInv (cutMarks s c b) (insert c (live \ {b})) lists unrel
      {n | (n ∈ (∅ : Set ℕ) ∨ n ∈ b.cells) ∧ n ∉ c.cells} 0 := by
  have hpow : 2 ^ c.bits < 2 ^ b.bits := Nat.pow_lt_pow_right (by omega) hlt
  have hcpast : c.past < b.past := by
    rw [Block.past, Block.past, hoff]
    omega
  have hcpos := c.off_lt_past
  have hcells : ∀ n ∈ c.cells, n ∈ b.cells := fun n hn => ⟨hoff ▸ hn.1, hn.2.trans hcpast⟩
  have hlast : c.last ≠ b.last := by
    rw [Block.last, Block.last]
    omega
  have hmark := (h.unmark hb).mark (b := c) (hlt.trans (h.live_bits b hb))
    (fun n hn => .inr (hcells n hn)) (le_trans hcpast.le (h.past_le (h.live_mem hb)))
  -- the two bits may be written in either order
  refine hmark.congrMap (cutMarks s c b).map fun n _ => ?_
  simp only [cutMarks, markEnd, unmarkEnd, bitTest_bitSet, bitTest_bitClear]
  by_cases hn : n = b.last
  · rw [if_pos hn, if_neg fun heq => hlast (heq.symm.trans hn), if_pos hn]
  · rw [if_neg hn]
    split <;> rfl

/-- The end of a cut block is in hand. -/
theorem cut_in_hand (hoff : c.off = b.off) (n : ℕ) (h₁ : c.past ≤ n) (h₂ : n < b.past) :
    n ∈ {n | (n ∈ (∅ : Set ℕ) ∨ n ∈ b.cells) ∧ n ∉ c.cells} :=
  ⟨.inr ⟨hoff ▸ c.off_lt_past.le.trans h₁, h₂⟩, fun hn => not_lt.mpr h₁ hn.2⟩

/-- **The ways of `Realloc`**: the block stays, is cut, or moves, or the call fails. -/
theorem realloc_cases (h : RepInv s live lists unrel ∅ 0) (hb : b ∈ live)
    (hstart : s.poolStart ≠ 0) {size : ℕ} (hsize : size ≠ 0) :
    Reallocated s live lists unrel b size (s.realloc (s.addr b.off) size) := by
  have hne : s.addr b.off ≠ 0 := by
    rw [addr]
    omega
  have hblock : (s.addr b.off - s.poolStart) / 2 ^ minBits = b.off := by
    rw [addr, Nat.add_sub_cancel_left, Nat.mul_div_cancel _ (Nat.two_pow_pos _)]
  rw [VMsvga2Allocator.realloc, if_neg hsize, if_neg hne, h.buddyAllocSize_live hb]
  simp only [hblock]
  by_cases hgrow : 2 ^ (b.bits + minBits) < size
  · rw [if_pos hgrow]
    have hbits : b.bits < blockBits size := by
      rw [Nat.add_comm] at hgrow
      exact not_le.mp (mt blockBits_le_iff.mp (not_le.mpr hgrow))
    rcases h.malloc_spec size with ⟨e, heq, he, -⟩ | ⟨c, s₁, lists₁, heq, hc, halloc⟩
    · rw [heq]
      rcases he with rfl | rfl
      · exact .failed _ (.inl rfl)
      · exact .failed _ (.inr rfl)
    · obtain ⟨s₂, lists₂, hfree, -⟩ := (copied halloc (hc ▸ hbits.le)).free_spec
        (Set.mem_insert_of_mem c hb)
        (show s₁.poolStart ≠ 0 by rw [halloc.poolStart]; exact hstart)
      have haddr : (s₁.copyBytes (s.addr c.off) (s.addr b.off)
          (2 ^ (b.bits + minBits))).addr b.off = s.addr b.off := by
        rw [addr, addr]
        exact congrArg (· + _) halloc.poolStart
      rw [haddr] at hfree
      rw [heq]
      simp only [hfree]
      exact .moved c s₁ s₂ lists₁ hc (hc ▸ hbits) heq halloc hfree
  · rw [if_neg hgrow]
    have hle : blockBits size ≤ b.bits := by
      rw [blockBits_le_iff, Nat.add_comm]
      exact not_lt.mp hgrow
    have hcan : canBitsLoop size b.bits minBits = minBits + blockBits size :=
      canBitsLoop_eq (k := 0) (Nat.zero_le _) (by omega)
    simp only [hcan]
    by_cases hsame : minBits + blockBits size ≥ b.bits + minBits
    · rw [if_pos hsame]
      exact .kept (by omega)
    · rw [if_neg hsame]
      have hexp : minBits + blockBits size - minBits = blockBits size := by omega
      rw [hexp]
      exact .cut ⟨blockBits size, b.off, Block.dvd_off hle⟩ rfl rfl
        (show blockBits size < b.bits by omega)

/-- **`Realloc`** of a live block fails without a change, or turns it into a block of the
rounded size. -/
theorem realloc_spec (h : RepInv s live lists unrel ∅ 0) (hb : b ∈ live)
    (hstart : s.poolStart ≠ 0) {size : ℕ} (hsize : size ≠ 0) :
    (∃ e, s.realloc (s.addr b.off) size = (e, s, none) ∧
      (e = .noMemory ∨ e = .noResources)) ∨
    ∃ c s' lists', s.realloc (s.addr b.off) size = (.success, s', some (s.addr c.off)) ∧
      c.bits = blockBits size ∧ Allocated s s' (live \ {b}) lists lists' unrel c := by
  have hcases := h.realloc_cases hb hstart hsize
  revert hcases
  generalize s.realloc (s.addr b.off) size = res
  rintro (⟨e, he⟩ | ⟨c, s₁, s₂, lists₁, hc, hgrow, -, halloc, hfree⟩ | hbits |
    ⟨c, hc, hoff, hlt⟩)
  · exact .inl ⟨e, rfl, he⟩
  · -- the old block is freed in the state with the new one
    obtain ⟨s', lists₂, hfree', hrep, hpool, hpstart, hco⟩ :=
      (copied halloc hgrow.le).free_spec (Set.mem_insert_of_mem c hb)
        (show s₁.poolStart ≠ 0 by rw [halloc.poolStart]; exact hstart)
    have haddr : (s₁.copyBytes (s.addr c.off) (s.addr b.off)
        (2 ^ (b.bits + minBits))).addr b.off = s.addr b.off := by
      rw [addr, addr]
      exact congrArg (· + _) halloc.poolStart
    rw [haddr, hfree] at hfree'
    obtain rfl : s₂ = s' := (Prod.mk.inj hfree').2
    have hbc : b ≠ c := fun heq => halloc.fresh (heq ▸ hb)
    refine .inr ⟨c, s₂, lists₂, rfl, hc, hrep.congrParts (fun d => ?_) (fun _ => Iff.rfl)
      fun _ => Iff.rfl, hpool.trans halloc.poolBlocks, hpstart.trans halloc.poolStart,
      fun hmem => halloc.fresh hmem.1, fun h => hco (halloc.coalesced h)⟩
    constructor
    · rintro (rfl | ⟨hd, hdb⟩)
      · exact ⟨.inl rfl, fun heq => hbc heq.symm⟩
      · exact ⟨.inr hd, hdb⟩
    · rintro ⟨rfl | hd, hdb⟩
      · exact .inl rfl
      · exact .inr ⟨hd, hdb⟩
  · refine .inr ⟨b, s, lists, rfl, hbits, h.congrParts (fun d => ?_) (fun _ => Iff.rfl)
      fun _ => Iff.rfl, rfl, rfl, fun hmem => hmem.2 rfl, id⟩
    constructor
    · rintro (rfl | ⟨hd, -⟩)
      · exact hb
      · exact hd
    · intro hd
      by_cases hdb : d = b
      · exact .inl hdb
      · exact .inr ⟨hd, hdb⟩
  · have hbpast := h.past_le (h.live_mem hb)
    have hcpos : b.off < c.past := hoff ▸ c.off_lt_past
    obtain ⟨lists', hfree, hcut⟩ := (h.cutMarks_rep hb hoff hlt).toFree_spec c.past b.past
      (cut_in_hand hoff) hbpast
    refine .inr ⟨c, _, lists', rfl, hc, hfree.congrParts (fun _ => Iff.rfl) (fun _ => Iff.rfl)
      fun n => ?_, toFree_poolBlocks _ _ _, toFree_poolStart _ _ _, fun hmem => ?_,
      fun hco => hco.cut hcut fun p _ h₁ h₂ hbuddy => ?_⟩
    · simp only [Set.mem_empty_iff_false, false_iff]
      rintro ⟨⟨hn | hn, hnc⟩, hrest⟩
      · exact hn
      · exact hrest ⟨not_lt.mp fun hlt => hnc ⟨hoff ▸ hn.1, hlt⟩, hn.2⟩
    · have hmem' : c.off ∈ b.cells := hoff ▸ b.off_mem
      exact hmem.2 (h.tiling.disjoint c (h.live_mem hmem.1) b (h.live_mem hb) c.off c.off_mem
        hmem')
    · have hin := Block.buddy_off_mem (b := p) (c := b) (lt_of_lt_of_le hcpos h₁) h₂
      exact h.live_not_free hb hbuddy hin p.buddy.off_mem

/-! ### Releasing -/

/-- Never released minimum blocks come into hand when their marks are cleared. -/
theorem takeUnrel (h : RepInv s live lists unrel hand credit) (map : ByteMap)
    (range : Set ℕ) (hrange : ∀ n ∈ range, n ∈ unrel)
    (hmap : ∀ n < s.poolBlocks,
      (bitTest map n = true ↔ n ∉ range ∧ bitTest s.map n = true)) :
    RepInv { s with map := map } live lists {n | n ∈ unrel ∧ n ∉ range}
      {n | n ∈ hand ∨ n ∈ range} credit := by
  obtain ⟨h1, h2, h3, h4, h5, h6, h7, h8, h9, h10, h11, h12⟩ := id h
  have hparts : {n | n ∈ unrel ∧ n ∉ range} ∪ {n | n ∈ hand ∨ n ∈ range} = unrel ∪ hand := by
    refine Set.ext fun n => ⟨?_, ?_⟩
    · rintro (hn | hn | hn)
      · exact .inl hn.1
      · exact .inr hn
      · exact .inl (hrange n hn)
    · rintro (hn | hn)
      · by_cases hr : n ∈ range
        · exact .inr (.inr hr)
        · exact .inl ⟨hn, hr⟩
      · exact .inr (.inl hn)
  refine ⟨h1, h2, h3, h4, hparts ▸ h5, h6, ?_, fun n hn => ?_, h9, h10, h11, h12⟩
  · rintro n (hn | hn) ⟨hu, hnr⟩
    · exact h7 n hn hu
    · exact hnr hn
  · rw [hmap n hn, h8 n hn]
    constructor
    · rintro ⟨hnr, hu | hlive⟩
      · exact .inl ⟨hu, hnr⟩
      · exact .inr hlive
    · rintro (⟨hu, hnr⟩ | ⟨d, hd, heq⟩)
      · exact ⟨hnr, .inl hu⟩
      · refine ⟨fun hr => ?_, .inr ⟨d, hd, heq⟩⟩
        exact h5.avoid d (h.live_mem hd) d.last d.last_mem (.inl (hrange _ (heq ▸ hr)))

end RepInv

/-- `testAll` accepts a range of marks. -/
theorem testAll_of_set {s : VMsvga2Allocator} {first past : ℕ}
    (h : ∀ n, first ≤ n → n < past → bitTest s.map n = true) : s.testAll first past = true := by
  rw [testAll]
  simp only [Bool.and_eq_true, List.all_eq_true, List.mem_range'_1]
  refine ⟨⟨fun n hn => h n hn.1 (by omega), ?_⟩, fun n hn => h n (by omega) (by omega)⟩
  split
  · rw [memAll, decide_eq_true_iff]
    refine scanEqual_eq_zero fun j h₁ h₂ => byte_eq_ones_iff.mpr fun m hm => ?_
    exact h m (by omega) (by omega)
  · rfl

/-- `clearAll` clears exactly its range. -/
theorem clearAll_bit (s : VMsvga2Allocator) (first past n : ℕ) :
    bitTest (s.clearAll first past).map n =
      if first ≤ n ∧ n < past then false else bitTest s.map n := by
  simp only [clearAll]
  rw [bitTest_bitsClear]
  by_cases htail : max (past / 8 * 8) (min past ((first + 7) / 8 * 8)) ≤ n ∧
      n < max (past / 8 * 8) (min past ((first + 7) / 8 * 8)) +
        (past - max (past / 8 * 8) (min past ((first + 7) / 8 * 8)))
  · rw [if_pos htail]
    split
    · rfl
    · omega
  rw [if_neg htail]
  by_cases hbody : (first + 7) / 8 * 8 / 8 ≤ n / 8 ∧
      n / 8 < (first + 7) / 8 * 8 / 8 + (past / 8 * 8 - (first + 7) / 8 * 8) / 8
  · rw [bitTest_of_byte_zero (if_pos hbody), if_pos (by omega)]
  · rw [bitTest_congr (if_neg hbody), bitTest_bitsClear]
    split <;> split <;> first | rfl | omega

namespace RepInv

variable {s s' : VMsvga2Allocator} {live : Set Block} {lists : ℕ → List ℕ}
  {unrel hand : Set ℕ} {credit credit' : ℕ} {b c : Block}

/-- **The two ways of `Release`** of minimum blocks that were never released: it is refused
without a change when the range is not aligned or not in the pool, and else the range comes into
hand and is cut into free blocks. -/
theorem release_cases (h : RepInv s live lists unrel ∅ 0) {first past : ℕ}
    (hrange : ∀ n, first / 2 ^ minBits ≤ n → n < past / 2 ^ minBits → n < s.poolBlocks →
      n ∈ unrel) :
    (s.release first past = (.badArgument, s) ∧ (first % 2 ^ minBits ≠ 0 ∨
      past % 2 ^ minBits ≠ 0 ∨ s.poolBlocks ≤ first / 2 ^ minBits ∨
      s.poolBlocks < past / 2 ^ minBits)) ∨
    (past / 2 ^ minBits ≤ s.poolBlocks ∧
      RepInv (s.clearAll (first / 2 ^ minBits) (past / 2 ^ minBits)) live lists
        {n | n ∈ unrel ∧ n ∉ {n | first / 2 ^ minBits ≤ n ∧ n < past / 2 ^ minBits}}
        {n | n ∈ (∅ : Set ℕ) ∨ n ∈ {n | first / 2 ^ minBits ≤ n ∧ n < past / 2 ^ minBits}} 0 ∧
      s.release first past = (.success, (s.clearAll (first / 2 ^ minBits)
        (past / 2 ^ minBits)).toFree (first / 2 ^ minBits) (past / 2 ^ minBits) false)) := by
  rw [VMsvga2Allocator.release]
  split
  · rename_i hfirst
    exact .inl ⟨rfl, .inl hfirst⟩
  split
  · rename_i hpast
    exact .inl ⟨rfl, .inr (.inl hpast)⟩
  simp only
  split
  · rename_i hout
    exact .inl ⟨rfl, .inr (.inr hout)⟩
  rename_i hin
  have hpast : past / 2 ^ minBits ≤ s.poolBlocks := by omega
  have hset : ∀ n, first / 2 ^ minBits ≤ n → n < past / 2 ^ minBits →
      bitTest s.map n = true := fun n h₁ h₂ =>
    (h.ends n (by omega)).mpr (.inl (hrange n h₁ h₂ (by omega)))
  refine .inr ⟨hpast, ?_, ?_⟩
  · refine h.takeUnrel (s.clearAll (first / 2 ^ minBits) (past / 2 ^ minBits)).map
      {n | first / 2 ^ minBits ≤ n ∧ n < past / 2 ^ minBits}
      (fun n hn => hrange n hn.1 hn.2 (lt_of_lt_of_le hn.2 hpast)) fun n _ => ?_
    rw [clearAll_bit, Set.mem_ofPred_eq]
    split
    · rename_i hn
      simp [hn]
    · rename_i hn
      simp only [hn, not_false_eq_true, true_and]
  · rw [clearCheck, if_pos (testAll_of_set hset)]

/-- **`Release`** of minimum blocks that were never released is refused without a change
when the range is not aligned or not in the pool, and else cuts them into free blocks. -/
theorem release_spec (h : RepInv s live lists unrel ∅ 0) {first past : ℕ}
    (hrange : ∀ n, first / 2 ^ minBits ≤ n → n < past / 2 ^ minBits → n < s.poolBlocks →
      n ∈ unrel) :
    (s.release first past = (.badArgument, s) ∧ (first % 2 ^ minBits ≠ 0 ∨
      past % 2 ^ minBits ≠ 0 ∨ s.poolBlocks ≤ first / 2 ^ minBits ∨
      s.poolBlocks < past / 2 ^ minBits)) ∨
    ∃ s' lists', s.release first past = (.success, s') ∧
      RepInv s' live lists'
        {n | n ∈ unrel ∧ ¬ (first / 2 ^ minBits ≤ n ∧ n < past / 2 ^ minBits)} ∅ 0 ∧
      s'.poolBlocks = s.poolBlocks ∧ s'.poolStart = s.poolStart ∧
      past / 2 ^ minBits ≤ s.poolBlocks ∧
      Cut (first / 2 ^ minBits) (past / 2 ^ minBits) lists lists' := by
  rcases h.release_cases hrange with hrefused | ⟨hpast, htake, heq⟩
  · exact .inl hrefused
  right
  obtain ⟨lists', hfree, hcut⟩ := htake.toFree_spec (first / 2 ^ minBits)
    (past / 2 ^ minBits) (fun n h₁ h₂ => .inr ⟨h₁, h₂⟩) hpast
  refine ⟨_, lists', heq, hfree.congrParts (fun _ => Iff.rfl) (fun _ => Iff.rfl) fun n => ?_,
    toFree_poolBlocks _ _ _, toFree_poolStart _ _ _, hpast, hcut⟩
  simp only [Set.mem_empty_iff_false, false_iff]
  rintro ⟨hn | hn, hout⟩
  · exact hn
  · exact hout hn

end RepInv

end DockerMacos
