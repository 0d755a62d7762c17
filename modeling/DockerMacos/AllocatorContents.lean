import DockerMacos.AllocatorRun

/-!
# What the Allocator Writes

The free lists live inside the memory that is handed out, so every update of a list is a write
into the pool. `WritesOnly` says where: `Malloc` writes into free blocks, `Free` and `Realloc`
also into the block they are about, and `Release` into the range it frees. The other live
blocks keep their contents, and a moved block takes its contents along.

## From calls to runs

The lemmas on single calls name the cells that a call may write, by the free lists before it.
A live block shares no cell with them (`RepInv.live_not_free`), so its words are what they were.
Along a run the only other writes are those of clients, which are writes to live blocks.

## Bytes

Clients see bytes, the pool holds words. `byteAt` cuts a byte out of its word, and two words
that agree have the same bytes; so the statement about `Realloc` is one about the bytes at the
two pointers, up to the smaller of the two sizes.

## Main results

* `RepInv.free_writes`, `RepInv.malloc_writes`, `RepInv.realloc_writes`,
  `RepInv.release_writes`: where each call writes.
* `RepInv.realloc_keeps`: the contents of a reallocated block.
* `AllocInv.step_writes`: where a step of a run writes.
* `realloc_preserves_contents`: live blocks keep their contents along every run.
-/

namespace DockerMacos

open VMsvga2Allocator

namespace RepInv

variable {s s' : VMsvga2Allocator} {live : Set Block} {lists lists' : ℕ → List ℕ}
  {unrel hand : Set ℕ} {credit credit' : ℕ} {b c : Block}

/-! ### Freeing and allocating -/

/-- The merged block is no new place of the allocator. -/
theorem MergeStep.subset (h : MergeStep s s' live lists lists' unrel credit b) :
    ∀ n ∈ workCells lists' b.parent.cells, n ∈ workCells lists b.cells := by
  rintro n (hn | ⟨d, hd, hn⟩)
  · rcases Block.mem_parent.mp hn with hn | hn
    · exact .inl hn
    · exact .inr ⟨b.buddy, h.buddy, hn⟩
  · exact .inr ⟨d, ((h.free d).mp hd).1, hn⟩

/-- The result of the merge loop determines the block. -/
theorem mergeLoop_ok_inj {b' : Block}
    (h : (.ok (s, b.bits, b.off) : Except VMsvga2Allocator (VMsvga2Allocator × ℕ × ℕ)) =
      .ok (s', b'.bits, b'.off)) : s = s' ∧ b = b' := by
  simp only [Except.ok.injEq, Prod.mk.injEq] at h
  obtain ⟨hs, hbits, hoff⟩ := h
  exact ⟨hs, Block.ext hbits hoff⟩

/-- The merge loop writes only into the block in hand and into free blocks, and the merged block
is made up of these. -/
theorem mergeLoop_writes (left : ℕ) (h : RepInv s live lists unrel b.cells credit)
    (hpast : b.past ≤ s.poolBlocks) {b' : Block}
    (hmerge : mergeLoop left s b.bits b.off = .ok (s', b'.bits, b'.off)) :
    WritesOnly (workCells lists b.cells) s s' ∧
      ∀ n ∈ b'.cells, n ∈ workCells lists b.cells := by
  induction left generalizing s lists b credit with
  | zero =>
      obtain ⟨rfl, rfl⟩ := mergeLoop_ok_inj hmerge
      exact ⟨.refl s, fun n hn => .inl hn⟩
  | succ left ih =>
      rcases h.mergeLoop_step left hpast with ⟨-, heq⟩ | ⟨s₁, lists₁, hstep, heq⟩
      · obtain ⟨rfl, rfl⟩ := mergeLoop_ok_inj (heq.symm.trans hmerge)
        exact ⟨.refl s, fun n hn => .inl hn⟩
      · obtain ⟨hwrites, hcells⟩ := ih hstep.rep hstep.past_le (heq.symm.trans hmerge)
        exact ⟨hstep.writes.trans (hwrites.mono hstep.subset),
          fun n hn => hstep.subset n (hcells n hn)⟩

/-- `Free` writes only into the freed block and into free blocks. -/
theorem free_writes (h : RepInv s live lists unrel ∅ 0) (hb : b ∈ live)
    (hstart : s.poolStart ≠ 0) :
    WritesOnly (workCells lists b.cells) s (s.free (s.addr b.off)).2 := by
  obtain ⟨s₁, b', lists₁, hmerge, hmerged, heq⟩ := h.free_eq hb hstart
  obtain ⟨hwrites, hcells⟩ := (h.takeLive hb).mergeLoop_writes _
    (h.past_le (h.live_mem hb)) hmerge
  rw [heq]
  have hlink := hmerged.rep.linkFront_writes hmerged.bits_lt (fun n hn => hn)
    (add32 s₁.freeBytes (2 ^ (b.bits + minBits)))
  -- clearing the mark of the block changes no memory
  have hunmark : WritesOnly (workCells lists b.cells) s (s.unmarkEnd b.last) := .refl s
  refine (hunmark.trans hwrites).trans (hlink.mono ?_)
  rintro n (hn | ⟨d, hd, hn⟩)
  · exact hcells n hn
  · exact .inr ⟨d, hmerged.subset d hd, hn⟩

/-- `Malloc` writes only into free blocks. -/
theorem malloc_writes (h : RepInv s live lists unrel ∅ 0) (bytes : ℕ) :
    WritesOnly (workCells lists ∅) s (s.malloc bytes).2.1 := by
  rw [VMsvga2Allocator.malloc]
  split
  · exact .refl s
  · exact h.buddyMalloc_writes _

/-- A minimum block of the pool that was released and is not live belongs to the allocator. -/
theorem mem_workCells (h : RepInv s live lists unrel ∅ credit) {n : ℕ} (hn : n < s.poolBlocks)
    (hunrel : n ∉ unrel) (hlive : ∀ d ∈ live, n ∉ d.cells) : n ∈ workCells lists ∅ := by
  rcases h.tiling.cover n hn with (hu | hh) | ⟨d, hd | hd, hnd⟩
  · exact absurd hu hunrel
  · exact .inl hh
  · exact absurd hnd (hlive d hd)
  · exact .inr ⟨d, hd, hnd⟩

/-- A new block, and what is free after its allocation, was free before. -/
theorem allocated_subset (h : RepInv s live lists unrel ∅ credit)
    (halloc : Allocated s s' live lists lists' unrel c) {n : ℕ}
    (hn : n ∈ c.cells ∨ ∃ d ∈ freeSet lists', n ∈ d.cells) : n ∈ workCells lists ∅ := by
  have hrep := halloc.rep
  rcases hn with hn | ⟨d, hd, hn⟩
  · have hc := hrep.live_mem (Set.mem_insert c live)
    refine h.mem_workCells ?_ (fun hu => hrep.tiling.avoid c hc n hn (.inl hu))
      fun d hd hnd => ?_
    · exact halloc.poolBlocks ▸ lt_of_lt_of_le hn.2 (hrep.past_le hc)
    · have heq := hrep.tiling.disjoint d (.inl (.inr hd)) c hc n hnd hn
      exact halloc.fresh (heq ▸ hd)
  · have hdmem := hrep.free_mem hd
    refine h.mem_workCells ?_ (fun hu => hrep.tiling.avoid d hdmem n hn (.inl hu))
      fun e he hne => hrep.live_not_free (Set.mem_insert_of_mem c he) hd hne hn
    exact halloc.poolBlocks ▸ lt_of_lt_of_le hn.2 (hrep.past_le hdmem)

/-! ### Reallocating -/

/-- The copy writes only into the new block. -/
theorem copyBytes_writes {s₁ : VMsvga2Allocator} (hstart : s₁.poolStart = s.poolStart)
    (hle : b.bits ≤ c.bits) :
    WritesOnly c.cells s₁
      (s₁.copyBytes (s.addr c.off) (s.addr b.off) (2 ^ (b.bits + minBits))) := by
  intro i hi
  refine (copyBytes_mem hstart i).trans (if_neg fun hin => hi ?_)
  have hlen : 2 ^ b.bits ≤ 2 ^ c.bits := Nat.pow_le_pow_right (by omega) hle
  rw [Block.mem_cells, Block.past, pageOf]
  omega

/-- The free of the old block, in the state with the filled new one. -/
theorem moved_free_writes (halloc : Allocated s s' live lists lists' unrel c) (hb : b ∈ live)
    (hstart : s.poolStart ≠ 0) (hle : b.bits ≤ c.bits) {s₂ : VMsvga2Allocator}
    (hfree : (s'.copyBytes (s.addr c.off) (s.addr b.off) (2 ^ (b.bits + minBits))).free
      (s.addr b.off) = (.success, s₂)) :
    WritesOnly (workCells lists' b.cells)
      (s'.copyBytes (s.addr c.off) (s.addr b.off) (2 ^ (b.bits + minBits))) s₂ := by
  have hwrites := (copied halloc hle).free_writes (Set.mem_insert_of_mem c hb)
    (show s'.poolStart ≠ 0 by rw [halloc.poolStart]; exact hstart)
  have haddr : (s'.copyBytes (s.addr c.off) (s.addr b.off)
      (2 ^ (b.bits + minBits))).addr b.off = s.addr b.off := by
    rw [addr, addr]
    exact congrArg (· + _) halloc.poolStart
  rw [haddr, hfree] at hwrites
  exact hwrites

/-- The cells of the allocator with nothing in hand are among those with something in hand. -/
theorem workCells_mono {n : ℕ} (hn : n ∈ workCells lists ∅) : n ∈ workCells lists hand := by
  rcases hn with hn | hn
  · exact absurd hn (Set.notMem_empty n)
  · exact .inr hn

/-- `Realloc` writes only into free blocks and into the block it is about. -/
theorem realloc_writes (h : RepInv s live lists unrel ∅ 0) (hb : b ∈ live)
    (hstart : s.poolStart ≠ 0) {size : ℕ} (hsize : size ≠ 0) :
    WritesOnly (workCells lists b.cells) s (s.realloc (s.addr b.off) size).2.1 := by
  have hcases := h.realloc_cases hb hstart hsize
  revert hcases
  generalize s.realloc (s.addr b.off) size = res
  rintro (⟨e, -⟩ | ⟨c, s₁, s₂, lists₁, -, hgrow, hmalloc, halloc, hfree⟩ | - | ⟨c, -, hoff, hlt⟩)
  · exact .refl s
  · have hmem := h.malloc_writes size
    rw [hmalloc] at hmem
    have hcopy := copyBytes_writes halloc.poolStart hgrow.le
    have hrest := moved_free_writes halloc hb hstart hgrow.le hfree
    refine ((hmem.mono fun n hn => workCells_mono hn).trans (hcopy.mono fun n hn => ?_)).trans
      (hrest.mono ?_)
    · exact workCells_mono (h.allocated_subset halloc (.inl hn))
    · rintro n (hn | hn)
      · exact .inl hn
      · exact workCells_mono (h.allocated_subset halloc (.inr hn))
  · exact .refl s
  · have hmarks : WritesOnly (workCells lists b.cells) s (cutMarks s c b) := .refl s
    refine hmarks.trans (((h.cutMarks_rep hb hoff hlt).toFree_writes (cut_in_hand hoff)
      (h.past_le (h.live_mem hb))).mono ?_)
    rintro n (⟨hn | hn, -⟩ | hn)
    · exact absurd hn (Set.notMem_empty n)
    · exact .inl hn
    · exact .inr hn

/-- Words of a block lie in its minimum blocks. -/
theorem word_mem_cells {w : ℕ} (hw : w < 2 ^ c.bits * 1024) :
    pageOf (c.off * 1024 + w) ∈ c.cells := by
  rw [Block.mem_cells, Block.past, pageOf]
  omega

/-- **The contents of a reallocated block**, as far as the old and the new block reach. -/
theorem realloc_keeps (h : RepInv s live lists unrel ∅ 0) (hb : b ∈ live)
    (hstart : s.poolStart ≠ 0) {size : ℕ} (hsize : size ≠ 0) :
    (∃ e, s.realloc (s.addr b.off) size = (e, s, none) ∧
      (e = .noMemory ∨ e = .noResources)) ∨
    ∃ (c : Block) (s' : VMsvga2Allocator),
      s.realloc (s.addr b.off) size = (.success, s', some (s.addr c.off)) ∧
      c.bits = blockBits size ∧
      ∀ w, w < 2 ^ b.bits * 1024 → w < 2 ^ c.bits * 1024 →
        s'.mem (c.off * 1024 + w) = s.mem (b.off * 1024 + w) := by
  have hcases := h.realloc_cases hb hstart hsize
  revert hcases
  generalize s.realloc (s.addr b.off) size = res
  rintro (⟨e, he⟩ | ⟨c, s₁, s₂, lists₁, hc, hgrow, hmalloc, halloc, hfree⟩ | hbits |
    ⟨c, hc, hoff, hlt⟩)
  · exact .inl ⟨e, rfl, he⟩
  · refine .inr ⟨c, s₂, rfl, hc, fun w hwb hwc => ?_⟩
    -- the old block is intact when it is copied, and the new one when the old one is freed
    have hold : s₁.mem (b.off * 1024 + w) = s.mem (b.off * 1024 + w) := by
      have hmem := h.malloc_writes size
      rw [hmalloc] at hmem
      exact hmem _ (h.live_not_workCells hb (word_mem_cells hwb))
    have hcb : c ≠ b := fun heq => halloc.fresh (heq ▸ hb)
    have hnew := moved_free_writes halloc hb hstart hgrow.le hfree (c.off * 1024 + w)
      (((copied halloc hgrow.le).takeLive (Set.mem_insert_of_mem c hb)).live_not_workCells
        (b := c) ⟨Set.mem_insert c live, hcb⟩ (word_mem_cells hwc))
    rw [hnew, copyBytes_mem halloc.poolStart, if_pos (by omega), ← hold]
    congr 1
    omega
  · exact .inr ⟨b, s, rfl, hbits, fun w _ _ => rfl⟩
  · refine .inr ⟨c, _, rfl, hc, fun w _ hwc => ?_⟩
    have hrep := h.cutMarks_rep hb hoff hlt
    rw [hrep.toFree_writes (cut_in_hand hoff) (h.past_le (h.live_mem hb)) _
      (hrep.live_not_workCells (Set.mem_insert c _) (word_mem_cells hwc)), hoff]
    rfl

/-! ### Releasing -/

/-- `Release` writes only into the range and into free blocks. -/
theorem release_writes (h : RepInv s live lists unrel ∅ 0) {first past : ℕ}
    (hrange : ∀ n, first / 2 ^ minBits ≤ n → n < past / 2 ^ minBits → n < s.poolBlocks →
      n ∈ unrel) :
    WritesOnly (workCells lists {n | first / 2 ^ minBits ≤ n ∧ n < past / 2 ^ minBits}) s
      (s.release first past).2 := by
  rcases h.release_cases hrange with ⟨heq, -⟩ | ⟨hpast, htake, heq⟩
  · rw [heq]
    exact .refl s
  · rw [heq]
    have hclear : WritesOnly
        (workCells lists {n | first / 2 ^ minBits ≤ n ∧ n < past / 2 ^ minBits}) s
        (s.clearAll (first / 2 ^ minBits) (past / 2 ^ minBits)) := .refl s
    refine hclear.trans ((htake.toFree_writes (fun n h₁ h₂ => .inr ⟨h₁, h₂⟩) hpast).mono ?_)
    rintro n ((hn | hn) | hn)
    · exact absurd hn (Set.notMem_empty n)
    · exact .inl hn
    · exact .inr hn

end RepInv

/-! ### Steps of a run -/

/-- The pointer that a call or a write is about. -/
def AllocAction.target : AllocAction → Option ℕ
  | .release _ _ => none
  | .malloc _ => none
  | .realloc ptr _ => some ptr
  | .free ptr => some ptr
  | .write ptr _ _ => some ptr

/-- The minimum blocks of the live block at a pointer. -/
def cellsAt (r : AllocRun) (ptr : ℕ) : Set ℕ :=
  {n | ∃ b ∈ liveBlocks r.alloc.poolStart r.live, ptr = r.alloc.addr b.off ∧ n ∈ b.cells}

/-- The minimum blocks that a step takes on: those of the block it is about, or the range that
it releases. -/
def AllocAction.taken (r : AllocRun) : AllocAction → Set ℕ
  | .release first past => {n | first / 2 ^ minBits ≤ n ∧ n < past / 2 ^ minBits}
  | .malloc _ => ∅
  | .realloc ptr _ => cellsAt r ptr
  | .free ptr => cellsAt r ptr
  | .write ptr _ _ => cellsAt r ptr

/-- A new block is at a new place. -/
theorem Allocated.off_ne {s s' : VMsvga2Allocator} {live : Set Block} {lists lists' : ℕ → List ℕ}
    {unrel : Set ℕ} {b c : Block} (h : Allocated s s' live lists lists' unrel b) (hc : c ∈ live) :
    c.off ≠ b.off := by
  intro hoff
  have heq := h.rep.tiling.disjoint c (.inl (.inr hc)) b (.inl (.inl rfl)) b.off
    (hoff ▸ c.off_mem) b.off_mem
  exact h.fresh (heq ▸ hc)

/-- Two minimum blocks do not lie at one address. -/
theorem addr_ne {s : VMsvga2Allocator} {o o' : ℕ} (h : o ≠ o') : s.addr o ≠ s.addr o' :=
  fun heq => h (addr_inj heq)

namespace AllocInv

variable {r t : AllocRun} {lists : ℕ → List ℕ}

/-- A block is at its pointer. -/
theorem cells_sub {b : Block} (hb : b ∈ liveBlocks r.alloc.poolStart r.live) :
    ∀ n ∈ workCells lists b.cells, n ∈ workCells lists (cellsAt r (r.alloc.addr b.off)) := by
  rintro n (hn | hn)
  · exact .inl ⟨b, hb, rfl, hn⟩
  · exact .inr hn

/-- `Free` writes only into free blocks and into the block at its pointer. -/
theorem free_writes (h : AllocInv r lists) {ptr : ℕ}
    (hptr : ptr = 0 ∨ (r.live ptr).isSome = true) :
    WritesOnly (workCells lists (cellsAt r ptr)) r.alloc (r.alloc.free ptr).2 := by
  rcases hptr with rfl | hsome
  · exact .refl _
  · obtain ⟨bytes, hbytes⟩ := Option.isSome_iff_exists.mp hsome
    obtain ⟨b, hb, rfl, -⟩ := h.exists_live hbytes
    exact (h.rep.free_writes hb h.poolStart_ne).mono (cells_sub hb)

/-- **Where a step writes**: into free blocks, and into the block it is about or the range that
it releases. -/
theorem step_writes (h : AllocInv r lists) {act : AllocAction}
    (hstep : allocStep r act = some t) :
    WritesOnly (workCells lists (act.taken r)) r.alloc t.alloc := by
  cases act with
  | release first past =>
      simp only [allocStep] at hstep
      split at hstep
      · rename_i hguard
        cases hstep
        exact h.rep.release_writes fun n h₁ h₂ hn => ⟨hn, hguard n hn h₁ h₂⟩
      · cases hstep
  | malloc bytes =>
      cases hstep
      exact h.rep.malloc_writes bytes
  | realloc ptr size =>
      simp only [allocStep] at hstep
      split at hstep
      · rename_i hptr
        cases hstep
        show WritesOnly _ r.alloc (r.alloc.realloc ptr size).2.1
        by_cases hsize : size = 0
        · have hre : (r.alloc.realloc ptr size).2.1 = (r.alloc.free ptr).2 := by
            rw [VMsvga2Allocator.realloc, if_pos hsize]
          rw [hre]
          exact h.free_writes hptr
        by_cases hzero : ptr = 0
        · rw [VMsvga2Allocator.realloc, if_neg hsize, if_pos hzero]
          exact (h.rep.malloc_writes size).mono fun n hn => RepInv.workCells_mono hn
        · obtain ⟨bytes, hbytes⟩ := Option.isSome_iff_exists.mp (hptr.resolve_left hzero)
          obtain ⟨b, hb, rfl, -⟩ := h.exists_live hbytes
          exact (h.rep.realloc_writes hb h.poolStart_ne hsize).mono (cells_sub hb)
      · cases hstep
  | free ptr =>
      simp only [allocStep] at hstep
      split at hstep
      · rename_i hptr
        cases hstep
        exact h.free_writes hptr
      · cases hstep
  | write ptr i v =>
      simp only [allocStep] at hstep
      split at hstep
      · rename_i bytes hbytes
        split at hstep
        · rename_i hi
          cases hstep
          obtain ⟨b, hb, rfl, hbits⟩ := h.exists_live hbytes
          intro j hj
          refine (setWord_apply _ _ _ _).trans (if_neg ?_)
          rintro rfl
          exact hj (.inl ⟨b, hb, rfl, word_mem_cells hbits hi⟩)
        · cases hstep
      · cases hstep

/-- A successful allocation makes no live pointer its own. -/
theorem update_live (h : AllocInv r lists) {a : VMsvga2Allocator} {live : ℕ → Option ℕ}
    {lists' : ℕ → List ℕ} {b : Block} {bytes : ℕ}
    (halloc : Allocated r.alloc a (liveBlocks r.alloc.poolStart live) lists lists'
      (unreleased r) b) {q m : ℕ} (hq : live q = some m) (hr : r.live q = some m) :
    Function.update live (r.alloc.addr b.off) (some bytes) q = some m := by
  obtain ⟨c, rfl, hbits⟩ := h.pointers q m hr
  rw [Function.update_of_ne (addr_ne (halloc.off_ne ⟨m, hq, hbits⟩)), hq]

/-- **What `Realloc` of a live pointer does to it**: nothing, or its contents are at the start of
a live block of the new size, as far as both blocks reach. -/
theorem realloc_step (h : AllocInv r lists) {ptr old size : ℕ} (hptr : r.live ptr = some old)
    (hsize : size ≠ 0) (hstep : allocStep r (.realloc ptr size) = some t) :
    (t.ret ≠ .success ∧ t.alloc = r.alloc ∧ t.live = r.live) ∨
    ∃ (b c : Block) (lists' : ℕ → List ℕ), t.ret = .success ∧ ptr = r.alloc.addr b.off ∧
      b ∈ liveBlocks r.alloc.poolStart r.live ∧
      (r.alloc.realloc ptr size).2.2 = some (r.alloc.addr c.off) ∧
      Allocated r.alloc t.alloc (liveBlocks r.alloc.poolStart (Function.update r.live ptr none))
        lists lists' (unreleased r) c ∧
      t.live = Function.update (Function.update r.live ptr none) (r.alloc.addr c.off)
        (some size) ∧
      b.bits = blockBits old ∧ c.bits = blockBits size ∧
      ∀ w, w < 2 ^ b.bits * 1024 → w < 2 ^ c.bits * 1024 →
        t.alloc.mem (c.off * 1024 + w) = r.alloc.mem (b.off * 1024 + w) := by
  have hsome : ptr = 0 ∨ (r.live ptr).isSome = true := .inr (by rw [hptr]; rfl)
  have hzero : ptr ≠ 0 := by
    rintro rfl
    rw [h.live_zero] at hptr
    cases hptr
  rw [allocStep, if_pos hsome] at hstep
  simp only [hsize, hzero, if_false, Option.some.injEq] at hstep
  obtain ⟨b, hb, rfl, hbits⟩ := h.exists_live hptr
  have hset : liveBlocks r.alloc.poolStart (Function.update r.live (r.alloc.addr b.off)
      none) = liveBlocks r.alloc.poolStart r.live \ {b} :=
    Set.ext (mem_liveBlocks_erase fun c hc => h.live_unique hb hc)
  rcases h.rep.realloc_spec hb h.poolStart_ne hsize with ⟨e, heq, he⟩ |
    ⟨c, a, lists', heq, hc, halloc⟩
  · left
    subst hstep
    simp only [heq]
    rcases he with rfl | rfl
    · exact ⟨by decide, trivial, rfl⟩
    · exact ⟨by decide, trivial, rfl⟩
  · right
    rcases h.rep.realloc_keeps hb h.poolStart_ne hsize with ⟨e, heq', -⟩ |
      ⟨c', a', heq', hc', hwords⟩
    · rw [heq] at heq'
      cases heq'
    · -- both speak of the same result
      rw [heq] at heq'
      simp only [Prod.mk.injEq, Option.some.injEq, true_and] at heq'
      obtain ⟨rfl, haddr⟩ := heq'
      obtain rfl : c = c' := Block.ext (hc.trans hc'.symm) (addr_inj haddr)
      subst hstep
      simp only [heq]
      exact ⟨b, c, lists', trivial, rfl, hb, rfl, hset ▸ halloc, rfl, hbits, hc, hwords⟩

/-- `Malloc` leaves all pointers live. -/
theorem malloc_live (h : AllocInv r lists) {bytes : ℕ}
    (hstep : allocStep r (.malloc bytes) = some t) :
    t.alloc.poolStart = r.alloc.poolStart ∧ ∀ q m, r.live q = some m → t.live q = some m := by
  simp only [allocStep] at hstep
  rcases h.rep.malloc_spec bytes with ⟨e, heq, he, -⟩ | ⟨b, a, lists', heq, -, halloc⟩
  · simp only [heq] at hstep
    cases hstep
    refine ⟨rfl, fun q m hq => ?_⟩
    rcases he with rfl | rfl
    · exact hq
    · exact hq
  · simp only [heq] at hstep
    cases hstep
    exact ⟨halloc.poolStart, fun q m hq => h.update_live halloc hq hq⟩

/-- Freeing one pointer leaves the others live. -/
theorem freedLive_of_ne {live : ℕ → Option ℕ} {ptr q m : ℕ} (hq : live q = some m)
    (hne : some ptr ≠ some q) : Function.update live ptr none q = some m := by
  have hqp : q ≠ ptr := fun heq => hne (congrArg some heq.symm)
  rw [Function.update_of_ne hqp, hq]

/-- A step leaves the pointers live that it is not about, and the pool where it is. -/
theorem step_live (h : AllocInv r lists) {act : AllocAction}
    (hstep : allocStep r act = some t) :
    t.alloc.poolStart = r.alloc.poolStart ∧
      ∀ q m, r.live q = some m → act.target ≠ some q → t.live q = some m := by
  cases act with
  | release first past =>
      simp only [allocStep] at hstep
      split at hstep
      · rename_i hguard
        cases hstep
        refine ⟨?_, fun q m hq _ => hq⟩
        rcases h.rep.release_spec fun n h₁ h₂ hn => ⟨hn, hguard n hn h₁ h₂⟩ with
          ⟨heq, -⟩ | ⟨a, lists', heq, -, -, hstart, -⟩
        · rw [heq]
        · rw [heq]
          exact hstart
      · cases hstep
  | malloc bytes =>
      obtain ⟨hstart, hlive⟩ := h.malloc_live hstep
      exact ⟨hstart, fun q m hq _ => hlive q m hq⟩
  | realloc ptr size =>
      have hptr : ptr = 0 ∨ (r.live ptr).isSome = true := by
        by_contra hnot
        simp only [allocStep, if_neg hnot] at hstep
        cases hstep
      by_cases hsize : size = 0
      · -- a reallocation to nothing frees
        subst hsize
        obtain ⟨a, lists', hfree, -, hstart, -⟩ := h.free_ptr hptr
        have hre : r.alloc.realloc ptr 0 = (.success, a, none) := by
          rw [VMsvga2Allocator.realloc, if_pos rfl, hfree]
        simp only [allocStep, if_pos hptr, hre, if_true] at hstep
        cases hstep
        exact ⟨hstart, fun q m hq hne => freedLive_of_ne hq hne⟩
      by_cases hzero : ptr = 0
      · -- a reallocation of nothing allocates
        subst hzero
        have hre : r.alloc.realloc 0 size = r.alloc.malloc size := by
          rw [VMsvga2Allocator.realloc, if_neg hsize, if_pos rfl]
        have hmalloc : allocStep r (.malloc size) = some t := by
          simp only [allocStep, hre, hsize, if_true, if_false] at hstep ⊢
          exact hstep
        obtain ⟨hstart, hlive⟩ := h.malloc_live hmalloc
        exact ⟨hstart, fun q m hq _ => hlive q m hq⟩
      · obtain ⟨old, hold⟩ := Option.isSome_iff_exists.mp (hptr.resolve_left hzero)
        rcases h.realloc_step hold hsize hstep with ⟨-, halloc, hlive⟩ |
          ⟨b, c, lists', -, -, -, -, halloc, hlive, -⟩
        · rw [halloc, hlive]
          exact ⟨rfl, fun q m hq _ => hq⟩
        · refine ⟨halloc.poolStart, fun q m hq hne => ?_⟩
          rw [hlive]
          exact h.update_live halloc (freedLive_of_ne hq hne) hq
  | free ptr =>
      simp only [allocStep] at hstep
      split at hstep
      · rename_i hptr
        obtain ⟨a, lists', hfree, -, hstart, -⟩ := h.free_ptr hptr
        simp only [hfree] at hstep
        cases hstep
        exact ⟨hstart, fun q m hq hne => freedLive_of_ne hq hne⟩
      · cases hstep
  | write ptr i v =>
      simp only [allocStep] at hstep
      split at hstep
      · split at hstep
        · cases hstep
          exact ⟨rfl, fun q m hq _ => hq⟩
        · cases hstep
      · cases hstep

end AllocInv

/-! ### Bytes -/

/-- The byte of the pool at an address. -/
def VMsvga2Allocator.byteAt (s : VMsvga2Allocator) (p : ℕ) : ℕ :=
  s.mem ((p - s.poolStart) / 4) / 256 ^ ((p - s.poolStart) % 4) % 256

/-- The size in bytes of the allocated block at an address. -/
def VMsvga2Allocator.blockBytes (s : VMsvga2Allocator) (p : ℕ) : ℕ :=
  match s.buddyAllocSize p with
  | .ok bits => 2 ^ (bits + minBits)
  | .error _ => 0

/-- Equal words of two blocks hold equal bytes. -/
theorem byteAt_eq {s s' : VMsvga2Allocator} (hstart : s'.poolStart = s.poolStart) {b c : Block}
    {k : ℕ} (hword : s'.mem (c.off * 1024 + k / 4) = s.mem (b.off * 1024 + k / 4)) :
    s'.byteAt (s.addr c.off + k) = s.byteAt (s.addr b.off + k) := by
  have haddr : ∀ o, s.addr o + k - s.poolStart = (o * 1024) * 4 + k := fun o => by
    rw [addr, minBits]
    omega
  have hdiv : ∀ o, ((o * 1024) * 4 + k) / 4 = o * 1024 + k / 4 := fun o => by omega
  have hmod : ∀ o, ((o * 1024) * 4 + k) % 4 = k % 4 := fun o => by omega
  rw [byteAt, byteAt, hstart, haddr, haddr, hdiv, hdiv, hmod, hmod, hword]

/-- The words of a block's bytes are words of the block. -/
theorem div_four_lt {bits k : ℕ} (hk : k < 2 ^ (bits + minBits)) : k / 4 < 2 ^ bits * 1024 := by
  rw [pow_add, show 2 ^ minBits = 1024 * 4 from rfl, ← Nat.mul_assoc] at hk
  exact Nat.div_lt_of_lt_mul (by omega)

namespace AllocInv

variable {r t : AllocRun} {lists : ℕ → List ℕ}

/-- The size of the block at a live pointer. -/
theorem blockBytes_eq (h : AllocInv r lists) {q m : ℕ} (hq : r.live q = some m) :
    r.alloc.blockBytes q = 2 ^ (blockBits m + minBits) := by
  obtain ⟨b, hb, rfl, hbits⟩ := h.exists_live hq
  rw [blockBytes, h.rep.buddyAllocSize_live hb, hbits]

/-- **The other live blocks keep their contents.** -/
theorem step_keeps (h : AllocInv r lists) {act : AllocAction} (hstep : allocStep r act = some t)
    {q m : ℕ} (hq : r.live q = some m) (hne : act.target ≠ some q) {k : ℕ}
    (hk : k < r.alloc.blockBytes q) : t.alloc.byteAt (q + k) = r.alloc.byteAt (q + k) := by
  rw [h.blockBytes_eq hq] at hk
  obtain ⟨b, hb, rfl, hbits⟩ := h.exists_live hq
  rw [← hbits] at hk
  have hword := RepInv.word_mem_cells (div_four_lt hk)
  refine byteAt_eq (h.step_live hstep).1 (h.step_writes hstep _ ?_)
  rintro (htaken | ⟨c, hc, hn⟩)
  · -- what the step takes on is in another block, or was never released
    have hother : ∀ ptr, some ptr ≠ some (r.alloc.addr b.off) →
        pageOf (b.off * 1024 + k / 4) ∉ cellsAt r ptr := by
      rintro ptr hptr ⟨c, hc, rfl, hn⟩
      have heq := h.rep.tiling.disjoint b (.inl hb) c (.inl hc) _ hword hn
      exact hptr (heq ▸ rfl)
    cases act with
    | release first past =>
        simp only [allocStep] at hstep
        split at hstep
        · rename_i hguard
          have hlt := lt_of_lt_of_le hword.2 (h.rep.past_le (.inl hb))
          exact h.rep.tiling.avoid b (.inl hb) _ hword
            (.inl ⟨hlt, hguard _ hlt htaken.1 htaken.2⟩)
        · cases hstep
    | malloc bytes => exact htaken
    | realloc ptr size => exact hother ptr hne htaken
    | free ptr => exact hother ptr hne htaken
    | write ptr i v => exact hother ptr hne htaken
  · exact h.rep.live_not_free hb hc hword hn

end AllocInv

/-! ### Along runs -/

/-- **Reallocation preserves contents**, and calls leave the other live blocks alone: in every
state that is reached from `Init`,

* a `Realloc` of a live pointer to `size ≠ 0` bytes that succeeds returns a live pointer to a
  block of at least `size` bytes, which starts with the bytes of the old block;
* one that fails leaves the pointer live and its block as it is;
* every step leaves every live pointer live that it is not about, with the bytes of its block;
* a step writes only into free blocks, and into the block it is about or the range that it
  releases. -/
theorem realloc_preserves_contents {z a : VMsvga2Allocator} {startAddress bytes : ℕ}
    {mapAllocated : Bool} {mem : ℕ → ℕ} (hstart : startAddress ≠ 0)
    (hinit : z.init startAddress bytes mapAllocated mem = (.success, a))
    {as : List AllocAction} {t : AllocRun} (hrun : Run allocStep Always (allocStart a) as t) :
    (∀ p old size u, t.live p = some old → size ≠ 0 →
      allocStep t (.realloc p size) = some u →
      (u.ret = .success → ∃ q, (t.alloc.realloc p size).2.2 = some q ∧ u.live q = some size ∧
        size ≤ u.alloc.blockBytes q ∧
        ∀ k < min (t.alloc.blockBytes p) size,
          u.alloc.byteAt (q + k) = t.alloc.byteAt (p + k)) ∧
      (u.ret ≠ .success → u.live p = some old ∧ u.alloc.blockBytes p = t.alloc.blockBytes p ∧
        ∀ k < t.alloc.blockBytes p, u.alloc.byteAt (p + k) = t.alloc.byteAt (p + k))) ∧
    (∀ act u, allocStep t act = some u → ∀ q m, t.live q = some m → act.target ≠ some q →
      u.live q = some m ∧ u.alloc.blockBytes q = t.alloc.blockBytes q ∧
        ∀ k < t.alloc.blockBytes q, u.alloc.byteAt (q + k) = t.alloc.byteAt (q + k)) ∧
    ∃ lists, BuddyInvariant t lists ∧ ∀ act u, allocStep t act = some u →
      WritesOnly (workCells lists (act.taken t)) t.alloc u.alloc := by
  have hinv : ∃ lists, AllocInv t lists := by
    refine hrun.invariant (I := fun t => ∃ lists, AllocInv t lists) ?_
      ⟨_, AllocInv.start hstart hinit⟩
    rintro r act u ⟨lists, h⟩ - hstep
    obtain ⟨lists', h', -⟩ := h.step hstep
    exact ⟨lists', h'⟩
  obtain ⟨lists, h⟩ := hinv
  have hsame : ∀ {act u q m}, allocStep t act = some u → t.live q = some m →
      u.live q = some m → u.alloc.blockBytes q = t.alloc.blockBytes q := by
    intro act u q m hstep hq hq'
    obtain ⟨lists', h', -⟩ := h.step hstep
    rw [h.blockBytes_eq hq, h'.blockBytes_eq hq']
  refine ⟨fun p old size u hp hsize hstep => ?_, fun act u hstep q m hq hne => ?_, lists,
    h.buddyInvariant, fun act u hstep => h.step_writes hstep⟩
  · rcases h.realloc_step hp hsize hstep with ⟨hret, halloc, hlive⟩ |
      ⟨b, c, lists', hret, rfl, hb, hres, halloc, hlive, hbits, hc, hwords⟩
    · refine ⟨fun hok => absurd hok hret, fun _ => ⟨hlive ▸ hp, ?_, fun k _ => ?_⟩⟩
      · rw [halloc]
      · rw [halloc]
    · refine ⟨fun _ => ?_, fun hfail => absurd hret hfail⟩
      have hnew : u.live (t.alloc.addr c.off) = some size := by
        rw [hlive, Function.update_self]
      obtain ⟨lists₁, h', -⟩ := h.step hstep
      have hfits : size ≤ 2 ^ (blockBits size + minBits) := by
        rw [Nat.add_comm]
        exact blockBits_le_iff.mp le_rfl
      refine ⟨_, hres, hnew, (h'.blockBytes_eq hnew) ▸ hfits, fun k hk => ?_⟩
      rw [h.blockBytes_eq hp, ← hbits] at hk
      refine byteAt_eq halloc.poolStart (hwords _ (div_four_lt (lt_of_lt_of_le hk
        (Nat.min_le_left _ _))) (div_four_lt ?_))
      rw [hc]
      exact lt_of_lt_of_le hk ((Nat.min_le_right _ _).trans hfits)
  · have hq' := (h.step_live hstep).2 q m hq hne
    exact ⟨hq', hsame hstep hq hq', fun k hk => h.step_keeps hstep hq hne hk⟩

/-- A block of one page grows to two pages, in a pool of four, and moves. -/
theorem realloc_preserves_contents_grown :
    ∃ t u, Run allocStep Always
        (allocStart (freshAllocator.init 0x100000 0x4000 true fun i => i).2)
        [.release 0 0x4000, .malloc 0x1000] t ∧
      allocStep t (.realloc 0x100000 0x2000) = some u ∧
      ∃ q, u.live q = some 0x2000 ∧ 0x2000 ≤ u.alloc.blockBytes q ∧
        ∀ k < 0x1000, u.alloc.byteAt (q + k) = t.alloc.byteAt (0x100000 + k) := by
  have hguard : ∀ n < 4, 0 / 2 ^ minBits ≤ n → n < 0x4000 / 2 ^ minBits →
      (fun _ : ℕ => false) n = false := fun _ _ _ _ => rfl
  obtain ⟨t, hrun, hlive, hret, hbytes⟩ : ∃ t, Run allocStep Always
      (allocStart (freshAllocator.init 0x100000 0x4000 true fun i => i).2)
      [.release 0 0x4000, .malloc 0x1000] t ∧ t.live 0x100000 = some 0x1000 ∧
      (t.alloc.realloc 0x100000 0x2000).1 = .success ∧
      t.alloc.blockBytes 0x100000 = 0x1000 := by
    refine ⟨_, Run.cons trivial (if_pos (e := none) hguard) (Run.single trivial rfl), ?_, ?_, ?_⟩
    · decide +kernel
    · decide +kernel
    · decide +kernel
  have hinit : freshAllocator.init 0x100000 0x4000 true (fun i => i) = (.success, _) := rfl
  have hstep : allocStep t (.realloc 0x100000 0x2000) = some _ :=
    if_pos (.inr (by rw [hlive]; rfl))
  have hkeeps := ((realloc_preserves_contents (by decide) hinit hrun).1 0x100000 0x1000 0x2000 _
    hlive (by decide) hstep).1 hret
  obtain ⟨q, -, hq, hsize, hcontents⟩ := hkeeps
  refine ⟨t, _, hrun, hstep, q, hq, hsize, fun k hk => hcontents k ?_⟩
  rw [hbytes]
  exact lt_min hk (by omega)

end DockerMacos
