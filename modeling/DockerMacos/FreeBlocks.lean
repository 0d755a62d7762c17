import Mathlib.Data.Set.Card
import DockerMacos.AllocatorCheck
import DockerMacos.AllocatorContents

/-!
# The Free Blocks

The free blocks of the allocator cover exactly the minimum blocks that were released and
lie in no live block. So `freeBytes` is known from the clients' side, and where the free
blocks are coalesced they depend on nothing but the live blocks: the allocator keeps no
trace of the calls that led there.

## From cells to blocks

`entirelyFree` is a set of minimum blocks, defined from the ranges that the clients have
released and the blocks that they hold; `freeCells` is what the free lists cover. The two are
the same in every reachable state, and the number of bytes follows by counting. Coalesced
blocks are determined by the cells that they cover, so the second result follows from the first.

## What is not determined

The order of a free list does depend on the calls, and so does the block that `Malloc` takes.
Its return code does not.

## Main results

* `available_reachable`: what `Available` reports in every state of every run.
* `freeBlocks_history`: two runs that end with the same live blocks end with the same free
  blocks.
-/

namespace DockerMacos

open VMsvga2Allocator

/-! ### The cells of the free blocks -/

/-- The minimum blocks that were released and lie in no live block. -/
def entirelyFree (r : AllocRun) : Set ℕ := {n | n < r.alloc.poolBlocks ∧ EntirelyFree r n}

/-- The cells of the blocks on the free lists. -/
def freeCells (lists : ℕ → List ℕ) : Finset ℕ :=
  (Finset.range numSizes).biUnion fun k =>
    (lists k).toFinset.biUnion fun o => Finset.Ico o (o + 2 ^ k)

/-- A cell of a free block. -/
theorem mem_freeCells {lists : ℕ → List ℕ} {n : ℕ} :
    n ∈ freeCells lists ↔ ∃ k < numSizes, ∃ o ∈ lists k, o ≤ n ∧ n < o + 2 ^ k := by
  simp [freeCells]

variable {s : VMsvga2Allocator} {live : Set Block} {lists : ℕ → List ℕ} {unrel : Set ℕ}

namespace RepInv

/-- The cells of the lists are those of the free blocks. -/
theorem mem_freeCells_iff {hand : Set ℕ} {credit : ℕ}
    (h : RepInv s live lists unrel hand credit) (n : ℕ) :
    n ∈ freeCells lists ↔ ∃ b ∈ freeSet lists, n ∈ b.cells := by
  rw [mem_freeCells]
  constructor
  · rintro ⟨k, hk, o, ho, h₁, h₂⟩
    obtain ⟨b, hb, rfl, rfl⟩ := h.exists_block hk ho
    exact ⟨b, hb, h₁, h₂⟩
  · rintro ⟨b, hb, hn⟩
    exact ⟨b.bits, hb.1, b.off, hb.2, hn.1, hn.2⟩

/-- The bytes on the lists are those of their cells. -/
theorem listBytes_eq_card {hand : Set ℕ} {credit : ℕ}
    (h : RepInv s live lists unrel hand credit) :
    listBytes lists = 2 ^ minBits * (freeCells lists).card := by
  have hinner : ∀ k ∈ Finset.range numSizes,
      ((lists k).toFinset.biUnion fun o => Finset.Ico o (o + 2 ^ k)).card =
        (lists k).length * 2 ^ k := by
    intro k hk
    have hk := Finset.mem_range.mp hk
    rw [Finset.card_biUnion]
    · rw [Finset.sum_const_nat fun o _ => by rw [Nat.card_Ico, Nat.add_sub_cancel_left],
        List.toFinset_card_of_nodup (h.nodup k hk)]
    · intro o ho o' ho' hne
      refine Finset.disjoint_left.mpr fun n hn hn' => hne ?_
      obtain ⟨b, hb, rfl, rfl⟩ := h.exists_block hk (List.mem_toFinset.mp ho)
      obtain ⟨c, hc, hbits, rfl⟩ := h.exists_block hk (List.mem_toFinset.mp ho')
      rw [Finset.mem_Ico] at hn hn'
      exact congrArg Block.off (h.free_unique hb hc hn (by rw [Block.mem_cells, Block.past, hbits]
                                                           exact hn'))
  rw [freeCells, Finset.card_biUnion, Finset.sum_congr rfl hinner, listBytes, Finset.mul_sum]
  · refine Finset.sum_congr rfl fun k _ => ?_
    rw [pow_add]
    ring
  · intro k hk k' hk' hne
    refine Finset.disjoint_left.mpr fun n hn hn' => hne ?_
    obtain ⟨o, ho, hno⟩ := Finset.mem_biUnion.mp hn
    obtain ⟨o', ho', hno'⟩ := Finset.mem_biUnion.mp hn'
    obtain ⟨b, hb, rfl, rfl⟩ := h.exists_block (Finset.mem_range.mp hk) (List.mem_toFinset.mp ho)
    obtain ⟨c, hc, rfl, rfl⟩ := h.exists_block (Finset.mem_range.mp hk') (List.mem_toFinset.mp ho')
    exact congrArg Block.bits (h.free_unique hb hc (Finset.mem_Ico.mp hno)
      (Finset.mem_Ico.mp hno'))

end RepInv

namespace AllocInv

variable {r t : AllocRun}

/-- The free blocks cover what was released and lies in no live block. -/
theorem free_cells (h : AllocInv r lists) (n : ℕ) :
    (∃ b ∈ freeSet lists, n ∈ b.cells) ↔ n ∈ entirelyFree r := by
  constructor
  · rintro ⟨b, hb, hn⟩
    have hlt : n < r.alloc.poolBlocks := lt_of_lt_of_le hn.2 (h.rep.past_le (h.rep.free_mem hb))
    refine ⟨hlt, ?_, fun c hc hnc => h.rep.live_not_free hc hb hnc hn⟩
    by_contra hrel
    exact h.rep.tiling.avoid b (h.rep.free_mem hb) n hn (.inl ⟨hlt, by simpa using hrel⟩)
  · rintro ⟨hlt, hrel, hlive⟩
    rcases h.rep.tiling.cover n hlt with (hu | hh) | ⟨c, hc | hc, hnc⟩
    · exact absurd (hu.2.symm.trans hrel) Bool.false_ne_true
    · exact absurd hh (Set.notMem_empty n)
    · exact absurd hnc (hlive c hc)
    · exact ⟨c, hc, hnc⟩

/-- `freeBytes` counts the minimum blocks that are free for the clients. -/
theorem freeBytes_eq (h : AllocInv r lists) :
    r.alloc.freeBytes = 2 ^ minBits * (entirelyFree r).ncard := by
  have hset : entirelyFree r = ((freeCells lists : Finset ℕ) : Set ℕ) := by
    ext n
    rw [← h.free_cells n, Finset.mem_coe, h.rep.mem_freeCells_iff]
  rw [h.rep.freeBytes_eq, h.rep.listBytes_eq_card, hset, Set.ncard_coe_finset]

/-! ### What calls leave as it is -/

/-- A call of `Malloc` changes neither the pool nor what was released. -/
theorem malloc_pool (h : AllocInv r lists) {bytes : ℕ}
    (hstep : allocStep r (.malloc bytes) = some t) :
    t.alloc.poolBlocks = r.alloc.poolBlocks ∧ t.released = r.released := by
  simp only [allocStep] at hstep
  rcases h.rep.malloc_spec bytes with ⟨e, heq, -⟩ | ⟨b, a, lists', heq, -, halloc⟩
  · simp only [heq] at hstep
    cases hstep
    exact ⟨rfl, rfl⟩
  · simp only [heq] at hstep
    cases hstep
    exact ⟨halloc.poolBlocks, rfl⟩

/-- Apart from `Release`, no step changes the pool or what was released. -/
theorem step_pool (h : AllocInv r lists) {act : AllocAction} (hact : NoRelease r act)
    (hstep : allocStep r act = some t) :
    t.alloc.poolBlocks = r.alloc.poolBlocks ∧ t.released = r.released := by
  cases act with
  | release first past => exact absurd rfl (hact first past)
  | malloc bytes => exact h.malloc_pool hstep
  | realloc ptr size =>
      have hptr : ptr = 0 ∨ (r.live ptr).isSome = true := by
        by_contra hnot
        simp only [allocStep, if_neg hnot] at hstep
        cases hstep
      by_cases hsize : size = 0
      · -- a reallocation to nothing frees
        subst hsize
        obtain ⟨a, lists', hfree, -, -, hpool, -⟩ := h.free_ptr hptr
        have hre : r.alloc.realloc ptr 0 = (.success, a, none) := by
          rw [VMsvga2Allocator.realloc, if_pos rfl, hfree]
        simp only [allocStep, if_pos hptr, hre, if_true] at hstep
        cases hstep
        exact ⟨hpool, rfl⟩
      by_cases hzero : ptr = 0
      · -- a reallocation of nothing allocates
        subst hzero
        have hre : r.alloc.realloc 0 size = r.alloc.malloc size := by
          rw [VMsvga2Allocator.realloc, if_neg hsize, if_pos rfl]
        have hmalloc : allocStep r (.malloc size) = some t := by
          simp only [allocStep, hre, hsize, if_true, if_false] at hstep ⊢
          exact hstep
        exact h.malloc_pool hmalloc
      · obtain ⟨old, hold⟩ := Option.isSome_iff_exists.mp (hptr.resolve_left hzero)
        obtain ⟨b, hb, rfl, -⟩ := h.exists_live hold
        simp only [allocStep, if_pos hptr, hsize, if_false] at hstep
        rcases h.rep.realloc_spec hb h.poolStart_ne hsize with ⟨e, heq, -⟩ |
          ⟨c, a, lists', heq, -, halloc⟩
        · simp only [heq] at hstep
          cases hstep
          exact ⟨rfl, rfl⟩
        · simp only [heq] at hstep
          cases hstep
          exact ⟨halloc.poolBlocks, rfl⟩
  | free ptr =>
      simp only [allocStep] at hstep
      split at hstep
      · rename_i hptr
        obtain ⟨a, lists', hfree, -, -, hpool, -⟩ := h.free_ptr hptr
        simp only [hfree] at hstep
        cases hstep
        exact ⟨hpool, rfl⟩
      · cases hstep
  | write ptr i v =>
      simp only [allocStep] at hstep
      split at hstep
      · split at hstep
        · cases hstep
          exact ⟨rfl, rfl⟩
        · cases hstep
      · cases hstep

/-- After the set-up a run keeps the invariant, the coalescing, the pool and what was
released. -/
theorem after_setup (h : AllocInv r lists) (hco : Coalesced (numSizes - 1) (freeSet lists))
    {as : List AllocAction} (hrun : Run allocStep NoRelease r as t) :
    ∃ lists', AllocInv t lists' ∧ Coalesced (numSizes - 1) (freeSet lists') ∧
      t.alloc.poolBlocks = r.alloc.poolBlocks ∧ t.alloc.poolStart = r.alloc.poolStart ∧
      t.released = r.released := by
  refine hrun.invariant (I := fun t => ∃ lists', AllocInv t lists' ∧
    Coalesced (numSizes - 1) (freeSet lists') ∧ t.alloc.poolBlocks = r.alloc.poolBlocks ∧
    t.alloc.poolStart = r.alloc.poolStart ∧ t.released = r.released) ?_
    ⟨lists, h, hco, rfl, rfl, rfl⟩
  rintro u act v ⟨lists₁, h₁, hco₁, hpool, hstart, hrel⟩ hact hstep
  obtain ⟨lists₂, h₂, hco₂⟩ := h₁.step hstep
  obtain ⟨hpool', hrel'⟩ := h₁.step_pool hact hstep
  exact ⟨lists₂, h₂, hco₂ hact hco₁, hpool'.trans hpool, (h₁.step_live hstep).1.trans hstart,
    hrel'.trans hrel⟩

/-- Coalesced free blocks are determined by the cells that are free. -/
theorem freeSet_eq {u : AllocRun} {lists' : ℕ → List ℕ} (h : AllocInv r lists)
    (hco : Coalesced (numSizes - 1) (freeSet lists)) (h' : AllocInv u lists')
    (hco' : Coalesced (numSizes - 1) (freeSet lists')) (hfree : entirelyFree r = entirelyFree u)
    (b : Block) : b ∈ freeSet lists ↔ b ∈ freeSet lists' := by
  have hcells : ∀ n, (∃ b ∈ freeSet lists, n ∈ b.cells) ↔ ∃ b ∈ freeSet lists', n ∈ b.cells :=
    fun n => by rw [h.free_cells, h'.free_cells, hfree]
  have hbits : ∀ {l : ℕ → List ℕ}, ∀ b ∈ freeSet l, b.bits ≤ numSizes - 1 :=
    fun b hb => Nat.le_sub_one_of_lt hb.1
  constructor
  · exact hco.subset_of_cells hco' hbits hbits
      (fun b hb c hc n => h.rep.free_unique hb hc) hcells
  · exact hco'.subset_of_cells hco hbits hbits
      (fun b hb c hc n => h'.rep.free_unique hb hc) fun n => (hcells n).symm

/-- `Malloc` succeeds on free blocks whenever it succeeds on the same free blocks elsewhere. -/
theorem buddyMalloc_of_free {u : AllocRun} {lists' : ℕ → List ℕ} (h : AllocInv r lists)
    (h' : AllocInv u lists') (hfree : ∀ b ∈ freeSet lists, b ∈ freeSet lists') {bits : ℕ}
    (hok : (r.alloc.buddyMalloc bits).1 = .success) : (u.alloc.buddyMalloc bits).1 = .success := by
  rcases h.rep.buddyMalloc_spec bits with ⟨heq, -⟩ | ⟨b, a, l, -, rfl, -, -, -, ⟨c, hc, hsub⟩, -⟩
  · rw [heq] at hok
    cases hok
  rcases h'.rep.buddyMalloc_spec b.bits with ⟨-, hempty⟩ | ⟨b', a', l', heq', -⟩
  · -- the block that was taken from is on a list here too
    have hbits : b.bits ≤ c.bits :=
      Block.bits_le_of_subset (hsub b.off b.off_mem).1 (by
        have hlast : b.past - 1 < c.past := (hsub b.last b.last_mem).2
        have := b.off_lt_past
        omega)
    have hmem := (hfree c hc).2
    rw [hempty c.bits hbits hc.1] at hmem
    exact absurd hmem List.not_mem_nil
  · rw [heq']

/-- The code of `Malloc` depends on the free blocks only. -/
theorem malloc_code {u : AllocRun} {lists' : ℕ → List ℕ} (h : AllocInv r lists)
    (h' : AllocInv u lists') (hfree : ∀ b, b ∈ freeSet lists ↔ b ∈ freeSet lists') (bytes : ℕ) :
    (r.alloc.malloc bytes).1 = (u.alloc.malloc bytes).1 := by
  rw [VMsvga2Allocator.malloc, VMsvga2Allocator.malloc]
  cases mallocBits bytes numSizes 0 with
  | none => rfl
  | some bits =>
      have hcode : ∀ {v : AllocRun} {l : ℕ → List ℕ}, AllocInv v l →
          (v.alloc.buddyMalloc bits).1 = .success ∨ (v.alloc.buddyMalloc bits).1 = .noMemory := by
        intro v l hv
        rcases hv.rep.buddyMalloc_spec bits with ⟨heq, -⟩ | ⟨b, a, l', heq, -⟩
        · exact .inr (by rw [heq])
        · exact .inl (by rw [heq])
      show (r.alloc.buddyMalloc bits).1 = (u.alloc.buddyMalloc bits).1
      rcases hcode h with hr | hr <;> rcases hcode h' with hu | hu
      · rw [hr, hu]
      · exact absurd (h.buddyMalloc_of_free h' (fun b hb => (hfree b).mp hb) hr) (by simp [hu])
      · exact absurd (h'.buddyMalloc_of_free h (fun b hb => (hfree b).mpr hb) hu) (by simp [hr])
      · rw [hr, hu]

end AllocInv

/-! ### Runs -/

/-- **What `Available` reports**, in every state of every run: the bytes of the minimum blocks
that were released and lie in no live block. -/
theorem available_reachable {z a : VMsvga2Allocator} {startAddress bytes : ℕ}
    {mapAllocated : Bool} {mem : ℕ → ℕ} (hstart : startAddress ≠ 0)
    (hinit : z.init startAddress bytes mapAllocated mem = (.success, a))
    {as : List AllocAction} {t : AllocRun} (hrun : Run allocStep Always (allocStart a) as t) :
    t.alloc.available = 2 ^ minBits * (entirelyFree t).ncard := by
  obtain ⟨lists, h⟩ := AllocInv.reachable hstart hinit hrun
  exact h.freeBytes_eq

/-- What is available after a page has been allocated from a pool of two. -/
theorem available_reachable_two_pages :
    ∃ t, Run allocStep Always
        (allocStart (freshAllocator.init 0x100000 0x2000 true fun _ => 0).2)
        [.release 0 0x2000, .malloc 0x1000] t ∧
      t.alloc.available = 2 ^ minBits * (entirelyFree t).ncard := by
  have hguard : ∀ n < 2, 0 / 2 ^ minBits ≤ n → n < 0x2000 / 2 ^ minBits →
      (fun _ : ℕ => false) n = false := fun _ _ _ _ => rfl
  have hrun : ∃ t, Run allocStep Always
      (allocStart (freshAllocator.init 0x100000 0x2000 true fun _ => 0).2)
      [.release 0 0x2000, .malloc 0x1000] t :=
    ⟨_, Run.cons trivial (if_pos (e := none) hguard) (Run.single trivial rfl)⟩
  obtain ⟨t, hrun⟩ := hrun
  have hinit : freshAllocator.init 0x100000 0x2000 true (fun _ => 0) = (.success, _) := rfl
  exact ⟨t, hrun, available_reachable (by decide) hinit hrun⟩

/-- **No trace of the history.** Two runs of calls and writes after the set-up that end with
the same live blocks end with the same free blocks. So the same bytes are available, and
`Malloc` answers every request with the same return code; the block that it takes depends on
the order in the free lists. -/
theorem freeBlocks_history {z a : VMsvga2Allocator} {e : VramSetup}
    (hsetup : setupAllocator z e = (.success, a)) {as bs : List AllocAction} {t u : AllocRun}
    (ht : Run allocStep NoRelease (setupStart e a) as t)
    (hu : Run allocStep NoRelease (setupStart e a) bs u)
    (hlive : liveBlocks t.alloc.poolStart t.live = liveBlocks u.alloc.poolStart u.live) :
    ∃ lists lists', BuddyInvariant t lists ∧ BuddyInvariant u lists' ∧
      freeSet lists = freeSet lists' ∧ t.alloc.available = u.alloc.available ∧
      ∀ bytes, (t.alloc.malloc bytes).1 = (u.alloc.malloc bytes).1 := by
  obtain ⟨lists₀, h₀, hco₀⟩ := setupAllocator_inv hsetup
  obtain ⟨lists, h, hco, hpool, -, hrel⟩ := h₀.after_setup hco₀ ht
  obtain ⟨lists', h', hco', hpool', -, hrel'⟩ := h₀.after_setup hco₀ hu
  have hfree : entirelyFree t = entirelyFree u := by
    simp only [entirelyFree, EntirelyFree, hpool, hpool', hrel, hrel', hlive]
  have hset := h.freeSet_eq hco h' hco' hfree
  refine ⟨lists, lists', h.buddyInvariant, h'.buddyInvariant, Set.ext hset, ?_,
    h.malloc_code h' hset⟩
  rw [available, available, h.freeBytes_eq, h'.freeBytes_eq, hfree]

/-- The state after a successful `Malloc`. -/
def AllocRun.afterMalloc (r : AllocRun) (bytes p : ℕ) : AllocRun :=
  { r with
    alloc := (r.alloc.malloc bytes).2.1
    live := Function.update r.live p (some bytes)
    ret := .success }

/-- The state after a successful `Free`. -/
def AllocRun.afterFree (r : AllocRun) (p : ℕ) : AllocRun :=
  { r with
    alloc := (r.alloc.free p).2
    live := Function.update r.live p none
    ret := .success }

/-- `Malloc` that succeeds is a step of a run. -/
theorem allocStep_malloc {r : AllocRun} {bytes p : ℕ} (hcode : (r.alloc.malloc bytes).1 = .success)
    (hptr : (r.alloc.malloc bytes).2.2 = some p) :
    allocStep r (.malloc bytes) = some (r.afterMalloc bytes p) := by
  simp only [allocStep, AllocRun.afterMalloc]
  rw [hcode, hptr]
  rfl

/-- So is `Free` of a live pointer that succeeds. -/
theorem allocStep_free {r : AllocRun} {p : ℕ} (hlive : (r.live p).isSome = true)
    (hcode : (r.alloc.free p).1 = .success) :
    allocStep r (.free p) = some (r.afterFree p) := by
  simp only [allocStep, AllocRun.afterFree]
  rw [if_pos (.inr hlive), hcode]
  rfl

/-- The start of a run on two pages. -/
def twoPagesStart : AllocRun := setupStart twoPages (setupAllocator freshAllocator twoPages).2

/-- A page that is allocated and freed again leaves the free blocks of the set-up. -/
theorem freeBlocks_history_two_pages :
    ∃ t lists lists', Run allocStep NoRelease twoPagesStart [.malloc 0x1000, .free 0x100000] t ∧
      BuddyInvariant t lists ∧ BuddyInvariant twoPagesStart lists' ∧
      freeSet lists = freeSet lists' ∧ t.alloc.available = twoPagesStart.alloc.available ∧
      ∀ bytes, (t.alloc.malloc bytes).1 = (twoPagesStart.alloc.malloc bytes).1 := by
  have hcode : (setupAllocator freshAllocator twoPages).1 = .success := by decide +kernel
  have hsetup : setupAllocator freshAllocator twoPages =
      (.success, (setupAllocator freshAllocator twoPages).2) := by
    rw [← hcode]
  have hmalloc : allocStep twoPagesStart (.malloc 0x1000) =
      some (twoPagesStart.afterMalloc 0x1000 0x100000) :=
    allocStep_malloc (by decide +kernel) (by decide +kernel)
  have hfree : allocStep (twoPagesStart.afterMalloc 0x1000 0x100000) (.free 0x100000) =
      some ((twoPagesStart.afterMalloc 0x1000 0x100000).afterFree 0x100000) :=
    allocStep_free (by decide +kernel) (by decide +kernel)
  have hrun := Run.cons (C := NoRelease) (fun _ _ h => by cases h) hmalloc
    (Run.single (fun _ _ h => by cases h) hfree)
  have hlive : ((twoPagesStart.afterMalloc 0x1000 0x100000).afterFree 0x100000).live =
      twoPagesStart.live := by
    show Function.update (Function.update (fun _ => none) 0x100000 (some 0x1000)) 0x100000
      none = _
    rw [Function.update_idem]
    exact Function.update_eq_self 0x100000 fun _ => none
  have hstart : ((twoPagesStart.afterMalloc 0x1000 0x100000).afterFree 0x100000).alloc.poolStart =
      twoPagesStart.alloc.poolStart := by decide +kernel
  obtain ⟨lists, lists', h⟩ := freeBlocks_history hsetup hrun (Run.nil _)
    (by rw [hlive, hstart]; rfl)
  exact ⟨_, lists, lists', hrun, h⟩

end DockerMacos
