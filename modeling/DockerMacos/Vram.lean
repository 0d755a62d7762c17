import DockerMacos.AllocatorRun

/-!
# The VRAM of the Accelerator

`setupAllocator` (`AC/VMsvga2Accel.cpp`) maps VRAM, gives it to the allocator and releases
it in one or two parts: the part above the largest traceable framebuffer, and the part
below it only where the device has a front buffer of its own.

## After the set-up

The allocator is initialised with nothing released. The part above the reserve is released first,
and then the reserve, if at all; afterwards no two buddies are both free. From then on the
driver calls `Malloc`, `Realloc` and `Free` only, so what was not released at the set-up never
is (`NoRelease`).

## The calls of the driver

`VRAMMalloc`, `VRAMRealloc` and `VRAMFree` pass the calls on, and turn an error into a null
pointer. A `VRAMRealloc` that fails returns null as well, and the block is then still live.

## Main results

* `setupAllocator_inv`: after the set-up the free blocks are coalesced.
* `malloc_complete`: from then on `Malloc` fails only when no aligned run of free minimum
  blocks of the rounded size is left.
-/

namespace DockerMacos

open VMsvga2Allocator

/-- `SVGA_FB_MAX_TRACEABLE_SIZE`: 16 MiB. -/
def svgaFbMaxTraceableSize : ℕ := 0x1000000

/-- What `setupAllocator` finds. -/
structure VramSetup where
  /-- `m_vram->getLength()`. -/
  vramLength : ℕ
  /-- `m_svga->getVRAMSize()`. -/
  vramSize : ℕ
  /-- Where `createMappingInTask` maps VRAM in the kernel, if it does. -/
  kernelMap : Option ℕ
  /-- `HaveFrontBuffer()`. -/
  haveFrontBuffer : Bool
  /-- Whether `Init` gets memory for its bit map. -/
  mapAllocated : Bool
  /-- The contents of VRAM. -/
  mem : ℕ → ℕ

/-- The bytes of VRAM, in whole pages. -/
def VramSetup.bytes (e : VramSetup) : ℕ :=
  min e.vramLength e.vramSize / 2 ^ minBits * 2 ^ minBits

/-- The last step of `setupAllocator`: `[0, s)` is released where there is a front buffer.
A failure is no error when some memory was released before (`bytes_reserve` is zero). -/
def releaseReserve (a : VMsvga2Allocator) (haveFrontBuffer : Bool) (s bytesReserve : ℕ) :
    IOReturn × VMsvga2Allocator :=
  if haveFrontBuffer then
    match a.release 0 s with
    | (.success, a) => (.success, a)
    | (rc, a) => (if bytesReserve = 0 then .success else rc, a)
  else (.success, a)

/-- `setupAllocator`, when VRAM is not mapped in the kernel yet. -/
def setupAllocator (a : VMsvga2Allocator) (e : VramSetup) : IOReturn × VMsvga2Allocator :=
  match e.kernelMap with
  | none => (.internalError, a)
  | some p =>
      if p = 0 ∨ e.bytes = 0 then (.noMemory, a)
      else
        match a.init p e.bytes e.mapAllocated e.mem with
        | (.success, a) =>
            if svgaFbMaxTraceableSize < e.bytes then
              match a.release svgaFbMaxTraceableSize e.bytes with
              | (.success, a) => releaseReserve a e.haveFrontBuffer svgaFbMaxTraceableSize 0
              | (rc, a) => (rc, a)
            else releaseReserve a e.haveFrontBuffer e.bytes svgaFbMaxTraceableSize
        | (rc, a) => (rc, a)

/-- `VRAMMalloc`: a null pointer when `Malloc` fails. -/
def AllocRun.vramMalloc (r : AllocRun) (bytes : ℕ) : AllocRun × ℕ :=
  let (ret, a, p) := r.alloc.malloc bytes
  ({ r with alloc := a, live := newLive r.live bytes (ret, p), ret := ret }, p.getD 0)

/-- `VRAMFree`. -/
def AllocRun.vramFree (r : AllocRun) (ptr : ℕ) : AllocRun :=
  let (ret, a) := r.alloc.free ptr
  { r with alloc := a, live := freedLive r.live ptr ret, ret := ret }

/-- `VRAMRealloc`: what `Realloc` stores, null when it stores nothing. -/
def AllocRun.vramRealloc (r : AllocRun) (ptr bytes : ℕ) : AllocRun × ℕ :=
  let (ret, a, p) := r.alloc.realloc ptr bytes
  ({ r with
      alloc := a
      live :=
        if bytes = 0 then freedLive r.live ptr ret
        else if ptr = 0 then newLive r.live bytes (ret, p)
        else movedLive r.live ptr bytes (ret, p)
      ret := ret }, p.getD 0)

/-! ### The state after the set-up -/

/-- The minimum blocks of the largest traceable framebuffer. -/
def reserveBlocks : ℕ := svgaFbMaxTraceableSize / 2 ^ minBits

/-- The start of a run, after `setupAllocator` has left the allocator `a`. -/
def setupStart (e : VramSetup) (a : VMsvga2Allocator) : AllocRun :=
  { allocStart a with
    released := fun n => n < e.bytes / 2 ^ minBits && (e.haveFrontBuffer || reserveBlocks ≤ n) }

/-- The size of the pool, in minimum blocks. -/
theorem init_poolBlocks {z a : VMsvga2Allocator} {startAddress bytes : ℕ}
    {mapAllocated : Bool} {mem : ℕ → ℕ}
    (hinit : z.init startAddress bytes mapAllocated mem = (.success, a)) :
    a.poolBlocks = bytes / 2 ^ minBits := by
  obtain ⟨-, rfl⟩ := init_success hinit
  rfl

/-- The invariant depends on the released minimum blocks of the pool only. -/
theorem AllocInv.congr_released {r : AllocRun} {lists : ℕ → List ℕ} (h : AllocInv r lists)
    {released : ℕ → Bool} (heq : ∀ n < r.alloc.poolBlocks, released n = r.released n) :
    AllocInv { r with released := released } lists := by
  refine ⟨h.poolStart_ne, ?_, h.pointers, h.ret⟩
  refine h.rep.congrParts (fun _ => Iff.rfl) (fun n => ?_) fun _ => Iff.rfl
  simp only [unreleased, Set.mem_ofPred_eq]
  constructor
  · rintro ⟨hn, hrel⟩
    exact ⟨hn, heq n hn ▸ hrel⟩
  · rintro ⟨hn, hrel⟩
    exact ⟨hn, (heq n hn).symm ▸ hrel⟩

/-- No free block has a buddy in a range that ends at a multiple of the largest size, when
all free blocks lie behind it. -/
theorem buddy_not_free_of_below {lists : ℕ → List ℕ} {past : ℕ}
    (hpast : 2 ^ (numSizes - 1) ∣ past) (habove : ∀ b ∈ freeSet lists, past ≤ b.off)
    {p : Block} (hbits : p.bits < numSizes - 1) (hp : p.past ≤ past) :
    p.buddy ∉ freeSet lists := by
  intro hfree
  have hoff := habove p.buddy hfree
  -- the parent would reach over the end of the range
  have hdvd : 2 ^ p.parent.bits ∣ past := (pow_dvd_pow 2 (by
    rw [Block.parent_bits]
    omega)).trans hpast
  have hlt : p.parent.off < past := by
    have := Block.mem_parent.mpr (.inl p.off_mem)
    have hpp := p.off_lt_past
    have := this.1
    omega
  have hle := Block.add_le_of_dvd p.parent.aligned hdvd hlt
  have hbuddy := (Block.mem_parent.mpr (.inr p.buddy.off_mem) : p.buddy.off ∈ p.parent.cells).2
  rw [Block.past] at hbuddy
  omega

/-- The last step of the set-up succeeds: what is below `s` is cut into free blocks where
there is a front buffer, and stays unreleased elsewhere. -/
theorem AllocInv.releaseReserve {r : AllocRun} {lists : ℕ → List ℕ} (h : AllocInv r lists)
    (hco : Coalesced (numSizes - 1) (freeSet lists)) (haveFrontBuffer : Bool)
    (s bytesReserve : ℕ) (hs : s % 2 ^ minBits = 0) (hpos : 0 < r.alloc.poolBlocks)
    (hle : s / 2 ^ minBits ≤ r.alloc.poolBlocks)
    (hunrel : ∀ n < s / 2 ^ minBits, r.released n = false)
    (hsep : ∀ p : Block, p.bits < numSizes - 1 → p.past ≤ s / 2 ^ minBits →
      p.buddy ∉ freeSet lists) :
    ∃ a lists', DockerMacos.releaseReserve r.alloc haveFrontBuffer s bytesReserve =
        (.success, a) ∧
      AllocInv { r with
        alloc := a
        released := fun n => r.released n || (haveFrontBuffer && n < s / 2 ^ minBits)
        ret := .success } lists' ∧ Coalesced (numSizes - 1) (freeSet lists') ∧
      a.poolBlocks = r.alloc.poolBlocks := by
  rw [DockerMacos.releaseReserve]
  cases haveFrontBuffer with
  | false =>
      refine ⟨r.alloc, lists, rfl, ?_, hco, rfl⟩
      simp only [Bool.false_and, Bool.or_false]
      exact h.unchanged success_ne
  | true =>
      rcases h.released 0 s (fun n _ _ hn => hunrel n hn) with
        ⟨-, hrefused⟩ | ⟨a, lists', heq, hinv, hpool, hcut⟩
      · simp only [Nat.zero_mod, Nat.zero_div] at hrefused
        omega
      · refine ⟨a, lists', ?_, ?_, hco.cut hcut fun p hp _ => hsep p hp, hpool⟩
        · rw [if_pos rfl, heq]
        · simpa only [Nat.zero_div, Nat.zero_le, decide_true, Bool.true_and] using hinv

/-- **The set-up** leaves a valid allocator with coalesced free blocks. -/
theorem setupAllocator_inv {z a : VMsvga2Allocator} {e : VramSetup}
    (hsetup : setupAllocator z e = (.success, a)) :
    ∃ lists, AllocInv (setupStart e a) lists ∧ Coalesced (numSizes - 1) (freeSet lists) := by
  rw [setupAllocator] at hsetup
  split at hsetup
  · cases hsetup
  split at hsetup
  · cases hsetup
  rename_i hp
  split at hsetup
  · rename_i a₀ hinit
    have hpool : a₀.poolBlocks = e.bytes / 2 ^ minBits := init_poolBlocks hinit
    have hmod : e.bytes % 2 ^ minBits = 0 := Nat.mul_mod_left _ _
    have hpages : 0 < e.bytes / 2 ^ minBits := by
      have := Nat.div_add_mod e.bytes (2 ^ minBits)
      rcases Nat.eq_zero_or_pos (e.bytes / 2 ^ minBits) with hz | hz
      · rw [hz] at this
        omega
      · exact hz
    have h₀ := AllocInv.start (fun hz => hp (.inl hz)) hinit
    have hempty : ∀ b, b ∉ freeSet fun _ => [] := fun b hb => List.not_mem_nil hb.2
    have hco₀ : Coalesced (numSizes - 1) (freeSet fun _ => []) := fun b hb => absurd hb (hempty b)
    split at hsetup
    · -- VRAM is larger than the reserve: its upper part is released first
      rename_i hlarge
      have hres : reserveBlocks ≤ e.bytes / 2 ^ minBits := Nat.div_le_div_right hlarge.le
      rcases h₀.released svgaFbMaxTraceableSize e.bytes
          (fun _ _ _ _ => rfl) with ⟨-, hrefused⟩ | ⟨a₁, lists₁, heq, h₁, hpool₁, hcut⟩
      · simp only [svgaFbMaxTraceableSize, minBits] at hrefused hlarge hpool hmod
        change _ ∨ _ ∨ a₀.poolBlocks ≤ _ ∨ a₀.poolBlocks < _ at hrefused
        omega
      have hupper : ∀ b ∈ freeSet lists₁, reserveBlocks ≤ b.off := fun b hb =>
        (hcut.pieces b hb).elim (fun h => absurd h (hempty b)) fun h => h.1
      obtain ⟨a₂, lists₂, heq₂, h₂, hco₂, hpool₂⟩ := h₁.releaseReserve
        (hco₀.cut hcut fun p _ _ _ => hempty p.buddy) e.haveFrontBuffer svgaFbMaxTraceableSize
        0 rfl (by rw [hpool₁]; exact hpool ▸ hpages)
        (by rw [hpool₁]; exact hpool ▸ hres)
        (fun n hn => by simp [allocStart]; omega)
        fun p hbits hpast => buddy_not_free_of_below (dvd_refl _) hupper hbits hpast
      change a₀.release svgaFbMaxTraceableSize e.bytes = (.success, a₁) at heq
      change DockerMacos.releaseReserve a₁ e.haveFrontBuffer svgaFbMaxTraceableSize 0 = _ at heq₂
      simp only [heq, heq₂] at hsetup
      cases hsetup
      refine ⟨lists₂, h₂.congr_released fun n hn => ?_, hco₂⟩
      change (decide (n < e.bytes / 2 ^ minBits) &&
        (e.haveFrontBuffer || decide (reserveBlocks ≤ n))) = (false ||
          decide (reserveBlocks ≤ n) && decide (n < e.bytes / 2 ^ minBits) ||
          e.haveFrontBuffer && decide (n < reserveBlocks))
      rcases Nat.lt_or_ge n reserveBlocks with hn' | hn'
      · simp [hn', not_le.mpr hn', lt_of_lt_of_le hn' hres]
      · simp [hn', not_lt.mpr hn']
    · -- the whole of VRAM lies in the reserve
      rename_i hsmall
      have hres : e.bytes / 2 ^ minBits ≤ reserveBlocks := Nat.div_le_div_right (not_lt.mp hsmall)
      obtain ⟨a₁, lists₁, heq, h₁, hco₁, -⟩ := h₀.releaseReserve hco₀ e.haveFrontBuffer e.bytes
        svgaFbMaxTraceableSize hmod (hpool ▸ hpages) hpool.ge (fun _ _ => rfl)
        fun p _ _ => hempty p.buddy
      change DockerMacos.releaseReserve a₀ e.haveFrontBuffer e.bytes _ = _ at heq
      rw [heq] at hsetup
      cases hsetup
      refine ⟨lists₁, h₁.congr_released fun n hn => ?_, hco₁⟩
      change (decide (n < e.bytes / 2 ^ minBits) &&
        (e.haveFrontBuffer || decide (reserveBlocks ≤ n))) =
          (false || e.haveFrontBuffer && decide (n < e.bytes / 2 ^ minBits))
      rcases Nat.lt_or_ge n (e.bytes / 2 ^ minBits) with hn' | hn'
      · simp [hn', not_le.mpr (lt_of_lt_of_le hn' hres)]
      · simp [not_lt.mpr hn']
  · rename_i hne _
    cases hsetup
    exact (hne rfl).elim

/-! ### The calls of the driver -/

/-- What a call that returns a pointer does to the live pointers: nothing, and the pointer is
null, or the pointer `ptr` is exchanged for a new one. -/
def Reallocated (r : AllocRun) (ptr bytes : ℕ) (t : AllocRun × ℕ) : Prop :=
  (t.2 = 0 ∧ t.1.live = r.live) ∨
    t.2 ≠ 0 ∧ (r.live t.2 = none ∨ t.2 = ptr) ∧
      t.1.live = Function.update (Function.update r.live ptr none) t.2 (some bytes)

/-- The pool stays where it is. -/
def SamePool (r t : AllocRun) : Prop :=
  t.alloc.poolStart = r.alloc.poolStart ∧ t.alloc.poolBlocks = r.alloc.poolBlocks

namespace AllocInv

variable {r : AllocRun} {lists : ℕ → List ℕ}

/-- No block lies at the null pointer. -/
theorem addr_ne_zero (h : AllocInv r lists) (o : ℕ) : r.alloc.addr o ≠ 0 := by
  have := h.poolStart_ne
  rw [addr]
  omega

/-- A new block is at no live pointer. -/
theorem new_not_live (h : AllocInv r lists) {a : VMsvga2Allocator} {live : ℕ → Option ℕ}
    {lists' : ℕ → List ℕ} {b : Block}
    (halloc : Allocated r.alloc a (liveBlocks r.alloc.poolStart live) lists lists'
      (unreleased r) b)
    (hlive : ∀ p n, live p = some n → r.live p = some n) :
    live (r.alloc.addr b.off) = none := by
  cases hp : live (r.alloc.addr b.off) with
  | none => rfl
  | some n =>
      obtain ⟨c, hoff, hbits⟩ := h.pointers _ n (hlive _ _ hp)
      have hcb : c.off = b.off := (addr_inj hoff).symm
      have hc : c ∈ liveBlocks r.alloc.poolStart live := by
        rw [hoff] at hp
        exact ⟨n, hp, hbits⟩
      have heq := halloc.rep.tiling.disjoint c (.inl (.inr hc)) b (.inl (.inl rfl)) b.off
        (hcb ▸ c.off_mem) b.off_mem
      exact absurd (heq ▸ hc) halloc.fresh

/-- `VRAMMalloc`. -/
theorem vramMalloc (h : AllocInv r lists) (bytes : ℕ) :
    (∃ lists', AllocInv (r.vramMalloc bytes).1 lists') ∧
      SamePool r (r.vramMalloc bytes).1 ∧ Reallocated r 0 bytes (r.vramMalloc bytes) := by
  have hzero : Function.update r.live 0 none = r.live := by
    rw [← h.live_zero, Function.update_eq_self]
  rcases h.rep.malloc_spec bytes with ⟨e, heq, he, -⟩ | ⟨b, a, lists', heq, hbits, halloc⟩
  · have hlive : newLive r.live bytes (e, none) = r.live := by rcases he with rfl | rfl <;> rfl
    simp only [AllocRun.vramMalloc, heq, hlive, Option.getD_none]
    exact ⟨⟨lists, h.unchanged (by rcases he with rfl | rfl <;> decide)⟩, ⟨rfl, rfl⟩,
      .inl ⟨rfl, rfl⟩⟩
  · simp only [AllocRun.vramMalloc, heq, newLive, Option.getD_some]
    refine ⟨⟨lists', h.allocated hbits halloc h.pointers⟩, ⟨halloc.poolStart, halloc.poolBlocks⟩,
      .inr ⟨h.addr_ne_zero _, .inl (h.new_not_live halloc fun _ _ hp => hp), ?_⟩⟩
    rw [hzero]

/-- `VRAMFree` of a live pointer. -/
theorem vramFree (h : AllocInv r lists) {ptr : ℕ}
    (hptr : ptr = 0 ∨ (r.live ptr).isSome = true) :
    (∃ lists', AllocInv (r.vramFree ptr) lists') ∧ SamePool r (r.vramFree ptr) ∧
      (r.vramFree ptr).live = Function.update r.live ptr none := by
  obtain ⟨a, lists', heq, hinv, hstart, hpool, -⟩ := h.free_ptr hptr
  simp only [AllocRun.vramFree, heq, freedLive]
  exact ⟨⟨lists', hinv⟩, ⟨hstart, hpool⟩, trivial⟩

/-- `VRAMRealloc` of a null or live pointer. -/
theorem vramRealloc (h : AllocInv r lists) {ptr bytes : ℕ}
    (hptr : ptr = 0 ∨ (r.live ptr).isSome = true) (hbytes : bytes = 0 → ptr = 0) :
    (∃ lists', AllocInv (r.vramRealloc ptr bytes).1 lists') ∧
      SamePool r (r.vramRealloc ptr bytes).1 ∧
      Reallocated r ptr bytes (r.vramRealloc ptr bytes) := by
  by_cases hzero : bytes = 0
  · -- nothing is asked for and nothing is freed
    obtain rfl := hbytes hzero
    subst hzero
    have hre : r.alloc.realloc 0 0 = (.success, r.alloc, none) := rfl
    simp only [AllocRun.vramRealloc, hre, if_true, freedLive, Option.getD_none]
    have hlive : Function.update r.live 0 none = r.live := by
      rw [← h.live_zero, Function.update_eq_self]
    rw [hlive]
    exact ⟨⟨lists, h.unchanged success_ne⟩, ⟨rfl, rfl⟩, .inl ⟨rfl, rfl⟩⟩
  by_cases hnull : ptr = 0
  · subst hnull
    have hre : r.alloc.realloc 0 bytes = r.alloc.malloc bytes := by
      rw [VMsvga2Allocator.realloc, if_neg hzero, if_pos rfl]
    have heq : r.vramRealloc 0 bytes = r.vramMalloc bytes := by
      simp only [AllocRun.vramRealloc, AllocRun.vramMalloc, hre, hzero, if_false, if_true]
    rw [heq]
    exact h.vramMalloc bytes
  · obtain ⟨n, hn⟩ := Option.isSome_iff_exists.mp (hptr.resolve_left hnull)
    obtain ⟨b, hb, rfl, -⟩ := h.exists_live hn
    rcases h.rep.realloc_spec hb h.poolStart_ne hzero with ⟨e, heq, he⟩ |
      ⟨c, a, lists', heq, hbits, halloc⟩
    · have hlive : movedLive r.live (r.alloc.addr b.off) bytes (e, none) = r.live := by
        rcases he with rfl | rfl <;> rfl
      simp only [AllocRun.vramRealloc, heq, hzero, hnull, if_false, hlive, Option.getD_none]
      exact ⟨⟨lists, h.unchanged (by rcases he with rfl | rfl <;> decide)⟩, ⟨rfl, rfl⟩,
        .inl ⟨rfl, rfl⟩⟩
    · have hset : liveBlocks r.alloc.poolStart (Function.update r.live (r.alloc.addr b.off)
          none) = liveBlocks r.alloc.poolStart r.live \ {b} :=
        Set.ext (mem_liveBlocks_erase fun c hc => h.live_unique hb hc)
      have hsub : ∀ p n, Function.update r.live (r.alloc.addr b.off) none p = some n →
          r.live p = some n := by
        intro p n hp
        by_cases hpb : p = r.alloc.addr b.off
        · simp only [hpb, Function.update_self, reduceCtorEq] at hp
        · rwa [Function.update_of_ne hpb] at hp
      rw [← hset] at halloc
      simp only [AllocRun.vramRealloc, heq, hzero, hnull, if_false, movedLive, Option.getD_some]
      refine ⟨⟨lists', h.allocated hbits halloc fun p n hp => h.pointers p n (hsub p n hp)⟩,
        ⟨halloc.poolStart, halloc.poolBlocks⟩, .inr ⟨h.addr_ne_zero _, ?_, rfl⟩⟩
      have hnew := h.new_not_live halloc hsub
      by_cases hcb : r.alloc.addr c.off = r.alloc.addr b.off
      · exact .inr hcb
      · rw [Function.update_of_ne hcb] at hnew
        exact .inl hnew

/-- The block at a live pointer ends inside the pool, which is smaller than 4 GiB. -/
theorem live_end (h : AllocInv r lists) {p bytes : ℕ} (hp : r.live p = some bytes) :
    r.alloc.poolStart ≤ p ∧ p - r.alloc.poolStart + bytes ≤ r.alloc.poolBlocks * 2 ^ minBits ∧
      r.alloc.poolBlocks * 2 ^ minBits < 2 ^ 32 := by
  obtain ⟨b, hb, rfl, hbits⟩ := h.exists_live hp
  have hpast := h.rep.past_le (h.rep.live_mem hb)
  have hsize : bytes ≤ 2 ^ (minBits + b.bits) := blockBits_le_iff.mp hbits.ge
  have hlt := h.rep.poolBlocks_lt
  refine ⟨Nat.le_add_right _ _, ?_, ?_⟩
  · rw [addr, Nat.add_sub_cancel_left]
    calc b.off * 2 ^ minBits + bytes ≤ b.off * 2 ^ minBits + 2 ^ b.bits * 2 ^ minBits := by
          rw [pow_add, Nat.mul_comm] at hsize
          omega
      _ = b.past * 2 ^ minBits := (Nat.add_mul _ _ _).symm
      _ ≤ r.alloc.poolBlocks * 2 ^ minBits := Nat.mul_le_mul_right _ hpast
  · rw [minBits]
    omega

end AllocInv

/-! ### Completeness -/

/-- The calls after the set-up: nothing is released any more. -/
def NoRelease (_ : AllocRun) (a : AllocAction) : Prop := ∀ first past, a ≠ .release first past

/-- **Completeness**: after the set-up and any calls of `Malloc`, `Realloc` and `Free`,
`Malloc` fails only for sizes above the largest block, or when every aligned run of minimum
blocks of the rounded size holds one that is not free. -/
theorem malloc_complete {z a : VMsvga2Allocator} {e : VramSetup}
    (hsetup : setupAllocator z e = (.success, a)) {as : List AllocAction} {t : AllocRun}
    (hrun : Run allocStep NoRelease (setupStart e a) as t) {bytes : ℕ}
    (hfail : (t.alloc.malloc bytes).1 ≠ .success) :
    numSizes ≤ blockBits bytes ∨ ∀ b : Block, b.bits = blockBits bytes →
      b.past ≤ t.alloc.poolBlocks → ∃ n ∈ b.cells, ¬ EntirelyFree t n := by
  have hinv : ∃ lists, AllocInv t lists ∧ Coalesced (numSizes - 1) (freeSet lists) := by
    refine hrun.invariant (I := fun t => ∃ lists, AllocInv t lists ∧
      Coalesced (numSizes - 1) (freeSet lists)) ?_ (setupAllocator_inv hsetup)
    rintro r act u ⟨lists, h, hco⟩ hact hstep
    obtain ⟨lists', h', hco'⟩ := h.step hstep
    exact ⟨lists', h', hco' hact hco⟩
  obtain ⟨lists, h, hco⟩ := hinv
  rcases Nat.lt_or_ge (blockBits bytes) numSizes with hbits | hbits
  · exact .inr fun b hb hpast => h.malloc_of_free hco hfail hbits b hb hpast
  · exact .inl hbits

/-- VRAM of two pages on a device with a front buffer. -/
def twoPages : VramSetup where
  vramLength := 0x2000
  vramSize := 0x2000
  kernelMap := some 0x100000
  haveFrontBuffer := true
  mapAllocated := true
  mem := fun _ => 0

/-- With one of two pages allocated, a request for both is refused for the right reason. -/
theorem malloc_complete_two_pages : ∃ t, Run allocStep NoRelease
      (setupStart twoPages (setupAllocator freshAllocator twoPages).2) [.malloc 0x1000] t ∧
    (t.alloc.malloc 0x2000).1 ≠ .success ∧
    (numSizes ≤ blockBits 0x2000 ∨ ∀ b : Block, b.bits = blockBits 0x2000 →
      b.past ≤ t.alloc.poolBlocks → ∃ n ∈ b.cells, ¬ EntirelyFree t n) := by
  have hcode : (setupAllocator freshAllocator twoPages).1 = .success := by decide +kernel
  have hsetup : setupAllocator freshAllocator twoPages =
      (.success, (setupAllocator freshAllocator twoPages).2) := by
    rw [← hcode]
  have hrun : ∃ t, Run allocStep NoRelease
      (setupStart twoPages (setupAllocator freshAllocator twoPages).2) [.malloc 0x1000] t ∧
      (t.alloc.malloc 0x2000).1 = .noMemory :=
    ⟨_, Run.single (fun _ _ h => by cases h) rfl, by decide +kernel⟩
  obtain ⟨t, hrun, hcode'⟩ := hrun
  have hfail : (t.alloc.malloc 0x2000).1 ≠ .success := by
    rw [hcode']
    decide
  exact ⟨t, hrun, hfail, malloc_complete hsetup hrun hfail⟩

end DockerMacos
