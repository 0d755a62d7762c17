import DockerMacos.Ownership
import DockerMacos.SurfaceActions

/-!
# The VRAM Blocks of Backings

A surface takes a block of VRAM when it needs memory, exchanges it for another one when its
geometry has grown, and frees it when it goes over to the client's memory or is closed. What a
surface holds is live, its own, and where its registers say. Whether no block is live without a
surface is another matter: when an exchange fails, the surface forgets its block, which stays
live. The invariant is therefore stated twice at once, with and without leaks.

## Tight or not

`VramBackings tight` has a proposition as an argument: with `True` nothing has leaked, with
`False` nothing is said about it. A lemma about a function keeps the invariant for both, and asks
for a condition only where `tight` holds. So no proof is made twice.

## The one loss

`World.losesBlock` is the exchange that fails: the surface has a block, needs a larger one, and
the allocator has none. It is a condition on the state before a call.

## Main results

* `VramBackings.action`: every action keeps the invariant, and the one without leaks if no
  exchange fails.
* `vram_blocks_owned`: without a failed exchange every live block has exactly one open surface.
-/

namespace DockerMacos

namespace Surface

/-- The block of VRAM of a surface. -/
def block (s : Surface) : Option ℕ := if s.backing.self ≠ 0 then some s.backing.self else none

/-- A surface has the block that its backing points to. -/
theorem block_eq_some {s : Surface} {p : ℕ} :
    s.block = some p ↔ s.backing.self ≠ 0 ∧ s.backing.self = p := by
  rw [block]
  split
  · rename_i hself
    constructor
    · rintro ⟨⟩
      exact ⟨hself, rfl⟩
    · rintro ⟨-, rfl⟩
      rfl
  · rename_i hself
    constructor
    · rintro ⟨⟩
    · rintro ⟨h, -⟩
      exact absurd h hself

/-- It has none when the pointer is null. -/
theorem block_eq_none {s : Surface} : s.block = none ↔ s.backing.self = 0 := by
  rw [block]
  split <;> simp_all

end Surface

/-! ### Transfer buffers and VRAM -/

namespace VendorTransferBuffer

/-- To give up a region does not touch VRAM. -/
theorem complete_vram (vtb : VendorTransferBuffer) (provider : Bool) (a : Accel) :
    (vtb.complete provider a).1.vram = a.vram := by
  have hdestroy : (a.destroyGMR vtb.gmrId).2.vram = a.vram := by
    rw [Accel.destroyGMR]
    split <;> rfl
  have hfree : ∀ b : Accel, (b.freeGMRID vtb.gmrId).vram = b.vram := by
    intro b
    rw [Accel.freeGMRID]
    split <;> rfl
  rw [complete]
  split
  · rfl
  · dsimp only
    rw [hfree, ← hdestroy]
    split <;> rfl

/-- To define one does not, either. -/
theorem prepare_vram (vtb : VendorTransferBuffer) (provider : Bool) (a : Accel)
    (env : BackingEnv) : (vtb.prepare provider a env).2.1.vram = a.vram := by
  have halloc : a.allocGMRID.2.vram = a.vram := by
    rw [Accel.allocGMRID]
    split <;> rfl
  have hfree : ∀ (b : Accel) (id : ℕ), (b.freeGMRID id).vram = b.vram := by
    intro b id
    rw [Accel.freeGMRID]
    split <;> rfl
  have hcreate : ∀ (b : Accel) (id : ℕ) (md : MemoryDescriptor),
      (b.createGMR id md env.created).2.vram = b.vram := by
    intro b id md
    rw [Accel.createGMR]
    split
    · rfl
    · split <;> rfl
  rw [prepare]
  split
  · rfl
  split
  · rfl
  split
  · rfl
  · rename_i md _
    dsimp only
    split
    · exact halloc
    split
    · exact (hfree _ _).trans halloc
    · have hmade := (hcreate (a.allocGMRID.2.prepareMd md) a.allocGMRID.1 md).trans halloc
      split
      · rename_i b heq
        rw [heq] at hmade
        exact hmade
      · rename_i b _ heq
        rw [heq] at hmade
        exact (hfree _ _).trans hmade

end VendorTransferBuffer

/-- The VRAM, the block and the owner of a surface stay. -/
structure Surface.BlockKept (a : Accel) (s : Surface) (b : Accel) (t : Surface) : Prop where
  vram : b.vram = a.vram
  self : t.backing.self = s.backing.self
  provider : t.provider = s.provider
  screenInfo : t.screenInfo = s.screenInfo

namespace Surface

/-- Nor does it change the block of the surface. -/
theorem prepareBacking_block (s : Surface) (a : Accel) (env : BackingEnv)
    (md : MemoryDescriptor) (gartPtr : ℕ) :
    BlockKept a s (s.prepareBacking a env md gartPtr).2.1
      (s.prepareBacking a env md gartPtr).2.2 := by
  have hvram := VendorTransferBuffer.prepare_vram { s.backing.vtb with md := some md } s.provider
    a env
  rw [prepareBacking]
  split
  · rename_i heq
    rw [heq] at hvram
    exact ⟨hvram, rfl, rfl, rfl⟩
  · rename_i heq
    rw [heq] at hvram
    exact ⟨hvram, rfl, rfl, rfl⟩

/-- Wrapping the client's memory does not, either. -/
theorem wrapClient_block (s : Surface) (a : Accel) (env : BackingEnv) :
    BlockKept a s (s.wrapClient a env).2.1 (s.wrapClient a env).2.2 := by
  rw [wrapClient]
  dsimp only
  split
  · have hkept := prepareBacking_block { s with backing := { s.backing with
      offset := pageResidue s.clientBacking.addr
      size := s.scale.byteSize } } { a with nextId := a.nextId + 1 } env
      ⟨a.nextId, .client (s.clientBacking.addr / pageSize * pageSize)⟩ 1
    exact ⟨hkept.vram, hkept.self, hkept.provider, hkept.screenInfo⟩
  · exact ⟨rfl, rfl, rfl, rfl⟩

/-- Nor does a backing in kernel memory. -/
theorem allocGMRBacking_block (s : Surface) (a : Accel) (env : BackingEnv) :
    BlockKept a s (s.allocGMRBacking a env).2.1 (s.allocGMRBacking a env).2.2 := by
  rw [allocGMRBacking]
  split
  · have hkept := prepareBacking_block { s with backing := { s.backing with offset := 0 } }
      { a with nextId := a.nextId + 1 } env ⟨a.nextId, .buffer a.nextId⟩ 0
    exact ⟨hkept.vram, hkept.self, hkept.provider, hkept.screenInfo⟩
  · exact ⟨rfl, rfl, rfl, rfl⟩

end Surface

/-! ### The invariant -/

/-- The pointers to the live blocks of VRAM. -/
def Accel.livePointers (a : Accel) : Set ℕ := {p | (a.vram.live p).isSome = true}

/-- A pointer is not live any more. -/
theorem Accel.livePointers_freed {a b : Accel} {p : ℕ}
    (hlive : b.vram.live = Function.update a.vram.live p none) :
    b.livePointers = a.livePointers \ {p} := by
  ext q
  simp only [livePointers, hlive, Set.mem_sdiff, Set.mem_ofPred_eq, Set.mem_singleton_iff]
  by_cases hq : q = p
  · simp only [hq, Function.update_self, Option.isSome_none, Bool.false_eq_true, not_true,
      and_false]
  · simp only [ne_eq, hq, not_false_eq_true, Function.update_of_ne, and_true]

/-- A pointer is not live any more, and another one is. -/
theorem Accel.livePointers_exchanged {a b : Accel} {p q bytes : ℕ}
    (hlive : b.vram.live = Function.update (Function.update a.vram.live q none) p (some bytes)) :
    b.livePointers = insert p (a.livePointers \ {q}) := by
  ext r
  simp only [livePointers, hlive, Set.mem_insert_iff, Set.mem_sdiff, Set.mem_ofPred_eq,
    Set.mem_singleton_iff]
  by_cases hr : r = p
  · simp only [hr, Function.update_self, Option.isSome_some, true_or]
  · rw [Function.update_of_ne hr]
    by_cases hrq : r = q
    · simp only [hrq, Function.update_self, Option.isSome_none, Bool.false_eq_true, not_true,
        and_false, or_false, false_iff]
      exact fun heq => hr (hrq.trans heq)
    · simp only [ne_eq, hrq, not_false_eq_true, Function.update_of_ne, and_true, hr, false_or]

/-- No block lies at the null pointer. -/
theorem Accel.zero_not_live {a : Accel} (h : ∃ lists, AllocInv a.vram lists) :
    0 ∉ a.livePointers := by
  obtain ⟨lists, hinv⟩ := h
  rw [livePointers, Set.mem_ofPred_eq, hinv.live_zero]
  exact Bool.false_ne_true

/-- **The invariant** of VRAM and the surfaces; when it is `tight`, nothing has leaked. -/
structure VramBackings (tight : Prop) (a : Accel) (surfaces : ℕ → Surface) : Prop where
  inv : ∃ lists, AllocInv a.vram lists
  held : Held a.livePointers (Surface.block ∘ surfaces)
  noLeak : tight → NoLeak a.livePointers (Surface.block ∘ surfaces)
  /-- The block has the size of the backing. -/
  sized : ∀ i, (surfaces i).backing.self ≠ 0 →
    a.vram.live (surfaces i).backing.self = some (surfaces i).backing.size
  /-- The backing starts where the block does. -/
  placed : ∀ i, (surfaces i).backing.self ≠ 0 →
    (surfaces i).backing.offset = (surfaces i).backing.self - a.vram.alloc.poolStart
  /-- Only an open surface has a block. -/
  opened : ∀ i, (surfaces i).backing.self ≠ 0 → (surfaces i).provider = true
  screen : ∀ i, (surfaces i).provider = true →
    (surfaces i).screenInfo.clientAddr = a.vram.alloc.poolStart

namespace VramBackings

variable {tight : Prop} {a b : Accel} {surfaces : ℕ → Surface} {i : ℕ} {s t : Surface}

/-- The blocks when one surface is replaced. -/
theorem blocks_update (surfaces : ℕ → Surface) (i : ℕ) (s : Surface) :
    Surface.block ∘ Function.update surfaces i s =
      Function.update (Surface.block ∘ surfaces) i s.block :=
  Function.comp_update ..

/-- What the invariant says of the surface that is replaced. -/
theorem self_update (h : VramBackings tight a (Function.update surfaces i s))
    (hself : s.backing.self ≠ 0) :
    a.vram.live s.backing.self = some s.backing.size ∧
      s.backing.offset = s.backing.self - a.vram.alloc.poolStart ∧ s.provider = true := by
  have hsized := h.sized i
  have hplaced := h.placed i
  have hopened := h.opened i
  rw [Function.update_self] at hsized hplaced hopened
  exact ⟨hsized hself, hplaced hself, hopened hself⟩

/-- The facts about the surfaces other than `i`. -/
theorem replace (h : VramBackings tight a (Function.update surfaces i s))
    (hinv : ∃ lists, AllocInv b.vram lists) (hpool : SamePool a.vram b.vram)
    (hheld : Held b.livePointers (Surface.block ∘ Function.update surfaces i t))
    (hnoLeak : tight → NoLeak b.livePointers (Surface.block ∘ Function.update surfaces i t))
    (hothers : ∀ j, j ≠ i → (surfaces j).backing.self ≠ 0 →
      b.vram.live (surfaces j).backing.self = a.vram.live (surfaces j).backing.self)
    (hself : t.backing.self ≠ 0 → b.vram.live t.backing.self = some t.backing.size ∧
      t.backing.offset = t.backing.self - b.vram.alloc.poolStart ∧ t.provider = true)
    (hscreen : t.provider = true → t.screenInfo.clientAddr = a.vram.alloc.poolStart) :
    VramBackings tight b (Function.update surfaces i t) := by
  refine ⟨hinv, hheld, hnoLeak, ?_, ?_, ?_, ?_⟩
  · intro j hj
    by_cases hji : j = i
    · subst hji
      rw [Function.update_self] at hj ⊢
      exact (hself hj).1
    · have := h.sized j
      rw [Function.update_of_ne hji] at hj this ⊢
      rw [hothers j hji hj]
      exact this hj
  · intro j hj
    by_cases hji : j = i
    · subst hji
      rw [Function.update_self] at hj ⊢
      exact (hself hj).2.1
    · have := h.placed j
      rw [Function.update_of_ne hji] at hj this ⊢
      rw [hpool.1]
      exact this hj
  · intro j hj
    by_cases hji : j = i
    · subst hji
      rw [Function.update_self] at hj ⊢
      exact (hself hj).2.2
    · have := h.opened j
      rw [Function.update_of_ne hji] at hj this ⊢
      exact this hj
  · intro j hj
    rw [hpool.1]
    by_cases hji : j = i
    · subst hji
      rw [Function.update_self] at hj ⊢
      exact hscreen hj
    · have := h.screen j
      rw [Function.update_of_ne hji] at hj this ⊢
      exact this hj

/-- The live blocks and the block of the surface stay. -/
theorem kept (h : VramBackings tight a (Function.update surfaces i s))
    (hinv : ∃ lists, AllocInv b.vram lists) (hpool : SamePool a.vram b.vram)
    (hlive : b.vram.live = a.vram.live) (hself : t.backing.self = s.backing.self)
    (hplace : s.backing.self ≠ 0 → t.backing.size = s.backing.size ∧
      t.backing.offset = s.backing.offset ∧ t.provider = s.provider)
    (hscreen : t.provider = true → t.screenInfo.clientAddr = a.vram.alloc.poolStart) :
    VramBackings tight b (Function.update surfaces i t) := by
  have hblock : t.block = s.block := by rw [Surface.block, Surface.block, hself]
  have hblocks : Surface.block ∘ Function.update surfaces i t =
      Surface.block ∘ Function.update surfaces i s := by
    rw [blocks_update, blocks_update, hblock]
  have hpointers : b.livePointers = a.livePointers := by
    rw [Accel.livePointers, hlive]
    rfl
  refine h.replace hinv hpool (hpointers ▸ hblocks ▸ h.held)
    (fun ht => hpointers ▸ hblocks ▸ h.noLeak ht) (fun _ _ _ => by rw [hlive]) ?_ hscreen
  intro hne
  rw [hself] at hne
  obtain ⟨hsized, hplaced, hopened⟩ := h.self_update hne
  obtain ⟨hsize, hoffset, hprovider⟩ := hplace hne
  rw [hself, hlive, hsize, hoffset, hprovider, hpool.1]
  exact ⟨hsized, hplaced, hopened⟩

/-- The surface has its block, as an owner. -/
theorem owns (hself : s.backing.self ≠ 0) :
    (Surface.block ∘ Function.update surfaces i s) i = some s.backing.self := by
  rw [Function.comp_apply, Function.update_self]
  exact Surface.block_eq_some.mpr ⟨hself, rfl⟩

/-- Without a block the surface owns nothing. -/
theorem owns_none (hself : s.backing.self = 0) :
    (Surface.block ∘ Function.update surfaces i s) i = none := by
  rw [Function.comp_apply, Function.update_self]
  exact Surface.block_eq_none.mpr hself

/-- No other surface has the block. -/
theorem other_ne (h : VramBackings tight a (Function.update surfaces i s))
    (hself : s.backing.self ≠ 0) {j : ℕ} (hji : j ≠ i) (hj : (surfaces j).backing.self ≠ 0) :
    (surfaces j).backing.self ≠ s.backing.self := by
  intro heq
  refine hji (h.held.unique (r := s.backing.self) ?_ (owns hself))
  rw [Function.comp_apply, Function.update_of_ne hji]
  exact Surface.block_eq_some.mpr ⟨hj, heq⟩

/-- To free the null pointer frees nothing. -/
theorem live_update_none {r : AllocRun} (h : ∃ lists, AllocInv r lists) :
    Function.update r.live 0 none = r.live := by
  obtain ⟨lists, hinv⟩ := h
  rw [← hinv.live_zero, Function.update_eq_self]

/-- The pointer that a surface passes on is null or live. -/
theorem self_live (h : VramBackings tight a (Function.update surfaces i s)) :
    s.backing.self = 0 ∨ (a.vram.live s.backing.self).isSome = true := by
  by_cases hself : s.backing.self = 0
  · exact .inl hself
  · refine .inr ?_
    rw [(h.self_update hself).1]
    rfl

/-- **`VRAMFree`** of the block of a surface. -/
theorem freed (h : VramBackings tight a (Function.update surfaces i s))
    (hself : s.backing.self ≠ 0) (ht : t.backing.self = 0)
    (hscreen : t.provider = true → t.screenInfo.clientAddr = a.vram.alloc.poolStart) :
    VramBackings tight (a.vramFree s.backing.self) (Function.update surfaces i t) := by
  obtain ⟨lists, hinv⟩ := h.inv
  obtain ⟨hinv', hpool, hlive⟩ := hinv.vramFree h.self_live
  have hpointers := Accel.livePointers_freed (a := a) (b := a.vramFree s.backing.self) hlive
  have hblocks : Surface.block ∘ Function.update surfaces i t =
      Function.update (Surface.block ∘ Function.update surfaces i s) i none := by
    rw [blocks_update, blocks_update, Function.update_idem, Surface.block_eq_none.mpr ht]
  refine h.replace hinv' hpool ?_ ?_ ?_ (fun hne => absurd ht hne) hscreen
  · rw [hpointers, hblocks]
    exact h.held.release (owns hself)
  · intro htight
    rw [hpointers, hblocks]
    exact (h.noLeak htight).release (owns hself)
  · intro j hji hj
    change (a.vram.vramFree s.backing.self).live _ = _
    rw [hlive, Function.update_of_ne (h.other_ne hself hji hj)]

/-- A surface is left without a block. -/
theorem forgotten (h : VramBackings tight a (Function.update surfaces i s))
    (hinv : ∃ lists, AllocInv b.vram lists) (hpool : SamePool a.vram b.vram)
    (hlive : b.vram.live = a.vram.live) (ht : t.backing.self = 0)
    (hscreen : t.screenInfo.clientAddr = a.vram.alloc.poolStart)
    (hok : tight → s.backing.self = 0) : VramBackings tight b (Function.update surfaces i t) := by
  have hpointers : b.livePointers = a.livePointers := by
    rw [Accel.livePointers, hlive]
    rfl
  have hblocks : Surface.block ∘ Function.update surfaces i t =
      Function.update (Surface.block ∘ Function.update surfaces i s) i none := by
    rw [blocks_update, blocks_update, Function.update_idem, Surface.block_eq_none.mpr ht]
  refine h.replace hinv hpool ?_ ?_ (fun _ _ _ => by rw [hlive]) (fun hself => absurd ht hself)
    fun _ => hscreen
  · rw [hpointers, hblocks]
    exact h.held.forget
  · intro htight
    have hnone : (Surface.block ∘ Function.update surfaces i s) i = none := owns_none (hok htight)
    rw [hpointers, hblocks, ← hnone, Function.update_eq_self]
    exact h.noLeak htight

/-- A surface gets a block in exchange for the one that it has, if it has one. -/
theorem moved (h : VramBackings tight a (Function.update surfaces i s)) {bytes p : ℕ}
    (hinv : ∃ lists, AllocInv b.vram lists) (hpool : SamePool a.vram b.vram) (hne : p ≠ 0)
    (hnew : a.vram.live p = none ∨ p = s.backing.self)
    (hlive : b.vram.live = Function.update (Function.update a.vram.live s.backing.self none) p
      (some bytes)) (ht : t.backing.self = p) (hprovider : t.provider = true)
    (hsize : t.backing.size = bytes) (hoffset : t.backing.offset = p - a.vram.alloc.poolStart)
    (hscreen : t.screenInfo.clientAddr = a.vram.alloc.poolStart) :
    VramBackings tight b (Function.update surfaces i t) := by
  have hpointers := Accel.livePointers_exchanged hlive
  have hblocks : Surface.block ∘ Function.update surfaces i t =
      Function.update (Surface.block ∘ Function.update surfaces i s) i (some p) := by
    rw [blocks_update, blocks_update, Function.update_idem,
      Surface.block_eq_some.mpr ⟨ht ▸ hne, ht⟩]
  have hfree : p ∉ a.livePointers \ {s.backing.self} := by
    rintro ⟨hmem, hps⟩
    rcases hnew with hnone | heq
    · rw [Accel.livePointers, Set.mem_ofPred_eq, hnone] at hmem
      cases hmem
    · exact hps heq
  have hzero : s.backing.self = 0 → a.livePointers \ {s.backing.self} = a.livePointers := by
    intro hself
    rw [hself]
    exact Set.sdiff_singleton_eq_self (Accel.zero_not_live h.inv)
  refine h.replace hinv hpool ?_ ?_ ?_ ?_ fun _ => hscreen
  · rw [hpointers, hblocks]
    by_cases hself : s.backing.self = 0
    · rw [hzero hself] at hfree ⊢
      exact h.held.acquire hfree
    · exact h.held.exchange (owns hself) hfree
  · intro htight
    rw [hpointers, hblocks]
    by_cases hself : s.backing.self = 0
    · rw [hzero hself]
      exact (h.noLeak htight).acquire (owns_none hself)
    · exact (h.noLeak htight).exchange (owns hself)
  · intro j hji hj
    have hjs : (surfaces j).backing.self ≠ s.backing.self := by
      by_cases hself : s.backing.self = 0
      · rw [hself]
        exact hj
      · exact h.other_ne hself hji hj
    have hjp : (surfaces j).backing.self ≠ p := by
      rintro rfl
      have hsized := h.sized j
      rw [Function.update_of_ne hji] at hsized
      refine hfree ⟨?_, hjs⟩
      rw [Accel.livePointers, Set.mem_ofPred_eq, hsized hj]
      rfl
    rw [hlive, Function.update_of_ne hjp, Function.update_of_ne hjs]
  · intro _
    rw [ht, hlive, Function.update_self, hsize, hpool.1]
    exact ⟨rfl, hoffset, hprovider⟩

/-- **`VRAMRealloc`** of the block of a surface. The invariant without leaks needs that an
exchange succeeds. -/
theorem exchanged (h : VramBackings tight a (Function.update surfaces i s)) {bytes : ℕ}
    {fails : Bool} {p : ℕ} (hre : a.vramRealloc s.backing.self bytes fails = (b, p))
    (hbytes : bytes = 0 → s.backing.self = 0) (ht : t.backing.self = p)
    (hprovider : t.provider = true)
    (hplace : p ≠ 0 → t.backing.size = bytes ∧
      t.backing.offset = p - a.vram.alloc.poolStart)
    (hscreen : t.screenInfo.clientAddr = a.vram.alloc.poolStart)
    (hok : tight → s.backing.self ≠ 0 → p ≠ 0) :
    VramBackings tight b (Function.update surfaces i t) := by
  have hstep : (∃ lists, AllocInv b.vram lists) ∧ SamePool a.vram b.vram ∧
      Reallocated a.vram s.backing.self bytes (b.vram, p) := by
    rw [Accel.vramRealloc] at hre
    split at hre
    · cases hre
      exact ⟨h.inv, ⟨rfl, rfl⟩, .inl ⟨rfl, rfl⟩⟩
    · cases hre
      obtain ⟨lists, hinv⟩ := h.inv
      exact hinv.vramRealloc h.self_live hbytes
  obtain ⟨hinv, hpool, ⟨hnull, hlive⟩ | ⟨hne, hnew, hlive⟩⟩ := hstep
  · -- nothing was allocated, and the surface has no block any more
    refine h.forgotten hinv hpool hlive (ht.trans hnull) hscreen fun htight => ?_
    by_contra hself
    exact hok htight hself hnull
  · obtain ⟨hsize, hoffset⟩ := hplace hne
    exact h.moved hinv hpool hne hnew hlive ht hprovider hsize hoffset hscreen

/-! ### The functions of a surface -/

/-- Without a block a surface may change as it likes. -/
theorem blockless (h : VramBackings tight a (Function.update surfaces i s))
    (hself : s.backing.self = 0) (hkept : Surface.BlockKept a s b t) :
    VramBackings tight b (Function.update surfaces i t) := by
  have hscreen := h.screen i
  rw [Function.update_self] at hscreen
  refine h.kept (hkept.vram ▸ h.inv) (by rw [hkept.vram]; exact ⟨rfl, rfl⟩) (by rw [hkept.vram])
    hkept.self (fun hne => absurd hself hne) ?_
  intro hprovider
  rw [hkept.screenInfo]
  exact hscreen (hkept.provider ▸ hprovider)

/-- **`releaseBacking`**. -/
theorem releaseBacking (h : VramBackings tight a (Function.update surfaces i s)) :
    VramBackings tight (s.releaseBacking a).1
      (Function.update surfaces i (s.releaseBacking a).2) := by
  have hscreen := h.screen i
  rw [Function.update_self] at hscreen
  have hvram := s.backing.vtb.complete_vram s.provider a
  have hcompleted : VramBackings tight (s.backing.vtb.complete s.provider a).1
      (Function.update surfaces i s) :=
    h.kept (hvram ▸ h.inv) (by rw [hvram]; exact ⟨rfl, rfl⟩) (by rw [hvram]) rfl
      (fun _ => ⟨rfl, rfl, rfl⟩) hscreen
  rw [← hvram] at hscreen
  rw [Surface.releaseBacking]
  dsimp only
  split
  · rename_i hfree
    rw [Bool.and_eq_true, decide_eq_true_eq] at hfree
    exact hcompleted.freed hfree.2 rfl hscreen
  · rename_i hfree
    have hself : s.backing.self = 0 := by
      by_contra hself
      exact hfree (by rw [(h.self_update hself).2.2]; simpa using hself)
    exact hcompleted.blockless hself ⟨rfl, hself.symm, rfl, rfl⟩

/-- Where the client's memory becomes the backing, the block is given back first. -/
theorem wrapClientBacking (h : VramBackings tight a (Function.update surfaces i s))
    (env : BackingEnv) :
    VramBackings tight (s.wrapClientBacking a env).2.1
      (Function.update surfaces i (s.wrapClientBacking a env).2.2) := by
  have hreleased := h.releaseBacking.blockless rfl
    (Surface.wrapClient_block (s.releaseBacking a).2 (s.releaseBacking a).1 env)
  rw [Surface.wrapClientBacking]
  split
  · exact hreleased
  · split
    · exact h
    · exact hreleased
  · rename_i hclass
    refine h.blockless ?_ (Surface.wrapClient_block s a env)
    by_contra hself
    rw [Surface.classifyBacking, if_pos hself] at hclass
    cases hclass

/-- `allocBacking` behind its `switch`. -/
theorem allocNew (h : VramBackings tight a (Function.update surfaces i s)) {env : BackingEnv}
    {ok : Bool} (hbytes : s.scale.byteSize = 0 → s.backing.self = 0)
    (hok : tight → s.backing.self ≠ 0 →
      (a.vramRealloc s.backing.self s.scale.byteSize env.vramFails).2 ≠ 0)
    (halloc : s.allocNew a env = some (ok, b, t)) :
    VramBackings tight b (Function.update surfaces i t) := by
  have hscreen := h.screen i
  rw [Function.update_self] at hscreen
  rw [Surface.allocNew] at halloc
  split at halloc
  · cases halloc
  rename_i hprovider
  rw [Bool.not_eq_true', Bool.not_eq_false] at hprovider
  obtain ⟨a₁, p, hre⟩ : ∃ a₁ p, a.vramRealloc s.backing.self s.scale.byteSize env.vramFails =
      (a₁, p) := ⟨_, _, rfl⟩
  dsimp only at halloc
  rw [hre] at halloc hok
  dsimp only at halloc
  split at halloc
  · rename_i hnull
    have hexch := h.exchanged (t := { s with backing := { s.backing with
      size := s.scale.byteSize
      self := p } }) hre hbytes rfl hprovider (fun hne => absurd hnull hne) (hscreen hprovider)
      hok
    have hgmr := hexch.blockless hnull (Surface.allocGMRBacking_block _ a₁ env)
    rw [Option.some.injEq] at halloc
    rw [halloc] at hgmr
    exact hgmr
  · cases halloc
    refine h.exchanged hre hbytes rfl hprovider (fun _ => ⟨rfl, ?_⟩) (hscreen hprovider) hok
    rw [← hscreen hprovider]

end VramBackings

/-- The block of the surface would have to be exchanged for a larger one, and cannot be. -/
def Surface.cannotGrow (s : Surface) (a : Accel) (env : BackingEnv) : Bool :=
  s.clientBacking.addr = 0 && s.backing.self ≠ 0 && s.hasSourceGrown &&
    (a.vramRealloc s.backing.self s.scale.byteSize env.vramFails).2 = 0

namespace VramBackings

variable {tight : Prop} {a b : Accel} {surfaces : ℕ → Surface} {i : ℕ} {s t : Surface}

/-- **`allocBacking`**. -/
theorem allocBacking (h : VramBackings tight a (Function.update surfaces i s)) {env : BackingEnv}
    {ok : Bool} (hok : tight → s.cannotGrow a env = false)
    (halloc : s.allocBacking a env = some (ok, b, t)) :
    VramBackings tight b (Function.update surfaces i t) := by
  rw [Surface.allocBacking] at halloc
  split at halloc
  · have hwrap := h.wrapClientBacking env
    rw [Option.some.injEq] at halloc
    rw [halloc] at hwrap
    exact hwrap
  rename_i hclient
  split at halloc
  · split at halloc
    · cases halloc
      exact h
    · rename_i hgrown
      rw [Bool.not_eq_true', Bool.not_eq_false] at hgrown
      have hvram := s.backing.vtb.complete_vram s.provider a
      have hscreen := h.screen i
      rw [Function.update_self] at hscreen
      have hcompleted : VramBackings tight (s.backing.vtb.complete s.provider a).1
          (Function.update surfaces i { (s.releaseBackingMap 0).releaseBackingMap 1 with
            backing := { ((s.releaseBackingMap 0).releaseBackingMap 1).backing with
              vtb := (s.backing.vtb.complete s.provider a).2.discard } }) :=
        h.kept (hvram ▸ h.inv) (by rw [hvram]; exact ⟨rfl, rfl⟩) (by rw [hvram]) rfl
          (fun _ => ⟨rfl, rfl, rfl⟩) hscreen
      refine hcompleted.allocNew ?_ ?_ halloc
      · intro hbytes
        simp only [Surface.hasSourceGrown, decide_eq_true_eq] at hgrown
        exact absurd (hbytes ▸ hgrown) (Nat.not_lt_zero _)
      · intro htight hself hnull
        have hcannot := hok htight
        have hclient' : s.clientBacking.addr = 0 := not_not.mp hclient
        have hself' : s.backing.self ≠ 0 := hself
        have hsame : (a.vramRealloc s.backing.self s.scale.byteSize env.vramFails).2 = 0 := by
          rw [← hnull, Accel.vramRealloc, Accel.vramRealloc, hvram]
          split <;> rfl
        simp [Surface.cannotGrow, hclient', hself', hgrown, hsame] at hcannot
  · exact h.releaseBacking.allocNew (fun _ => rfl) (fun _ hself => absurd rfl hself) halloc
  · rename_i hclass
    have hself : s.backing.self = 0 := by
      by_contra hself
      rw [Surface.classifyBacking, if_pos hself] at hclass
      cases hclass
    exact h.allocNew (fun _ => hself) (fun _ hne => absurd hself hne) halloc

end VramBackings

/-- The test of `detectBlitBug` frees the page that it takes. -/
theorem Surface.detectBlitBug_vram {a : Accel} (h : ∃ lists, AllocInv a.vram lists)
    (env : Surface.Start3DEnv) :
    (∃ lists, AllocInv (detectBlitBug a env).2.vram lists) ∧
      SamePool a.vram (detectBlitBug a env).2.vram ∧
      (detectBlitBug a env).2.vram.live = a.vram.live := by
  rw [detectBlitBug]
  split
  · exact ⟨h, ⟨rfl, rfl⟩, rfl⟩
  obtain ⟨b, p, hmalloc⟩ : ∃ b p, a.vramMalloc pageSize env.vramFails = (b, p) := ⟨_, _, rfl⟩
  obtain ⟨lists, hinv⟩ := h
  have hstep : (∃ lists, AllocInv b.vram lists) ∧ SamePool a.vram b.vram ∧
      Reallocated a.vram 0 pageSize (b.vram, p) := by
    rw [Accel.vramMalloc] at hmalloc
    split at hmalloc
    · cases hmalloc
      exact ⟨⟨lists, hinv⟩, ⟨rfl, rfl⟩, .inl ⟨rfl, rfl⟩⟩
    · cases hmalloc
      exact hinv.vramMalloc pageSize
  obtain ⟨⟨lists', hinv'⟩, hpool, hre⟩ := hstep
  rw [hmalloc]
  dsimp only
  rcases hre with ⟨hnull, hlive⟩ | ⟨hne, hnew, hlive⟩
  · have hnull' : p = 0 := hnull
    rw [if_pos hnull']
    exact ⟨⟨lists', hinv'⟩, hpool, hlive⟩
  · have hne' : p ≠ 0 := hne
    rw [VramBackings.live_update_none ⟨lists, hinv⟩] at hlive
    have hptr : (b.vram.live p).isSome = true := by
      rw [hlive, Function.update_self]
      rfl
    obtain ⟨hinv'', hpool', hlive'⟩ := hinv'.vramFree (.inr hptr)
    have hfree : a.vram.live p = none := hnew.resolve_right hne
    rw [if_neg hne']
    refine ⟨hinv'', ⟨hpool'.1.trans hpool.1, hpool'.2.trans hpool.2⟩, hlive'.trans ?_⟩
    rw [hlive, Function.update_idem, ← hfree, Function.update_eq_self]

/-! ### Runs -/

/-- A surface forgets its block: it needs a larger one, and the exchange fails. -/
def World.losesBlock (w : World) (act : Action) : Bool :=
  match w.called act with
  | some (i, op) =>
      match (w.surfaces i).memoryCall op with
      | some env => (w.surfaces i).cannotGrow w.accel env
      | none => false
  | none => false

/-- **Every action** keeps the invariant, and the one without leaks if no exchange fails. -/
theorem VramBackings.action {tight : Prop} {w w' : World} {act : Action}
    (h : VramBackings tight w.accel w.surfaces) (hact : tight → w.losesBlock act = false)
    (hstep : w.step act = some w') : VramBackings tight w'.accel w'.surfaces := by
  refine World.memory_rule hstep h ?_ ?_ ?_ ?_ ?_
  · intro i a b s t hs hsteady
    have hscreen := hs.screen i
    rw [Function.update_self] at hscreen
    have hvram : (∃ lists, AllocInv b.vram lists) ∧ SamePool a.vram b.vram ∧
        b.vram.live = a.vram.live := by
      rcases hsteady.vram with hsame | ⟨env, htest⟩
      · rw [hsame]
        exact ⟨hs.inv, ⟨rfl, rfl⟩, rfl⟩
      · rw [htest]
        exact Surface.detectBlitBug_vram hs.inv env
    refine hs.kept hvram.1 hvram.2.1 hvram.2.2 hsteady.self
      (fun _ => ⟨hsteady.size, hsteady.offset, hsteady.provider⟩) ?_
    rw [hsteady.provider, hsteady.screenInfo]
    exact hscreen
  · intro i op u env ok b t hcalled hmemory hlock hu halloc
    refine hu.allocBacking (fun htight => ?_) halloc
    have hkeeps := hact htight
    rw [World.losesBlock, hcalled] at hkeeps
    dsimp only at hkeeps
    rw [hmemory] at hkeeps
    obtain ⟨r, w, c, k, rfl⟩ := hlock
    exact hkeeps
  · intro i a s hs
    have hreleased := hs.releaseBacking
    refine hreleased.kept hreleased.inv ⟨rfl, rfl⟩ rfl rfl (fun hself => absurd rfl hself) ?_
    rintro ⟨⟩
  · intro i a s screenInfo hs haddr
    refine hs.kept hs.inv ⟨rfl, rfl⟩ rfl rfl (fun hself => ⟨rfl, rfl, ?_⟩) fun _ => haddr
    exact (hs.self_update hself).2.2.symm
  · intro ptr k v vram hwrite
    obtain ⟨lists, hinv⟩ := h.inv
    have hinv' := hinv.write hwrite
    have hsame : vram.live = w.accel.vram.live ∧ SamePool w.accel.vram vram := by
      simp only [allocStep] at hwrite
      split at hwrite
      · split at hwrite
        · cases hwrite
          exact ⟨rfl, rfl, rfl⟩
        · cases hwrite
      · cases hwrite
    obtain ⟨hlive, hpool⟩ := hsame
    have hpointers : ({ w.accel with vram := vram } : Accel).livePointers =
        w.accel.livePointers := by
      rw [Accel.livePointers, Accel.livePointers, hlive]
    refine ⟨⟨lists, hinv'⟩, hpointers ▸ h.held, fun ht => hpointers ▸ h.noLeak ht, ?_, ?_,
      h.opened, ?_⟩
    · intro i hself
      change vram.live _ = _
      rw [hlive]
      exact h.sized i hself
    · intro i hself
      rw [h.placed i hself, hpool.1]
    · intro i hprovider
      rw [h.screen i hprovider, hpool.1]

/-- Before the first surface is started nothing is live. -/
theorem VramBackings.start {z alloc : VMsvga2Allocator} {e : AccelSetup} (tight : Prop)
    (hsetup : setupAllocator z e.vram = (.success, alloc)) :
    VramBackings tight (.start e alloc) (World.start (.start e alloc)).surfaces := by
  obtain ⟨lists, hinv, -⟩ := setupAllocator_inv hsetup
  refine ⟨⟨lists, hinv⟩, ⟨?_, ?_⟩, fun _ => ?_, ?_, ?_, ?_, ?_⟩
  · rintro i p ⟨⟩
  · rintro i j p ⟨⟩
  · rintro p ⟨⟩
  · exact fun i hself => absurd rfl hself
  · exact fun i hself => absurd rfl hself
  · exact fun i hself => absurd rfl hself
  · rintro i ⟨⟩

/-- The live blocks of VRAM belong to the surfaces. -/
structure BlocksOwned (w : World) : Prop where
  /-- A block is live if and only if it is the backing of exactly one open surface. -/
  owned : ∀ p, (w.accel.vram.live p).isSome = true ↔
    p ≠ 0 ∧ ∃! i, (w.surfaces i).provider = true ∧ (w.surfaces i).backing.self = p
  /-- When all surfaces are closed, no block is live. -/
  closed : (∀ i, (w.surfaces i).provider = false) → ∀ p, w.accel.vram.live p = none

/-- A tight invariant says that the live blocks are those of the open surfaces. -/
theorem VramBackings.blocksOwned {w : World} (h : VramBackings True w.accel w.surfaces) :
    BlocksOwned w := by
  have howned : ∀ p, (w.accel.vram.live p).isSome = true ↔
      p ≠ 0 ∧ ∃! i, (w.surfaces i).provider = true ∧ (w.surfaces i).backing.self = p := by
    intro p
    have hblock : ∀ i, (Surface.block ∘ w.surfaces) i = some p ↔
        p ≠ 0 ∧ (w.surfaces i).provider = true ∧ (w.surfaces i).backing.self = p := by
      intro i
      refine Surface.block_eq_some.trans ⟨?_, ?_⟩
      · rintro ⟨hself, rfl⟩
        exact ⟨hself, h.opened i hself, rfl⟩
      · rintro ⟨hp, -, rfl⟩
        exact ⟨hp, rfl⟩
    refine (h.held.mem_iff_existsUnique (h.noLeak trivial)).trans ⟨?_, ?_⟩
    · rintro ⟨i, hi, hunique⟩
      obtain ⟨hp, howner⟩ := (hblock i).mp hi
      exact ⟨hp, i, howner, fun j hj => hunique j ((hblock j).mpr ⟨hp, hj⟩)⟩
    · rintro ⟨hp, i, howner, hunique⟩
      exact ⟨i, (hblock i).mpr ⟨hp, howner⟩, fun j hj => hunique j ((hblock j).mp hj).2⟩
  refine ⟨howned, fun hclosed p => ?_⟩
  cases hp : w.accel.vram.live p with
  | none => rfl
  | some bytes =>
      obtain ⟨-, i, ⟨hprovider, -⟩, -⟩ := (howned p).mp (by rw [hp]; rfl)
      rw [hclosed i] at hprovider
      cases hprovider

/-- **The blocks of VRAM** belong to the surfaces, in every run in which no exchange fails. -/
theorem vram_blocks_owned {z alloc : VMsvga2Allocator} {e : AccelSetup}
    (hsetup : setupAllocator z e.vram = (.success, alloc)) {as : List Action} {w : World}
    (h : Run World.step (fun w act => w.losesBlock act = false) (.start (.start e alloc)) as w) :
    BlocksOwned w := by
  refine VramBackings.blocksOwned ?_
  refine h.invariant (I := fun w => VramBackings True w.accel w.surfaces) ?_
    (.start True hsetup)
  intro w act w' hw hact hstep
  exact hw.action (fun _ => hact) hstep

/-- The pool of two pages is set up. -/
theorem smallAccel_setup : setupAllocator freshAllocator smallAccel.vram =
    (.success, (setupAllocator freshAllocator twoPages).2) := by
  have hcode : (setupAllocator freshAllocator twoPages).1 = .success := by decide +kernel
  change setupAllocator freshAllocator twoPages = _
  rw [← hcode]

/-- A surface of 16 by 16 pixels that has been locked for reading. -/
def lockSession : List Action :=
  [.start 0 ⟨0x1000, 16, 16, 0x100000, 64⟩ ⟨true, true, false, .success⟩,
    .client 0 (.setIdMode 7 ⟨false, true, .depth8888⟩ .success),
    .client 0 (.setScale (some (⟨0, 0, 16, 16⟩, 16, 16))),
    .client 0 (.readLock true willing),
    .client 0 .readUnlock]

/-- The one block that is live is that of the surface. -/
theorem vram_blocks_owned_session : ∃ w, Run World.step (fun w act => w.losesBlock act = false)
      smallWorld lockSession w ∧ (w.accel.vram.live 0x100000).isSome = true ∧ BlocksOwned w := by
  have heval : (lockSession.foldlM (guarded World.step fun w act => w.losesBlock act = false)
      smallWorld).map (fun w => (w.accel.vram.live 0x100000).isSome) = some true := by
    decide +kernel
  obtain ⟨w, hfold, hlive⟩ := Option.map_eq_some_iff.mp heval
  exact ⟨w, run_of_guarded hfold, hlive, vram_blocks_owned smallAccel_setup (run_of_guarded hfold)⟩

/-- The surface grows beyond VRAM, is locked again and closed. -/
def outgrown : List Action :=
  lockSession ++
    [.client 0 (.setScale (some (⟨0, 0, 64, 64⟩, 64, 64))),
      .client 0 (.readLock true willing),
      .client 0 .close]

/-- The exchange fails, and the block of the surface stays live when all surfaces are closed. -/
theorem vram_block_leaked : ∃ w, Run World.step Always smallWorld outgrown w ∧
    (∀ i, (w.surfaces i).provider = false) ∧ (w.accel.vram.live 0x100000).isSome = true ∧
    ¬ BlocksOwned w := by
  have heval : (outgrown.foldlM (guarded World.step fun w act => w.confined 0 act = true)
      smallWorld).map (fun w => ((w.surfaces 0).provider,
        (w.accel.vram.live 0x100000).isSome)) = some (false, true) := by decide +kernel
  obtain ⟨w, hfold, hend⟩ := Option.map_eq_some_iff.mp heval
  obtain ⟨hprovider, hlive⟩ := Prod.mk.inj hend
  have hrun := run_of_guarded hfold
  have hclosed : ∀ i, (w.surfaces i).provider = false := by
    intro i
    by_cases hi : i = 0
    · rw [hi]
      exact hprovider
    · rw [World.run_frame hrun (fun _ _ h => h) hi]
      rfl
  refine ⟨w, hrun.mono fun _ _ _ => trivial, hclosed, hlive, fun h => ?_⟩
  rw [h.closed hclosed] at hlive
  cases hlive

end DockerMacos
