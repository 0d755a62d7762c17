import DockerMacos.AllocatorFree
import DockerMacos.Run

/-!
# Runs of the Allocator

A run starts after `Init` and is made up of `Release`, `Malloc`, `Realloc` and `Free`
calls and of writes of the clients to their own blocks. It keeps, beside the allocator,
what its clients know: which minimum blocks were released, and which pointers are live,
with the size asked for.

## What the clients promise

`Free` and `Realloc` are called with pointers that are null or live, `Release` with minimum
blocks that were not released before, and a client writes inside its own block. Nothing else is
asked of them: sizes are arbitrary, and every call may fail.

## Two invariants

`AllocInv` is the representation invariant with the contents that the clients' records give:
the live blocks are those at the live pointers, of the size that the request is rounded up to.
`BuddyInvariant` says the same without the parts that only an operation in progress needs, and
is what the run theorem promises.

Coalescing is kept by all calls but `Release`, which may hand over a range in pieces whose
buddies it has handed over before. As long as everything was released at once, `Malloc` fails
only where no aligned run of free minimum blocks is large enough.

## Main results

* `AllocInv.step`: every call keeps the invariant, and but for `Release` the coalescing.
* `allocator_invariant`: the representation invariant along every run.
-/

namespace DockerMacos

open VMsvga2Allocator

/-! ### The transition system -/

/-- A moment of a run. -/
structure AllocRun where
  alloc : VMsvga2Allocator
  /-- Which minimum blocks have been released. -/
  released : ℕ → Bool
  /-- The size asked for, for every live pointer. -/
  live : ℕ → Option ℕ
  /-- What the last call returned. -/
  ret : IOReturn

/-- The calls of a run and the writes of the clients. -/
inductive AllocAction
  | release (first past : ℕ)
  | malloc (bytes : ℕ)
  | realloc (ptr size : ℕ)
  | free (ptr : ℕ)
  /-- A client writes word `i` of its block at `ptr`. -/
  | write (ptr i v : ℕ)

/-- The live pointers after a call that stores a new pointer. -/
def newLive (live : ℕ → Option ℕ) (bytes : ℕ) : IOReturn × Option ℕ → ℕ → Option ℕ
  | (.success, some p) => Function.update live p (some bytes)
  | _ => live

/-- The live pointers after a block has been freed. -/
def freedLive (live : ℕ → Option ℕ) (ptr : ℕ) : IOReturn → ℕ → Option ℕ
  | .success => Function.update live ptr none
  | _ => live

/-- The live pointers after a block has been reallocated. -/
def movedLive (live : ℕ → Option ℕ) (ptr size : ℕ) : IOReturn × Option ℕ → ℕ → Option ℕ
  | (.success, some p) => Function.update (Function.update live ptr none) p (some size)
  | _ => live

/-- The step function. `Free` and `Realloc` are refused on pointers that are neither null
nor live, `Release` on minimum blocks that were released before, and writes outside the
client's own block. -/
def allocStep (r : AllocRun) : AllocAction → Option AllocRun
  | .release first past =>
      if ∀ n < r.alloc.poolBlocks, first / 2 ^ minBits ≤ n → n < past / 2 ^ minBits →
          r.released n = false then
        let (ret, a) := r.alloc.release first past
        some { r with
          alloc := a
          released := fun n => r.released n ||
            (ret = .success && first / 2 ^ minBits ≤ n && n < past / 2 ^ minBits)
          ret := ret }
      else none
  | .malloc bytes =>
      let (ret, a, p) := r.alloc.malloc bytes
      some { r with alloc := a, live := newLive r.live bytes (ret, p), ret := ret }
  | .realloc ptr size =>
      if ptr = 0 ∨ (r.live ptr).isSome then
        let (ret, a, p) := r.alloc.realloc ptr size
        some { r with
          alloc := a
          live :=
            if size = 0 then freedLive r.live ptr ret
            else if ptr = 0 then newLive r.live size (ret, p)
            else movedLive r.live ptr size (ret, p)
          ret := ret }
      else none
  | .free ptr =>
      if ptr = 0 ∨ (r.live ptr).isSome then
        let (ret, a) := r.alloc.free ptr
        some { r with alloc := a, live := freedLive r.live ptr ret, ret := ret }
      else none
  | .write ptr i v =>
      match r.live ptr with
      | some bytes =>
          if i < 2 ^ (minBits + blockBits bytes) / 4 then
            some { r with
              alloc := { r.alloc with
                mem := setWord r.alloc.mem ((ptr - r.alloc.poolStart) / 4 + i) v } }
          else none
      | none => none

/-- The start of a run, after `Init` has left the allocator `a`. -/
def allocStart (a : VMsvga2Allocator) : AllocRun where
  alloc := a
  released := fun _ => false
  live := fun _ => none
  ret := .success

/-! ### The invariant -/

/-- The blocks at the live pointers. -/
def liveBlocks (start : ℕ) (live : ℕ → Option ℕ) : Set Block :=
  {b | ∃ bytes, live (start + b.off * 2 ^ minBits) = some bytes ∧ b.bits = blockBits bytes}

/-- The minimum blocks that were never released. -/
def unreleased (r : AllocRun) : Set ℕ := {n | n < r.alloc.poolBlocks ∧ r.released n = false}

/-- **The invariant of a run.** -/
structure AllocInv (r : AllocRun) (lists : ℕ → List ℕ) : Prop where
  poolStart_ne : r.alloc.poolStart ≠ 0
  rep : RepInv r.alloc (liveBlocks r.alloc.poolStart r.live) lists (unreleased r) ∅ 0
  /-- Every live pointer is the address of a live block. -/
  pointers : ∀ p bytes, r.live p = some bytes → ∃ b : Block,
    p = r.alloc.addr b.off ∧ b.bits = blockBits bytes
  ret : r.ret ≠ .internalError ∧ r.ret ≠ .notAligned

/-- Success is none of the two errors of a damaged pool. -/
theorem success_ne : IOReturn.success ≠ .internalError ∧ IOReturn.success ≠ .notAligned := by
  decide

/-- Two minimum blocks have two addresses. -/
theorem addr_inj {start o o' : ℕ} (h : start + o * 2 ^ minBits = start + o' * 2 ^ minBits) :
    o = o' := Nat.eq_of_mul_eq_mul_right (Nat.two_pow_pos minBits) (Nat.add_left_cancel h)

/-- A block whose address becomes live is added to the live blocks. -/
theorem mem_liveBlocks_update {start bytes : ℕ} {live : ℕ → Option ℕ} {b : Block}
    (hb : b.bits = blockBits bytes)
    (hfresh : ∀ c ∈ liveBlocks start live, c.off ≠ b.off) (c : Block) :
    c ∈ liveBlocks start (Function.update live (start + b.off * 2 ^ minBits) (some bytes)) ↔
      c ∈ insert b (liveBlocks start live) := by
  by_cases hoff : c.off = b.off
  · have hin : c ∈ liveBlocks start
        (Function.update live (start + b.off * 2 ^ minBits) (some bytes)) ↔ c = b := by
      simp only [liveBlocks, Set.mem_ofPred_eq, hoff, Function.update_self, Option.some.injEq]
      constructor
      · rintro ⟨_, rfl, hbits⟩
        exact Block.ext (hbits.trans hb.symm) hoff
      · rintro rfl
        exact ⟨bytes, rfl, hb⟩
    rw [hin, Set.mem_insert_iff]
    exact ⟨.inl, fun h => h.resolve_right fun hc => hfresh c hc hoff⟩
  · have hne : start + c.off * 2 ^ minBits ≠ start + b.off * 2 ^ minBits :=
      fun h => hoff (addr_inj h)
    rw [Set.mem_insert_iff]
    simp only [liveBlocks, Set.mem_ofPred_eq, Function.update_of_ne hne]
    exact ⟨.inr, fun h => h.resolve_left fun hcb => hoff (hcb ▸ rfl)⟩

/-- A block whose address stops being live leaves the live blocks. -/
theorem mem_liveBlocks_erase {start : ℕ} {live : ℕ → Option ℕ} {b : Block}
    (hunique : ∀ c ∈ liveBlocks start live, c.off = b.off → c = b) (c : Block) :
    c ∈ liveBlocks start (Function.update live (start + b.off * 2 ^ minBits) none) ↔
      c ∈ liveBlocks start live \ {b} := by
  by_cases hoff : c.off = b.off
  · simp only [liveBlocks, Set.mem_ofPred_eq, hoff, Function.update_self, reduceCtorEq,
      false_and, exists_false, Set.mem_sdiff, Set.mem_singleton_iff, false_iff, not_and,
      not_not]
    rintro ⟨bytes, hbytes, hbits⟩
    exact hunique c ⟨bytes, hoff ▸ hbytes, hbits⟩ hoff
  · have hne : start + c.off * 2 ^ minBits ≠ start + b.off * 2 ^ minBits :=
      fun h => hoff (addr_inj h)
    simp only [liveBlocks, Set.mem_ofPred_eq, Function.update_of_ne hne, Set.mem_sdiff,
      Set.mem_singleton_iff]
    exact ⟨fun h => ⟨h, fun hcb => hoff (hcb ▸ rfl)⟩, fun h => h.1⟩

/-- What a successful `Init` has checked and what it leaves. -/
theorem init_success {z a : VMsvga2Allocator} {startAddress bytes : ℕ}
    {mapAllocated : Bool} {mem : ℕ → ℕ}
    (hinit : z.init startAddress bytes mapAllocated mem = (.success, a)) :
    bytes < 2 ^ 32 ∧ a =
      { poolStart := startAddress
        poolBlocks := bytes / 2 ^ minBits
        freeList := fun _ => ourNull
        map := fun _ => 0xFF
        freeBytes := 0
        mem := mem } := by
  rw [init] at hinit
  split at hinit
  · cases hinit
  split at hinit
  · cases hinit
  rename_i hbytes
  simp only at hinit
  split at hinit
  · cases hinit
    exact ⟨by omega, rfl⟩
  · cases hinit

/-- `Init` takes no pool whose size in bytes does not fit in 32 bits. -/
theorem init_poolBlocks_lt {z a : VMsvga2Allocator} {startAddress bytes : ℕ}
    {mapAllocated : Bool} {mem : ℕ → ℕ}
    (hinit : z.init startAddress bytes mapAllocated mem = (.success, a)) :
    a.poolBlocks < 2 ^ 20 := by
  obtain ⟨hbytes, rfl⟩ := init_success hinit
  show bytes / 2 ^ minBits < 2 ^ 20
  rw [minBits]
  omega

namespace AllocInv

variable {r t : AllocRun} {lists : ℕ → List ℕ}

/-- The live block at a live pointer. -/
theorem exists_live (h : AllocInv r lists) {p bytes : ℕ} (hp : r.live p = some bytes) :
    ∃ b ∈ liveBlocks r.alloc.poolStart r.live, p = r.alloc.addr b.off ∧
      b.bits = blockBits bytes := by
  obtain ⟨b, rfl, hbits⟩ := h.pointers p bytes hp
  exact ⟨b, ⟨bytes, hp, hbits⟩, rfl, hbits⟩

/-- Only one live block begins at a place. -/
theorem live_unique (h : AllocInv r lists) {b c : Block}
    (hb : b ∈ liveBlocks r.alloc.poolStart r.live)
    (hc : c ∈ liveBlocks r.alloc.poolStart r.live) (hoff : c.off = b.off) : c = b :=
  h.rep.tiling.disjoint c (.inl hc) b (.inl hb) b.off (hoff ▸ c.off_mem) b.off_mem

/-- A call that leaves the allocator as it is, apart from its code. -/
theorem unchanged (h : AllocInv r lists) {e : IOReturn}
    (he : e ≠ .internalError ∧ e ≠ .notAligned) : AllocInv { r with ret := e } lists :=
  ⟨h.poolStart_ne, h.rep, h.pointers, he⟩

/-- A successful allocation. -/
theorem allocated (h : AllocInv r lists) {a : VMsvga2Allocator} {live : ℕ → Option ℕ}
    {lists' : ℕ → List ℕ} {b : Block} {bytes : ℕ} (hbits : b.bits = blockBits bytes)
    (halloc : Allocated r.alloc a (liveBlocks r.alloc.poolStart live) lists lists'
      (unreleased r) b)
    (hpointers : ∀ p bytes, live p = some bytes → ∃ b : Block,
      p = r.alloc.addr b.off ∧ b.bits = blockBits bytes) :
    AllocInv { r with
      alloc := a
      live := Function.update live (r.alloc.addr b.off) (some bytes)
      ret := .success } lists' := by
  have hstart := halloc.poolStart
  have haddr : ∀ o, a.addr o = r.alloc.addr o := fun o => by rw [addr, addr, hstart]
  refine ⟨by rw [hstart]; exact h.poolStart_ne, ?_, fun p n hp => ?_, success_ne⟩
  · have hfresh : ∀ c ∈ liveBlocks r.alloc.poolStart live, c.off ≠ b.off := by
      intro c hc hoff
      have heq := halloc.rep.tiling.disjoint c (.inl (.inr hc)) b (.inl (.inl rfl)) b.off
        (hoff ▸ c.off_mem) b.off_mem
      exact halloc.fresh (heq ▸ hc)
    refine halloc.rep.congrParts (fun c => ?_) (fun n => ?_) fun _ => Iff.rfl
    · simp only [hstart]
      exact mem_liveBlocks_update hbits hfresh c
    · simp only [unreleased, Set.mem_ofPred_eq, halloc.poolBlocks]
  · simp only [haddr]
    by_cases heq : p = r.alloc.addr b.off
    · simp only [heq, Function.update_self, Option.some.injEq] at hp
      exact ⟨b, heq, hp ▸ hbits⟩
    · simp only [Function.update_of_ne heq] at hp
      exact hpointers p n hp

/-- A successful `Free`. -/
theorem freed (h : AllocInv r lists) {p bytes : ℕ} (hp : r.live p = some bytes) :
    ∃ a lists', r.alloc.free p = (.success, a) ∧
      AllocInv { r with alloc := a, live := Function.update r.live p none, ret := .success }
        lists' ∧ a.poolStart = r.alloc.poolStart ∧ a.poolBlocks = r.alloc.poolBlocks ∧
      (Coalesced (numSizes - 1) (freeSet lists) →
        Coalesced (numSizes - 1) (freeSet lists')) := by
  obtain ⟨b, hb, rfl, hbits⟩ := h.exists_live hp
  obtain ⟨a, lists', hfree, hrep, hpool, hstart, hco⟩ := h.rep.free_spec hb h.poolStart_ne
  have haddr : ∀ o, a.addr o = r.alloc.addr o := fun o => by rw [addr, addr, hstart]
  refine ⟨a, lists', hfree, ⟨by rw [hstart]; exact h.poolStart_ne, ?_, fun q n hq => ?_,
    success_ne⟩, hstart, hpool, hco⟩
  · refine hrep.congrParts (fun c => ?_) (fun n => ?_) fun _ => Iff.rfl
    · simp only [hstart]
      exact mem_liveBlocks_erase (fun c hc => h.live_unique hb hc) c
    · simp only [unreleased, Set.mem_ofPred_eq, hpool]
  · simp only [haddr]
    by_cases heq : q = r.alloc.addr b.off
    · simp only [heq, Function.update_self, reduceCtorEq] at hq
    · simp only [Function.update_of_ne heq] at hq
      exact h.pointers q n hq

/-- `Malloc`. -/
theorem malloc (h : AllocInv r lists) {bytes : ℕ}
    (hstep : allocStep r (.malloc bytes) = some t) :
    ∃ lists', AllocInv t lists' ∧ (Coalesced (numSizes - 1) (freeSet lists) →
      Coalesced (numSizes - 1) (freeSet lists')) := by
  simp only [allocStep] at hstep
  rcases h.rep.malloc_spec bytes with ⟨e, heq, he, -⟩ | ⟨b, a, lists', heq, hbits, halloc⟩
  · simp only [heq] at hstep
    cases hstep
    refine ⟨lists, ?_, id⟩
    have hlive : newLive r.live bytes (e, none) = r.live := by
      rcases he with rfl | rfl <;> rfl
    rw [hlive]
    exact h.unchanged (by rcases he with rfl | rfl <;> decide)
  · simp only [heq] at hstep
    cases hstep
    exact ⟨lists', h.allocated hbits halloc h.pointers, halloc.coalesced⟩

/-- The null pointer is never live. -/
theorem live_zero (h : AllocInv r lists) : r.live 0 = none := by
  cases hp : r.live 0 with
  | none => rfl
  | some bytes =>
      obtain ⟨b, hb, -⟩ := h.pointers 0 bytes hp
      have := h.poolStart_ne
      rw [addr] at hb
      omega

/-- `Free` of a null or live pointer, from whichever call. -/
theorem free_ptr (h : AllocInv r lists) {ptr : ℕ}
    (hptr : ptr = 0 ∨ (r.live ptr).isSome = true) :
    ∃ a lists', r.alloc.free ptr = (.success, a) ∧
      AllocInv { r with alloc := a, live := Function.update r.live ptr none, ret := .success }
        lists' ∧ a.poolStart = r.alloc.poolStart ∧ a.poolBlocks = r.alloc.poolBlocks ∧
      (Coalesced (numSizes - 1) (freeSet lists) →
        Coalesced (numSizes - 1) (freeSet lists')) := by
  rcases hptr with rfl | hsome
  · refine ⟨r.alloc, lists, if_pos rfl, ?_, rfl, rfl, id⟩
    have hlive : Function.update r.live 0 none = r.live := by
      rw [← h.live_zero, Function.update_eq_self]
    rw [hlive]
    exact h.unchanged success_ne
  · obtain ⟨bytes, hbytes⟩ := Option.isSome_iff_exists.mp hsome
    exact h.freed hbytes

/-- `Free`. -/
theorem free (h : AllocInv r lists) {ptr : ℕ} (hstep : allocStep r (.free ptr) = some t) :
    ∃ lists', AllocInv t lists' ∧ (Coalesced (numSizes - 1) (freeSet lists) →
      Coalesced (numSizes - 1) (freeSet lists')) := by
  simp only [allocStep] at hstep
  split at hstep
  · rename_i hptr
    obtain ⟨a, lists', hfree, hinv, -, -, hco⟩ := h.free_ptr hptr
    simp only [hfree] at hstep
    cases hstep
    exact ⟨lists', hinv, hco⟩
  · cases hstep

/-- `Realloc`. -/
theorem realloc (h : AllocInv r lists) {ptr size : ℕ}
    (hstep : allocStep r (.realloc ptr size) = some t) :
    ∃ lists', AllocInv t lists' ∧ (Coalesced (numSizes - 1) (freeSet lists) →
      Coalesced (numSizes - 1) (freeSet lists')) := by
  simp only [allocStep] at hstep
  split at hstep
  · rename_i hptr
    by_cases hsize : size = 0
    · -- a reallocation to nothing frees
      subst hsize
      obtain ⟨a, lists', hfree, hinv, -, -, hco⟩ := h.free_ptr hptr
      have hre : r.alloc.realloc ptr 0 = (.success, a, none) := by
        rw [VMsvga2Allocator.realloc, if_pos rfl, hfree]
      simp only [hre, if_true] at hstep
      cases hstep
      exact ⟨lists', hinv, hco⟩
    by_cases hzero : ptr = 0
    · -- a reallocation of nothing allocates
      subst hzero
      have hre : r.alloc.realloc 0 size = r.alloc.malloc size := by
        rw [VMsvga2Allocator.realloc, if_neg hsize, if_pos rfl]
      simp only [hre, hsize, if_true, if_false] at hstep
      exact h.malloc hstep
    · obtain ⟨bytes, hbytes⟩ := Option.isSome_iff_exists.mp (hptr.resolve_left hzero)
      obtain ⟨b, hb, rfl, -⟩ := h.exists_live hbytes
      rcases h.rep.realloc_spec hb h.poolStart_ne hsize with ⟨e, heq, he⟩ |
        ⟨c, a, lists', heq, hbits, halloc⟩
      · simp only [heq, hsize, hzero, if_false] at hstep
        cases hstep
        refine ⟨lists, ?_, id⟩
        have hlive : movedLive r.live (r.alloc.addr b.off) size (e, none) = r.live := by
          rcases he with rfl | rfl <;> rfl
        rw [hlive]
        exact h.unchanged (by rcases he with rfl | rfl <;> decide)
      · simp only [heq, hsize, hzero, if_false] at hstep
        cases hstep
        have hset : liveBlocks r.alloc.poolStart (Function.update r.live (r.alloc.addr b.off)
            none) = liveBlocks r.alloc.poolStart r.live \ {b} :=
          Set.ext (mem_liveBlocks_erase fun c hc => h.live_unique hb hc)
        rw [← hset] at halloc
        refine ⟨lists', h.allocated hbits halloc fun p n hp => ?_, halloc.coalesced⟩
        by_cases heq : p = r.alloc.addr b.off
        · simp only [heq, Function.update_self, reduceCtorEq] at hp
        · rw [Function.update_of_ne heq] at hp
          exact h.pointers p n hp
  · cases hstep

/-- The words that a client may write lie in its block. -/
theorem word_mem_cells {s : VMsvga2Allocator} {b : Block} {bytes i : ℕ}
    (hbits : b.bits = blockBits bytes) (hi : i < 2 ^ (minBits + blockBits bytes) / 4) :
    pageOf ((s.addr b.off - s.poolStart) / 4 + i) ∈ b.cells := by
  have hpow : 2 ^ (minBits + blockBits bytes) / 4 = 2 ^ b.bits * 1024 := by
    rw [hbits, pow_add, show 2 ^ minBits = 4 * 1024 from rfl, Nat.mul_assoc,
      Nat.mul_div_cancel_left _ (by decide), Nat.mul_comm]
  have hoff : b.off * 2 ^ minBits / 4 = b.off * 1024 := by
    rw [show 2 ^ minBits = 1024 * 4 from rfl, ← Nat.mul_assoc,
      Nat.mul_div_cancel _ (by decide)]
  rw [hpow] at hi
  rw [addr, Nat.add_sub_cancel_left, hoff, Block.mem_cells, Block.past, pageOf]
  omega

/-- A client's write inside its own block. -/
theorem write (h : AllocInv r lists) {ptr i v : ℕ}
    (hstep : allocStep r (.write ptr i v) = some t) : AllocInv t lists := by
  simp only [allocStep] at hstep
  split at hstep
  · rename_i bytes hbytes
    split at hstep
    · rename_i hi
      cases hstep
      obtain ⟨b, hb, rfl, hbits⟩ := h.exists_live hbytes
      refine ⟨h.poolStart_ne, ?_, h.pointers, h.ret⟩
      refine h.rep.writeMem fun c hc j hj => ?_
      rw [setWord_apply, if_neg]
      rintro rfl
      exact h.rep.live_not_free hb hc (word_mem_cells hbits hi) hj
    · cases hstep
  · cases hstep

/-- `Release` of minimum blocks that were never released: it is refused when the range is
not aligned or not in the pool, and else cut into free blocks. -/
theorem released (h : AllocInv r lists) (first past : ℕ)
    (hrange : ∀ n < r.alloc.poolBlocks, first / 2 ^ minBits ≤ n → n < past / 2 ^ minBits →
      r.released n = false) :
    (r.alloc.release first past = (.badArgument, r.alloc) ∧ (first % 2 ^ minBits ≠ 0 ∨
      past % 2 ^ minBits ≠ 0 ∨ r.alloc.poolBlocks ≤ first / 2 ^ minBits ∨
      r.alloc.poolBlocks < past / 2 ^ minBits)) ∨
    ∃ a lists', r.alloc.release first past = (.success, a) ∧
      AllocInv { r with
        alloc := a
        released := fun n => r.released n ||
          (first / 2 ^ minBits ≤ n && n < past / 2 ^ minBits)
        ret := .success } lists' ∧
      a.poolBlocks = r.alloc.poolBlocks ∧
      Cut (first / 2 ^ minBits) (past / 2 ^ minBits) lists lists' := by
  rcases h.rep.release_spec fun n h₁ h₂ hn => ⟨hn, hrange n hn h₁ h₂⟩ with hrefused |
    ⟨a, lists', heq, hrep, hpool, hstart, hpast, hcut⟩
  · exact .inl hrefused
  · refine .inr ⟨a, lists', heq, ⟨by rw [hstart]; exact h.poolStart_ne, ?_, fun p n hp => ?_,
      success_ne⟩, hpool, hcut⟩
    · simp only [hstart]
      refine hrep.congrParts (fun _ => Iff.rfl) (fun n => ?_) fun _ => Iff.rfl
      simp only [unreleased, Set.mem_ofPred_eq, hpool]
      simp [and_assoc]
    · obtain ⟨b, hb⟩ := h.pointers p n hp
      exact ⟨b, by rw [addr, hstart]; exact hb.1, hb.2⟩

/-- `Release`. -/
theorem release (h : AllocInv r lists) {first past : ℕ}
    (hstep : allocStep r (.release first past) = some t) : ∃ lists', AllocInv t lists' := by
  simp only [allocStep] at hstep
  split at hstep
  · rename_i hguard
    rcases h.released first past hguard with ⟨heq, -⟩ | ⟨a, lists', heq, hinv, -⟩
    · simp only [heq] at hstep
      cases hstep
      refine ⟨lists, ⟨h.poolStart_ne, ?_, h.pointers, (by decide :
        IOReturn.badArgument ≠ .internalError ∧ IOReturn.badArgument ≠ .notAligned)⟩⟩
      refine h.rep.congrParts (fun _ => Iff.rfl) (fun n => ?_) fun _ => Iff.rfl
      simp [unreleased]
    · simp only [heq] at hstep
      cases hstep
      exact ⟨lists', hinv⟩
  · cases hstep

/-- **Step lemma.** Every call keeps the invariant, and but for `Release` it keeps the free
blocks coalesced. -/
theorem step (h : AllocInv r lists) {a : AllocAction} (hstep : allocStep r a = some t) :
    ∃ lists', AllocInv t lists' ∧ ((∀ first past, a ≠ .release first past) →
      Coalesced (numSizes - 1) (freeSet lists) →
      Coalesced (numSizes - 1) (freeSet lists')) := by
  cases a with
  | release first past =>
      obtain ⟨lists', hinv⟩ := h.release hstep
      exact ⟨lists', hinv, fun hne => absurd rfl (hne first past)⟩
  | malloc bytes =>
      obtain ⟨lists', hinv, hco⟩ := h.malloc hstep
      exact ⟨lists', hinv, fun _ => hco⟩
  | realloc ptr size =>
      obtain ⟨lists', hinv, hco⟩ := h.realloc hstep
      exact ⟨lists', hinv, fun _ => hco⟩
  | free ptr =>
      obtain ⟨lists', hinv, hco⟩ := h.free hstep
      exact ⟨lists', hinv, fun _ => hco⟩
  | write ptr i v => exact ⟨lists, h.write hstep, fun _ => id⟩

/-- The invariant holds after a successful `Init`: nothing is live, nothing is free. -/
theorem start {z a : VMsvga2Allocator} {startAddress bytes : ℕ} {mapAllocated : Bool}
    {mem : ℕ → ℕ} (hstart : startAddress ≠ 0)
    (hinit : z.init startAddress bytes mapAllocated mem = (.success, a)) :
    AllocInv (allocStart a) fun _ => [] := by
  have hlt := init_poolBlocks_lt hinit
  obtain ⟨-, rfl⟩ := init_success hinit
  have hset : ∀ n, bitTest (fun _ => 0xFF#8) n = true := fun n =>
    byte_eq_ones_iff.mp rfl n rfl
  have hlive : ∀ b, b ∉ liveBlocks startAddress fun _ => none := by
    rintro b ⟨_, hb, -⟩
    cases hb
  have hfree : ∀ b, b ∉ freeSet fun _ => [] := fun b hb => List.not_mem_nil hb.2
  have hpointers : ∀ p n, (fun _ : ℕ => (none : Option ℕ)) p = some n → False :=
    fun _ _ hp => by cases hp
  have hnone : ∀ b, b ∉ liveBlocks startAddress (fun _ => none) ∪ freeSet fun _ => [] :=
    fun b hb => hb.elim (hlive b) (hfree b)
  refine ⟨hstart, ?_, fun p n hp => (hpointers p n hp).elim, success_ne⟩
  constructor
  case poolBlocks_lt => exact hlt
  case live_bits => exact fun b hb => absurd hb (hlive b)
  case aligned => exact fun k _ o ho => absurd ho List.not_mem_nil
  case nodup => exact fun _ _ => List.nodup_nil
  case tiling =>
    constructor
    · exact fun b hb => absurd hb (hnone b)
    · exact fun b hb => absurd hb (hnone b)
    · exact fun b hb => absurd hb (hnone b)
    · exact fun n hn => .inl (.inl ⟨hn, rfl⟩)
  case live_free => exact fun b hb => absurd hb (hlive b)
  case hand_unrel => exact fun n hn => absurd hn (Set.notMem_empty n)
  case ends => exact fun n hn => ⟨fun _ => .inl ⟨hn, rfl⟩, fun _ => hset n⟩
  case linked => exact fun _ _ => rfl
  case magic => exact fun b hb => absurd hb (hfree b)
  case trailer => exact fun b hb => absurd hb (hfree b)
  case freeBytes =>
    show 0 = (listBytes (fun _ => []) + 0) % 2 ^ 32
    simp [listBytes]

end AllocInv

/-! ### The representation invariant along runs -/

/-- **The representation invariant of the buddy allocator**, in the terms of its clients.
`lists` are the contents of the free lists. -/
structure BuddyInvariant (r : AllocRun) (lists : ℕ → List ℕ) : Prop where
  /-- The live blocks, the blocks on the free lists and the never released minimum blocks
  are pairwise disjoint and cover the pool. A `Block` starts at a multiple of its size. -/
  partition : Tiling r.alloc.poolBlocks
    (liveBlocks r.alloc.poolStart r.live ∪ freeSet lists) (unreleased r)
  live_free : ∀ b ∈ liveBlocks r.alloc.poolStart r.live, b ∉ freeSet lists
  sizes : ∀ b ∈ liveBlocks r.alloc.poolStart r.live ∪ freeSet lists, b.bits < numSizes
  /-- Every live pointer is the address of a live block of the rounded size, and
  `BuddyAllocSize` returns that size. -/
  pointers : ∀ p bytes, r.live p = some bytes →
    (∃ b ∈ liveBlocks r.alloc.poolStart r.live, p = r.alloc.addr b.off ∧
      b.bits = blockBits bytes) ∧
    r.alloc.buddyAllocSize p = .ok (blockBits bytes)
  /-- Every free list is a doubly linked list, from its head to `OURNULL`. -/
  linked : ∀ k < numSizes,
    Linked r.alloc.prevOf r.alloc.nextOf ourNull ourNull (r.alloc.freeList k) (lists k)
  nodup : ∀ k < numSizes, (lists k).Nodup
  /-- The entries of a free list are blocks of its own size. -/
  entries : ∀ k < numSizes, ∀ o ∈ lists k, ∃ b ∈ freeSet lists, b.bits = k ∧ b.off = o
  magic : ∀ b ∈ freeSet lists, r.alloc.magicOf b.off = allocMagic
  trailer : ∀ b ∈ freeSet lists, r.alloc.bitsBefore b.past = b.bits + lenOffset
  freeBytes : r.alloc.freeBytes = listBytes lists
  ret : r.ret ≠ .internalError ∧ r.ret ≠ .notAligned

/-- The invariant of a run says all that a buddy allocator promises. -/
theorem AllocInv.buddyInvariant {r : AllocRun} {lists : ℕ → List ℕ} (h : AllocInv r lists) :
    BuddyInvariant r lists where
  partition := Set.union_empty (unreleased r) ▸ h.rep.tiling
  live_free := h.rep.live_free
  sizes b hb := hb.elim (h.rep.live_bits b) fun hb => hb.1
  pointers p bytes hp := by
    obtain ⟨b, hb, rfl, hbits⟩ := h.exists_live hp
    refine ⟨⟨b, hb, rfl, hbits⟩, ?_⟩
    rw [h.rep.buddyAllocSize_live hb, hbits]
  linked := h.rep.linked
  nodup := h.rep.nodup
  entries _ hk _ ho := h.rep.exists_block hk ho
  magic := h.rep.magic
  trailer := h.rep.trailer
  freeBytes := h.rep.freeBytes_eq
  ret := h.ret

/-- **The representation invariant along every run**: after `Init` of a pool at a non-null
address, any calls of `Release` on minimum blocks not released before, and of `Malloc`,
`Realloc` and `Free` on live pointers, leave the invariant. -/
theorem allocator_invariant {z a : VMsvga2Allocator} {startAddress bytes : ℕ}
    {mapAllocated : Bool} {mem : ℕ → ℕ} (hstart : startAddress ≠ 0)
    (hinit : z.init startAddress bytes mapAllocated mem = (.success, a))
    {as : List AllocAction} {t : AllocRun} (hrun : Run allocStep Always (allocStart a) as t) :
    ∃ lists, BuddyInvariant t lists := by
  have hinv : ∃ lists, AllocInv t lists := by
    refine hrun.invariant (I := fun t => ∃ lists, AllocInv t lists) ?_
      ⟨_, AllocInv.start hstart hinit⟩
    rintro r act u ⟨lists, h⟩ - hstep
    obtain ⟨lists', h', -⟩ := h.step hstep
    exact ⟨lists', h'⟩
  obtain ⟨lists, h⟩ := hinv
  exact ⟨lists, h.buddyInvariant⟩

/-- An allocator before `Init`. -/
def freshAllocator : VMsvga2Allocator where
  poolStart := 0
  poolBlocks := 0
  freeList := fun _ => 0
  map := fun _ => 0
  freeBytes := 0
  mem := fun _ => 0

/-- The invariant after a pool of two pages has been released and one page allocated. -/
theorem allocator_invariant_two_pages :
    ∃ t lists, Run allocStep Always
        (allocStart (freshAllocator.init 0x100000 0x2000 true fun _ => 0).2)
        [.release 0 0x2000, .malloc 0x1000] t ∧ BuddyInvariant t lists := by
  have hguard : ∀ n < 2, 0 / 2 ^ minBits ≤ n → n < 0x2000 / 2 ^ minBits →
      (fun _ : ℕ => false) n = false := fun _ _ _ _ => rfl
  have hrun : ∃ t, Run allocStep Always
      (allocStart (freshAllocator.init 0x100000 0x2000 true fun _ => 0).2)
      [.release 0 0x2000, .malloc 0x1000] t :=
    ⟨_, Run.cons trivial (if_pos (e := none) hguard) (Run.single trivial rfl)⟩
  obtain ⟨t, hrun⟩ := hrun
  have hinit : freshAllocator.init 0x100000 0x2000 true (fun _ => 0) = (.success, _) := rfl
  obtain ⟨lists, h⟩ := allocator_invariant (by decide) hinit hrun
  exact ⟨t, lists, hrun, h⟩

/-! ### Completeness -/

/-- A minimum block that has been released and lies in no live block. -/
def EntirelyFree (r : AllocRun) (n : ℕ) : Prop :=
  r.released n = true ∧ ∀ b ∈ liveBlocks r.alloc.poolStart r.live, n ∉ b.cells

/-- **Completeness**, from the invariant with coalesced free blocks: `Malloc` fails only when
no aligned run of free minimum blocks of the rounded size exists. -/
theorem AllocInv.malloc_of_free {r : AllocRun} {lists : ℕ → List ℕ} (h : AllocInv r lists)
    (hco : Coalesced (numSizes - 1) (freeSet lists)) {bytes : ℕ}
    (hfail : (r.alloc.malloc bytes).1 ≠ .success) (hbits : blockBits bytes < numSizes)
    (b : Block) (hb : b.bits = blockBits bytes) (hpast : b.past ≤ r.alloc.poolBlocks) :
    ∃ n ∈ b.cells, ¬ EntirelyFree r n := by
  by_contra hfree
  have hall : ∀ n ∈ b.cells, ∃ c ∈ freeSet lists, n ∈ c.cells := by
    intro n hn
    have hfn : EntirelyFree r n := by
      by_contra hnot
      exact hfree ⟨n, hn, hnot⟩
    obtain ⟨hrel, hlive⟩ := hfn
    rcases h.rep.tiling.cover n (lt_of_lt_of_le hn.2 hpast) with (hu | hh) | ⟨c, hc | hc, hnc⟩
    · rw [hu.2] at hrel
      cases hrel
    · exact absurd hh (Set.notMem_empty n)
    · exact absurd hnc (hlive c hc)
    · exact ⟨c, hc, hnc⟩
  obtain ⟨c, hc, h₁, h₂⟩ := hco.exists_superset (blockBits bytes) (by omega) b hb hall
  have hle := Block.bits_le_of_subset h₁ h₂
  rcases h.rep.malloc_spec bytes with ⟨e, -, -, hempty⟩ | ⟨d, s', lists', heq, -⟩
  · have hc' := hc.2
    rw [hempty c.bits (by omega) hc.1] at hc'
    exact List.not_mem_nil hc'
  · rw [heq] at hfail
    exact hfail rfl

end DockerMacos
