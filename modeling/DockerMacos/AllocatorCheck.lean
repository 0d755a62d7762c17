import DockerMacos.BitmapScans
import DockerMacos.Vram

/-!
# The Self-Check of the Allocator

`Check` (`AC/VMsvga2Allocator.cpp`) walks the free lists through memory that the clients of
the pool may have overwritten. It follows at most as many links as blocks of the size fit
the pool, tests what it finds at every block, and compares the sum of the sizes with
`freeBytes`.

## Two questions

What does a success mean? The pool may hold anything, so the answer cannot come from the
invariant of the allocator: `check_success_iff` is about any memory. It says what the tests of
the source say, in the terms of lists: of the place of a block only the first minimum block is
compared with the pool, and the bits of a block are read by `testAny`, which does not see the
last whole byte of a range.

Can it fail without cause? Here the invariant does answer: in every state of every run the free
lists are what `Check` wants (`check_reachable`). Of `Release` the runs demand that no minimum
block is released twice; a second release of a range is not refused by the source, and `Check`
does find the damage afterwards.

## Main results

* `check_success_iff`: on any memory, what the check accepts, and what it then counts.
* `check_reachable`: the check succeeds in every state of every run of the allocator, whose
  `Release` calls are of minimum blocks that were not released before.
-/

namespace DockerMacos

namespace VMsvga2Allocator

/-- The inner loop of `Check`, on the free list of one size; the first argument counts the
links it may still follow. The result is the block number where it stops, `blocksSeen` and
`seenStore`, and `none` where it returns `kIOReturnInternalError`. -/
def checkList (s : VMsvga2Allocator) (size : ℕ) : ℕ → ℕ → ℕ → ℕ → ℕ → Option (ℕ × ℕ × ℕ)
  | 0, offset, _, blocksSeen, seenStore => some (offset, blocksSeen, seenStore)
  | left + 1, offset, prevOffset, blocksSeen, seenStore =>
      if offset = ourNull then some (offset, blocksSeen, seenStore)
      else if offset ≥ s.poolBlocks then none
      else if s.testAny offset (offset + 2 ^ size) then none
      else if s.magicOf offset ≠ allocMagic then none
      else if s.prevOf offset ≠ prevOffset then none
      else if s.bitsBefore (offset + 2 ^ size) ≠ size + lenOffset then none
      else
        checkList s size left (s.nextOf offset) offset (blocksSeen + 1)
          (add32 seenStore (2 ^ size))

/-- The outer loop of `Check`, from `size` on; the first argument counts the sizes left.
The list holds what has been stored in `counts`. -/
def checkSizes (s : VMsvga2Allocator) : ℕ → ℕ → ℕ → List ℕ → IOReturn × List ℕ
  | 0, _, seenStore, counts =>
      (if shl32 seenStore minBits ≠ s.freeBytes then .internalError else .success, counts)
  | left + 1, size, seenStore, counts =>
      match s.checkList size (s.poolBlocks / 2 ^ size) (s.freeList size) ourNull 0 seenStore with
      | none => (.internalError, counts)
      | some (offset, blocksSeen, seenStore) =>
          if offset ≠ ourNull then (.internalError, counts)
          else checkSizes s left (size + 1) seenStore (counts ++ [blocksSeen])

/-- `Check`: its code, and what it has stored in `counts`. -/
def check (s : VMsvga2Allocator) : IOReturn × List ℕ := s.checkSizes numSizes 0 0 []

/-- What `Check` tests at one block of a free list, apart from its links. Of the place in the
pool, it tests the first minimum block; and it reads the bitmap with `testAny`, which looks at
both ends of a range but not at all of the bytes between. -/
structure SoundBlock (s : VMsvga2Allocator) (size o : ℕ) : Prop where
  first_inside : o < s.poolBlocks
  tested_clear : s.testAny o (o + 2 ^ size) = false
  magic : s.magicOf o = allocMagic
  trailer : s.bitsBefore (o + 2 ^ size) = size + lenOffset

/-- The free list of one size as `Check` wants it. -/
structure SoundList (s : VMsvga2Allocator) (size : ℕ) (l : List ℕ) : Prop where
  linked : Linked s.prevOf s.nextOf ourNull ourNull (s.freeList size) l
  length_le : l.length ≤ s.poolBlocks / 2 ^ size
  blocks : ∀ o ∈ l, s.SoundBlock size o

variable {s : VMsvga2Allocator} {size : ℕ}

/-! ### One free list -/

/-- The sum that the loops build up, modulo `2 ^ 32`. -/
theorem add32_mod (a b : ℕ) : add32 (a % 2 ^ 32) b = (a + b) % 2 ^ 32 := Nat.mod_add_mod a _ b

/-- A step of the inner loop at a block that passes. -/
theorem checkList_step {left o p seen store : ℕ} (hne : o ≠ ourNull) (hsound : s.SoundBlock size o)
    (hprev : s.prevOf o = p) :
    s.checkList size (left + 1) o p seen store =
      s.checkList size left (s.nextOf o) o (seen + 1) (add32 store (2 ^ size)) := by
  obtain ⟨hin, hclear, hmagic, htrailer⟩ := hsound
  rw [checkList, if_neg hne, if_neg (by omega), if_neg (by simp [hclear]),
    if_neg (not_not.mpr hmagic), if_neg (not_not.mpr hprev), if_neg (not_not.mpr htrailer)]

/-- What a loop that goes on from a block has found there. -/
theorem sound_of_checkList {left o p seen store : ℕ} {r : ℕ × ℕ × ℕ} (hne : o ≠ ourNull)
    (h : s.checkList size (left + 1) o p seen store = some r) :
    s.SoundBlock size o ∧ s.prevOf o = p := by
  rw [checkList, if_neg hne] at h
  split at h
  · cases h
  rename_i hin
  split at h
  · cases h
  rename_i hclear
  split at h
  · cases h
  rename_i hmagic
  split at h
  · cases h
  rename_i hprev
  split at h
  · cases h
  rename_i htrailer
  exact ⟨⟨by omega, by simpa using hclear, not_not.mp hmagic, not_not.mp htrailer⟩,
    not_not.mp hprev⟩

/-- The inner loop comes to the end of a list of sound blocks. -/
theorem checkList_of_linked {left o p : ℕ} {l : List ℕ} (seen store : ℕ)
    (hlinked : Linked s.prevOf s.nextOf ourNull p o l) (hlen : l.length ≤ left)
    (hblocks : ∀ x ∈ l, s.SoundBlock size x) :
    s.checkList size left o p seen (store % 2 ^ 32) =
      some (ourNull, seen + l.length, (store + l.length * 2 ^ size) % 2 ^ 32) := by
  induction l generalizing left o p seen store with
  | nil =>
      obtain rfl : o = ourNull := hlinked
      rw [List.length_nil, Nat.add_zero, Nat.zero_mul, Nat.add_zero]
      cases left with
      | zero => rfl
      | succ left => rw [checkList, if_pos rfl]
  | cons x l ih =>
      obtain ⟨rfl, hne, hprev, hrest⟩ := hlinked
      cases left with
      | zero => simp at hlen
      | succ left =>
          rw [checkList_step hne (hblocks o List.mem_cons_self) hprev, add32_mod,
            ih (seen + 1) (store + 2 ^ size) hrest (by simpa using hlen)
              fun y hy => hblocks y (List.mem_cons_of_mem _ hy),
            List.length_cons, Nat.succ_mul]
          congr 3 <;> omega

/-- Where the inner loop reaches the null block number, it has followed a list of sound
blocks. -/
theorem linked_of_checkList {left o p seen store : ℕ} {r : ℕ × ℕ}
    (h : s.checkList size left o p seen store = some (ourNull, r)) :
    ∃ l, Linked s.prevOf s.nextOf ourNull p o l ∧ l.length ≤ left ∧
      ∀ x ∈ l, s.SoundBlock size x := by
  induction left generalizing o p seen store with
  | zero =>
      cases h
      exact ⟨[], rfl, le_rfl, by simp⟩
  | succ left ih =>
      by_cases hne : o = ourNull
      · exact ⟨[], hne, Nat.zero_le _, by simp⟩
      obtain ⟨hsound, hprev⟩ := sound_of_checkList hne h
      rw [checkList_step hne hsound hprev] at h
      obtain ⟨l, hlinked, hlen, hblocks⟩ := ih h
      exact ⟨o :: l, ⟨rfl, hne, hprev, hlinked⟩, by simpa using hlen, by
        simpa using ⟨hsound, hblocks⟩⟩

/-! ### All free lists -/

/-- The blocks of the sizes from `size` on, in minimum blocks. -/
def storeFrom (lists : ℕ → List ℕ) (left size : ℕ) : ℕ :=
  ∑ i ∈ Finset.range left, (lists (size + i)).length * 2 ^ (size + i)

/-- The blocks of the first size, and those of the later ones. -/
theorem storeFrom_succ (lists : ℕ → List ℕ) (left size : ℕ) :
    storeFrom lists (left + 1) size =
      (lists size).length * 2 ^ size + storeFrom lists left (size + 1) := by
  rw [storeFrom, storeFrom, Finset.sum_range_succ', Nat.add_zero, Nat.add_comm]
  congr 1
  refine Finset.sum_congr rfl fun i _ => ?_
  rw [show size + (i + 1) = size + 1 + i by omega]

/-- The outer loop on lists that are all sound. -/
theorem checkSizes_of_sound {lists : ℕ → List ℕ} (left size store : ℕ) (counts : List ℕ)
    (h : ∀ k, size ≤ k → k < size + left → s.SoundList k (lists k)) :
    s.checkSizes left size (store % 2 ^ 32) counts =
      (if shl32 ((store + storeFrom lists left size) % 2 ^ 32) minBits ≠ s.freeBytes then
        .internalError else .success,
      counts ++ (List.range' size left).map fun k => (lists k).length) := by
  induction left generalizing size store counts with
  | zero => simp [checkSizes, storeFrom]
  | succ left ih =>
      have hsize := h size le_rfl (by omega)
      rw [checkSizes, checkList_of_linked 0 store hsize.linked hsize.length_le hsize.blocks]
      simp only [ne_eq, not_true_eq_false, if_false]
      rw [ih (size + 1) _ _ fun k h₁ h₂ => h k (by omega) (by omega), storeFrom_succ,
        Nat.add_assoc]
      simp [List.range'_succ]

/-- An outer loop that succeeds has found every list sound. -/
theorem sound_of_checkSizes {left size store : ℕ} {counts counts' : List ℕ}
    (h : s.checkSizes left size store counts = (.success, counts')) (k : ℕ) (h₁ : size ≤ k)
    (h₂ : k < size + left) : ∃ l, s.SoundList k l := by
  induction left generalizing size store counts with
  | zero => omega
  | succ left ih =>
      rw [checkSizes] at h
      split at h
      · cases h
      · rename_i offset seen store' hlist
        split at h
        · cases h
        · rename_i hnull
          obtain rfl := not_not.mp hnull
          by_cases hk : k = size
          · obtain ⟨l, hlinked, hlen, hblocks⟩ := linked_of_checkList hlist
            exact ⟨l, hk ▸ ⟨hlinked, hlen, hblocks⟩⟩
          · exact ih h (by omega) (by omega)

/-- The bytes on the free lists, from the count of minimum blocks. -/
theorem shl32_storeFrom (lists : ℕ → List ℕ) :
    shl32 ((0 + storeFrom lists numSizes 0) % 2 ^ 32) minBits = listBytes lists % 2 ^ 32 := by
  have hsum : listBytes lists = storeFrom lists numSizes 0 * 2 ^ minBits := by
    rw [listBytes, storeFrom, Finset.sum_mul]
    refine Finset.sum_congr rfl fun k _ => ?_
    rw [Nat.zero_add, mul_assoc, ← pow_add]
  rw [hsum, shl32, Nat.zero_add, Nat.mod_mul_mod]

/-- The whole check on lists that are all sound. -/
theorem check_of_sound {lists : ℕ → List ℕ} (h : ∀ k < numSizes, s.SoundList k (lists k)) :
    s.check = (if listBytes lists % 2 ^ 32 = s.freeBytes then .success else .internalError,
      (List.range numSizes).map fun k => (lists k).length) := by
  have hrun := s.checkSizes_of_sound numSizes 0 0 [] fun k _ hk => h k (by omega)
  rw [Nat.zero_mod, shl32_storeFrom, List.nil_append, ← List.range_eq_range', ite_not] at hrun
  exact hrun

/-- A sound list has no cycle: the null block number is not on it. -/
theorem SoundList.nodup {l : List ℕ} (h : s.SoundList size l) : l.Nodup :=
  h.linked.nodup fun hnull => h.linked.ne_null ourNull hnull rfl

/-- **What `Check` accepts**, on any memory: it succeeds exactly when every free list runs
through distinct blocks that pass its tests, right in both directions, to the null block
number, has no more blocks than fit the pool, and the lists have `freeBytes` bytes together. It
then counts the blocks of every list. -/
theorem check_success_iff (s : VMsvga2Allocator) (counts : List ℕ) :
    s.check = (.success, counts) ↔ ∃ lists : ℕ → List ℕ,
      (∀ k < numSizes, s.SoundList k (lists k) ∧ (lists k).Nodup) ∧
      listBytes lists % 2 ^ 32 = s.freeBytes ∧
      counts = (List.range numSizes).map fun k => (lists k).length := by
  constructor
  · intro h
    have hall : ∀ k, ∃ l, k < numSizes → s.SoundList k l := by
      intro k
      by_cases hk : k < numSizes
      · obtain ⟨l, hl⟩ := sound_of_checkSizes h k (Nat.zero_le k) (by omega)
        exact ⟨l, fun _ => hl⟩
      · exact ⟨[], fun hlt => absurd hlt hk⟩
    choose lists hlists using hall
    rw [check_of_sound hlists] at h
    obtain ⟨hcode, hcounts⟩ := Prod.mk.inj h
    refine ⟨lists, fun k hk => ⟨hlists k hk, (hlists k hk).nodup⟩, ?_, hcounts.symm⟩
    by_contra hne
    rw [if_neg hne] at hcode
    cases hcode
  · rintro ⟨lists, hlists, hbytes, rfl⟩
    rw [check_of_sound fun k hk => (hlists k hk).1, if_pos hbytes]

end VMsvga2Allocator

open VMsvga2Allocator

/-! ### The check along runs -/

/-- The lists of the invariant are sound. -/
theorem RepInv.soundList {s : VMsvga2Allocator} {live : Set Block} {lists : ℕ → List ℕ}
    {unrel : Set ℕ} (h : RepInv s live lists unrel ∅ 0) {k : ℕ} (hk : k < numSizes) :
    s.SoundList k (lists k) where
  linked := h.linked k hk
  length_le := by
    rw [Nat.le_div_iff_mul_le (Nat.two_pow_pos k)]
    -- the list takes up no more than all lists together
    have hterm : (lists k).length * 2 ^ (k + minBits) ≤ listBytes lists :=
      Finset.single_le_sum (f := fun k => (lists k).length * 2 ^ (k + minBits))
        (fun _ _ => Nat.zero_le _) (Finset.mem_range.mpr hk)
    have hle := hterm.trans h.listBytes_le
    rw [pow_add, ← mul_assoc] at hle
    exact Nat.le_of_mul_le_mul_right hle (Nat.two_pow_pos minBits)
  blocks o ho := by
    obtain ⟨b, hb, rfl, rfl⟩ := h.exists_block hk ho
    refine ⟨h.off_lt (h.free_mem hb), ?_, h.magic b hb, h.trailer b hb⟩
    rw [Bool.eq_false_iff, ne_eq, testAny_iff]
    rintro ⟨n, hfirst, hpast, -, hset⟩
    have hn : n ∈ b.cells := ⟨hfirst, hpast⟩
    rcases (h.ends n (lt_of_lt_of_le hpast (h.past_le (h.free_mem hb)))).mp hset with
      hu | ⟨c, hc, rfl⟩
    · exact h.tiling.avoid b (h.free_mem hb) n hn (.inl hu)
    · exact h.live_not_free hc hb c.last_mem hn

/-- The invariant in every state of a run. -/
theorem AllocInv.reachable {z a : VMsvga2Allocator} {startAddress bytes : ℕ}
    {mapAllocated : Bool} {mem : ℕ → ℕ} (hstart : startAddress ≠ 0)
    (hinit : z.init startAddress bytes mapAllocated mem = (.success, a))
    {as : List AllocAction} {t : AllocRun} (hrun : Run allocStep Always (allocStart a) as t) :
    ∃ lists, AllocInv t lists := by
  refine hrun.invariant (I := fun t => ∃ lists, AllocInv t lists) ?_
    ⟨_, AllocInv.start hstart hinit⟩
  rintro r act u ⟨lists, h⟩ - hstep
  obtain ⟨lists', h', -⟩ := h.step hstep
  exact ⟨lists', h'⟩

/-- The check of the lists of the invariant. -/
theorem AllocInv.check_eq {r : AllocRun} {lists : ℕ → List ℕ} (h : AllocInv r lists) :
    r.alloc.check = (.success, (List.range numSizes).map fun k => (lists k).length) := by
  rw [check_of_sound fun k hk => h.rep.soundList hk, if_pos]
  rw [h.rep.freeBytes, Nat.add_zero]

/-- **No false alarm.** After any calls in which no minimum block is released twice and only
live blocks are freed, and any writes of the clients to their own blocks, `Check` succeeds and
counts the blocks of the free lists. -/
theorem check_reachable {z a : VMsvga2Allocator} {startAddress bytes : ℕ} {mapAllocated : Bool}
    {mem : ℕ → ℕ} (hstart : startAddress ≠ 0)
    (hinit : z.init startAddress bytes mapAllocated mem = (.success, a))
    {as : List AllocAction} {t : AllocRun} (hrun : Run allocStep Always (allocStart a) as t) :
    ∃ lists, BuddyInvariant t lists ∧
      t.alloc.check = (.success, (List.range numSizes).map fun k => (lists k).length) := by
  obtain ⟨lists, h⟩ := AllocInv.reachable hstart hinit hrun
  exact ⟨lists, h.buddyInvariant, h.check_eq⟩

/-- A run of the check after a page has been allocated from a pool of two. -/
theorem check_reachable_two_pages :
    ∃ t lists, Run allocStep Always
        (allocStart (freshAllocator.init 0x100000 0x2000 true fun _ => 0).2)
        [.release 0 0x2000, .malloc 0x1000] t ∧ BuddyInvariant t lists ∧
      t.alloc.check = (.success, (List.range numSizes).map fun k => (lists k).length) := by
  have hguard : ∀ n < 2, 0 / 2 ^ minBits ≤ n → n < 0x2000 / 2 ^ minBits →
      (fun _ : ℕ => false) n = false := fun _ _ _ _ => rfl
  have hrun : ∃ t, Run allocStep Always
      (allocStart (freshAllocator.init 0x100000 0x2000 true fun _ => 0).2)
      [.release 0 0x2000, .malloc 0x1000] t :=
    ⟨_, Run.cons trivial (if_pos (e := none) hguard) (Run.single trivial rfl)⟩
  obtain ⟨t, hrun⟩ := hrun
  have hinit : freshAllocator.init 0x100000 0x2000 true (fun _ => 0) = (.success, _) := rfl
  obtain ⟨lists, h⟩ := check_reachable (by decide) hinit hrun
  exact ⟨t, lists, hrun, h⟩

end DockerMacos
