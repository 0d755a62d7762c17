import DockerMacos.Accel
import DockerMacos.IdBitmap

/-!
# The Id Allocators of the Accelerator

Surface, context, stream and GMR ids (`AC/VMsvga2Accel.cpp`). Each kind has a bitmap of the
ids in use; surface and GMR ids also have a hint, the first word that may have a clear bit.
Surface and context ids do not run out: beyond the bitmap they are counted up and not
managed.

## Runs

A run is any sequence of allocations and of frees of live ids. Which ids are live is recorded
beside the allocators; the functions do not look at it. The only condition is that the ids
beyond the bitmaps do not wrap (`NoWrap`).

## One bitmap, four kinds

The kinds differ in the width of the bitmap, in the hint, and in what happens when it is full.
`MaskInv` is the invariant of one bitmap with a hint, and `IdInv` puts the four together; a
step changes one of them.

## Main results

* `MaskInv.search`: the search takes the lowest id that is not taken.
* `id_allocation`: what the next allocation gives in any state of a run.
* `SameGmrIds.allocGMRID`, `SameGmrIds.freeGMRID`: the accelerator's GMR ids bit by bit follow
  the words.
-/

namespace DockerMacos

/-! ### The functions -/

/-- The masks, hints and counters. -/
structure IdAllocators where
  surfaceIdMask : List (BitVec 64)
  surfaceIdIdx : ℕ
  surfaceIdsUnmanaged : ℕ
  /-- A single word. -/
  contextIdMask : List (BitVec 64)
  contextIdsUnmanaged : ℕ
  /-- A single word. -/
  streamIdMask : List (BitVec 32)
  gmrIdMask : List (BitVec 64)
  gmrIdIdx : ℕ

/-- The search from the word `idx` on, and the mask afterwards. -/
def searchFrom {w : ℕ} (log2 : BitVec w → ℤ) (mask : List (BitVec w)) (idx : ℕ) :
    ℤ × List (BitVec w) :=
  let (r, rest) := findBitInArray log2 (mask.drop idx)
  (r, mask.take idx ++ rest)

namespace IdAllocators

/-- The accelerator's allocators after `start`. -/
def start (maxGmrIds : ℕ) : IdAllocators where
  surfaceIdMask := [0, 0, 0, 0]
  surfaceIdIdx := 0
  surfaceIdsUnmanaged := 0
  contextIdMask := [0]
  contextIdsUnmanaged := 0
  streamIdMask := [0]
  gmrIdMask := maskArray [0, 0] maxGmrIds 128
  gmrIdIdx := 0

/-- `AllocSurfaceID`. -/
def allocSurfaceID (a : IdAllocators) : ℕ × IdAllocators :=
  let (r, mask) := searchFrom log2_64 a.surfaceIdMask a.surfaceIdIdx
  if r < 0 then
    (add32 256 a.surfaceIdsUnmanaged, { a with
      surfaceIdMask := mask
      surfaceIdsUnmanaged := add32 a.surfaceIdsUnmanaged 1
      surfaceIdIdx := 4 })
  else
    (r.toNat + 64 * a.surfaceIdIdx, { a with
      surfaceIdMask := mask
      surfaceIdIdx := a.surfaceIdIdx + r.toNat / 64 })

/-- `FreeSurfaceID`. -/
def freeSurfaceID (a : IdAllocators) (sid : ℕ) : IdAllocators :=
  if sid / 64 ≥ 4 then a
  else
    { a with
      surfaceIdMask := clearBit a.surfaceIdMask sid
      surfaceIdIdx := if sid / 64 < a.surfaceIdIdx then sid / 64 else a.surfaceIdIdx }

/-- `AllocContextID`. -/
def allocContextID (a : IdAllocators) : ℕ × IdAllocators :=
  let (r, mask) := searchFrom log2_64 a.contextIdMask 0
  if r < 0 then
    (add32 64 a.contextIdsUnmanaged, { a with
      contextIdMask := mask
      contextIdsUnmanaged := add32 a.contextIdsUnmanaged 1 })
  else (r.toNat, { a with contextIdMask := mask })

/-- `FreeContextID`. -/
def freeContextID (a : IdAllocators) (cid : ℕ) : IdAllocators :=
  if cid ≥ 64 then a else { a with contextIdMask := clearBit a.contextIdMask cid }

/-- `AllocStreamID`. -/
def allocStreamID (a : IdAllocators) : ℕ × IdAllocators :=
  let (r, mask) := searchFrom log2_32 a.streamIdMask 0
  (if r < 0 then svgaIdInvalid else r.toNat, { a with streamIdMask := mask })

/-- `FreeStreamID`. -/
def freeStreamID (a : IdAllocators) (streamId : ℕ) : IdAllocators :=
  if streamId ≥ 32 then a else { a with streamIdMask := clearBit a.streamIdMask streamId }

/-- `AllocGMRID`. -/
def allocGMRID (a : IdAllocators) : ℕ × IdAllocators :=
  let (r, mask) := searchFrom log2_64 a.gmrIdMask a.gmrIdIdx
  if r < 0 then (svgaIdInvalid, { a with gmrIdMask := mask, gmrIdIdx := 2 })
  else
    (r.toNat + 64 * a.gmrIdIdx, { a with
      gmrIdMask := mask
      gmrIdIdx := a.gmrIdIdx + r.toNat / 64 })

/-- `FreeGMRID`. -/
def freeGMRID (a : IdAllocators) (gmrId : ℕ) : IdAllocators :=
  if gmrId / 64 ≥ 2 then a
  else
    { a with
      gmrIdMask := clearBit a.gmrIdMask gmrId
      gmrIdIdx := if gmrId / 64 < a.gmrIdIdx then gmrId / 64 else a.gmrIdIdx }

end IdAllocators

/-! ### The transition system -/

/-- The kinds of ids. -/
inductive IdKind
  | surface
  | context
  | stream
  | gmr
  deriving DecidableEq

/-- The ids of a kind that its bitmap has. -/
def IdKind.managed : IdKind → ℕ
  | .surface => 256
  | .context => 64
  | .stream => 32
  | .gmr => 128

/-- `AllocSurfaceID`, `AllocContextID`, `AllocStreamID` or `AllocGMRID`. -/
def IdAllocators.alloc (a : IdAllocators) : IdKind → ℕ × IdAllocators
  | .surface => a.allocSurfaceID
  | .context => a.allocContextID
  | .stream => a.allocStreamID
  | .gmr => a.allocGMRID

/-- `FreeSurfaceID`, `FreeContextID`, `FreeStreamID` or `FreeGMRID`. -/
def IdAllocators.free (a : IdAllocators) : IdKind → ℕ → IdAllocators
  | .surface, id => a.freeSurfaceID id
  | .context, id => a.freeContextID id
  | .stream, id => a.freeStreamID id
  | .gmr, id => a.freeGMRID id

/-- Whether an allocation has failed; surface and context ids never run out. -/
def IdKind.failed : IdKind → ℕ → Bool
  | .surface, _ => false
  | .context, _ => false
  | _, id => id == svgaIdInvalid

/-- A moment of a run: the allocators and the ids that are live. -/
structure IdRun where
  ids : IdAllocators
  live : IdKind → ℕ → Bool

/-- The calls. -/
inductive IdAction
  | alloc (k : IdKind)
  | free (k : IdKind) (id : ℕ)

/-- The live ids with the liveness of one of them replaced. -/
def setLive (live : IdKind → ℕ → Bool) (k : IdKind) (id : ℕ) (b : Bool) : IdKind → ℕ → Bool :=
  Function.update live k (Function.update (live k) id b)

/-- The step function: only live ids are freed. -/
def idStep (s : IdRun) : IdAction → Option IdRun
  | .alloc k =>
      let (r, ids) := s.ids.alloc k
      some { ids := ids, live := if k.failed r then s.live else setLive s.live k r true }
  | .free k id =>
      if s.live k id then some { ids := s.ids.free k id, live := setLive s.live k id false }
      else none

/-- The start of a run on a device with `maxGmrIds` GMR ids. -/
def idStart (maxGmrIds : ℕ) : IdRun where
  ids := .start maxGmrIds
  live := fun _ _ => false

/-- The ids beyond the bitmaps do not wrap. -/
def NoWrap (s : IdRun) : IdAction → Prop
  | .alloc .surface => 256 + s.ids.surfaceIdsUnmanaged < 2 ^ 32
  | .alloc .context => 64 + s.ids.contextIdsUnmanaged < 2 ^ 32
  | _ => True

/-! ### One bitmap -/

/-- The bitmap of a kind marks the ids taken, and the words below the hint are full. -/
structure MaskInv {w : ℕ} (mask : List (BitVec w)) (n idx : ℕ) (taken : ℕ → Prop) : Prop where
  length : mask.length = n
  idx_le : idx ≤ n
  bits : ∀ id < w * n, bitAt mask id = true ↔ taken id
  hint : ∀ id < w * idx, taken id

namespace MaskInv

variable {w : ℕ} {mask : List (BitVec w)} {n idx : ℕ} {taken taken' : ℕ → Prop}

/-- The words below the hint are full. -/
theorem full (h : MaskInv mask n idx taken) {m : ℕ} (hm : m < idx) :
    mask.getD m 0 = BitVec.allOnes w := by
  refine BitVec.eq_of_getLsbD_eq fun i hi => ?_
  have hlt : w * m + i < w * idx := by
    calc w * m + i < w * m + w := by omega
      _ = w * (m + 1) := (Nat.mul_succ ..).symm
      _ ≤ w * idx := Nat.mul_le_mul_left w hm
  have hbit := (h.bits _ (lt_of_lt_of_le hlt (Nat.mul_le_mul_left w h.idx_le))).mpr (h.hint _ hlt)
  have hw : 0 < w := by omega
  rw [bitAt, Nat.mul_add_div hw, Nat.mul_add_mod_self_left, Nat.div_eq_of_lt hi,
    Nat.mod_eq_of_lt hi, Nat.add_zero] at hbit
  rw [hbit, BitVec.getLsbD_allOnes, decide_eq_true hi]

/-- The invariant is about the ids of the bitmap. -/
theorem congr (h : MaskInv mask n idx taken) (heq : ∀ id < w * n, taken id ↔ taken' id) :
    MaskInv mask n idx taken' := by
  refine ⟨h.length, h.idx_le, fun id hid => (h.bits id hid).trans (heq id hid), fun id hid => ?_⟩
  exact (heq id (lt_of_lt_of_le hid (Nat.mul_le_mul_left w h.idx_le))).mp (h.hint id hid)

/-- A smaller hint is as good. -/
theorem hint_le (h : MaskInv mask n idx taken) {idx' : ℕ} (hle : idx' ≤ idx) :
    MaskInv mask n idx' taken :=
  ⟨h.length, hle.trans h.idx_le, h.bits,
    fun id hid => h.hint id (lt_of_lt_of_le hid (Nat.mul_le_mul_left w hle))⟩

/-- **The search** from the hint takes the lowest id that is not taken, or all are. -/
theorem search (h : MaskInv mask n idx taken) {log2 : BitVec w → ℤ} (hw : 0 < w)
    (hlog : ∀ k < w, log2 (BitVec.twoPow w k) = k) :
    (searchFrom log2 mask idx = (-1, mask) ∧ MaskInv mask n n taken) ∨
      ∃ (k : ℕ) (mask' : List (BitVec w)), searchFrom log2 mask idx = ((k : ℤ), mask') ∧
        k + w * idx < w * n ∧ ¬ taken (k + w * idx) ∧
        MaskInv mask' n (idx + k / w) fun id => id = k + w * idx ∨ taken id := by
  have hidx : idx ≤ mask.length := h.length.symm ▸ h.idx_le
  have hlen : w * idx + w * (mask.drop idx).length = w * n := by
    rw [← Nat.mul_add, List.length_drop, h.length, Nat.add_sub_cancel' h.idx_le]
  rcases findBitInArray_cases hw hlog (mask.drop idx) with
    ⟨heq, hfull⟩ | ⟨k, rest, heq, hk, hclear, hlower, hrest, hbits⟩
  · refine Or.inl ⟨by simp only [searchFrom, heq, List.take_append_drop], h.length, le_rfl,
      h.bits, fun id hid => ?_⟩
    rcases Nat.lt_or_ge id (w * idx) with hlt | hge
    · exact h.hint id hlt
    · obtain ⟨j, rfl⟩ := Nat.exists_eq_add_of_le hge
      refine (h.bits _ hid).mp ?_
      rw [← bitAt_drop mask idx j hw]
      exact hfull j (by omega)
  · have hnot : ¬ taken (k + w * idx) := by
      rw [← h.bits _ (by omega), Nat.add_comm, ← bitAt_drop mask idx k hw, hclear]
      decide
    refine Or.inr ⟨k, mask.take idx ++ rest, by rw [searchFrom, heq], by omega, hnot, ?_, ?_,
      fun id hid => ?_, fun id hid => ?_⟩
    · rw [List.length_append, List.length_take_of_le hidx, hrest, List.length_drop, h.length,
        Nat.add_sub_cancel' h.idx_le]
    · have hword : k / w < n - idx := by
        rw [← h.length, ← List.length_drop]
        exact Nat.div_lt_of_lt_mul hk
      generalize k / w = q at hword
      omega
    · rw [bitAt_take_append hw hidx]
      split
      · rename_i hlt
        have hne : id ≠ k + w * idx := by omega
        rw [h.bits id hid]
        exact ⟨Or.inr, fun hor => hor.resolve_left hne⟩
      · rename_i hge
        obtain ⟨j, rfl⟩ := Nat.exists_eq_add_of_le (not_lt.mp hge)
        rw [Nat.add_sub_cancel_left, hbits j, bitAt_drop mask idx j hw, Bool.or_eq_true,
          decide_eq_true_eq, h.bits _ hid]
        have hiff : j = k ↔ w * idx + j = k + w * idx := by omega
        rw [hiff]
    · -- all ids below the word of the one found are taken
      have hlt : id < k + w * idx := by
        have := Nat.mul_div_le k w
        rw [Nat.mul_add] at hid
        omega
      refine Or.inr ?_
      rcases Nat.lt_or_ge id (w * idx) with hid' | hge
      · exact h.hint id hid'
      · obtain ⟨j, rfl⟩ := Nat.exists_eq_add_of_le hge
        refine (h.bits _ (by omega)).mp ?_
        rw [← bitAt_drop mask idx j hw]
        exact hlower j (by omega)

/-- An id that is freed pulls the hint back to its word. -/
theorem free (h : MaskInv mask n idx taken) (hw : 0 < w) {id : ℕ} (hid : id < w * n) :
    MaskInv (clearBit mask id) n (if id / w < idx then id / w else idx)
      fun j => j ≠ id ∧ taken j := by
  refine ⟨by rw [length_clearBit, h.length], ?_, fun j hj => ?_, fun j hj => ?_⟩
  · have := h.idx_le
    split <;> omega
  · rw [bitAt_clearBit hw (by rw [h.length]; exact hid), Bool.and_eq_true, Bool.not_eq_true',
      decide_eq_false_iff_not, h.bits j hj]
  · have hle : w * (if id / w < idx then id / w else idx) ≤ w * idx :=
      Nat.mul_le_mul_left w (by split <;> omega)
    refine ⟨?_, h.hint j (lt_of_lt_of_le hj hle)⟩
    rintro rfl
    split at hj
    · have := Nat.mul_div_le j w
      omega
    · rename_i hge
      have : w * idx ≤ w * (j / w) := Nat.mul_le_mul_left w (not_lt.mp hge)
      have := Nat.mul_div_le j w
      omega

end MaskInv

/-! ### The invariant -/

/-- **The invariant** of a run. -/
structure IdInv (maxGmrIds : ℕ) (s : IdRun) : Prop where
  surface : MaskInv s.ids.surfaceIdMask 4 s.ids.surfaceIdIdx fun id => s.live .surface id = true
  /-- The live ids beyond the bitmap have been counted. -/
  surfaceUnmanaged : ∀ id, s.live .surface id = true → id < 256 + s.ids.surfaceIdsUnmanaged
  context : MaskInv s.ids.contextIdMask 1 0 fun id => s.live .context id = true
  contextUnmanaged : ∀ id, s.live .context id = true → id < 64 + s.ids.contextIdsUnmanaged
  stream : MaskInv s.ids.streamIdMask 1 0 fun id => s.live .stream id = true
  streamManaged : ∀ id, s.live .stream id = true → id < 32
  /-- The ids that the device does not have are marked from the start. -/
  gmr : MaskInv s.ids.gmrIdMask 2 s.ids.gmrIdIdx fun id =>
    s.live .gmr id = true ∨ maxGmrIds ≤ id
  gmrManaged : ∀ id, s.live .gmr id = true → id < 128 ∧ id < maxGmrIds

/-- A set of live ids with a new one. -/
theorem update_true_iff (f : ℕ → Bool) (id j : ℕ) :
    Function.update f id true j = true ↔ j = id ∨ f j = true := by
  rw [Function.update_apply]
  split <;> simp_all

/-- A set of live ids with one less. -/
theorem update_false_iff (f : ℕ → Bool) (id j : ℕ) :
    Function.update f id false j = true ↔ j ≠ id ∧ f j = true := by
  rw [Function.update_apply]
  split <;> simp_all

/-- No bit of zeros is set. -/
theorem bitAt_zeros {w n : ℕ} (i : ℕ) : bitAt (List.replicate n (0 : BitVec w)) i = false := by
  rw [bitAt, List.getD_eq_getElem?_getD, List.getElem?_replicate]
  split <;> exact BitVec.getLsbD_zero

/-- An array of zeros marks nothing. -/
theorem MaskInv.zeros (w n : ℕ) :
    MaskInv (List.replicate n (0 : BitVec w)) n 0 fun _ => False := by
  refine ⟨List.length_replicate, Nat.zero_le n, fun id _ => ?_, fun id hid => ?_⟩
  · rw [bitAt_zeros]
    decide
  · rw [Nat.mul_zero] at hid
    exact absurd hid (Nat.not_lt_zero id)

/-- At the start only the ids beyond the device's maximum are marked. -/
theorem idStart_inv (maxGmrIds : ℕ) : IdInv maxGmrIds (idStart maxGmrIds) := by
  have hno : ∀ k id, (idStart maxGmrIds).live k id = true → False := fun _ _ h => by cases h
  refine ⟨(MaskInv.zeros 64 4).congr fun id _ => ⟨False.elim, hno _ id⟩,
    fun id h => (hno _ id h).elim, (MaskInv.zeros 64 1).congr fun id _ => ⟨False.elim, hno _ id⟩,
    fun id h => (hno _ id h).elim, (MaskInv.zeros 32 1).congr fun id _ => ⟨False.elim, hno _ id⟩,
    fun id h => (hno _ id h).elim, ?_, fun id h => (hno _ id h).elim⟩
  refine ⟨length_maskArray (by decide) (by decide), Nat.zero_le 2, fun id hid => ?_,
    fun id hid => absurd hid (Nat.not_lt_zero id)⟩
  change bitAt (maskArray (List.replicate 2 (0 : BitVec 64)) maxGmrIds 128) id = true ↔ _
  rw [bitAt_maskArray (by decide) (by decide), bitAt_zeros, Bool.or_false, decide_eq_true_eq]
  constructor
  · rintro ⟨h, -⟩
    exact Or.inr h
  · rintro (h | h)
    · exact (hno _ id h).elim
    · exact ⟨h, hid⟩

namespace IdInv

variable {maxGmrIds : ℕ} {s t : IdRun}

/-! ### Replacing one kind -/

/-- New surface ids. -/
theorem withSurface (h : IdInv maxGmrIds s) {mask : List (BitVec 64)} {idx u : ℕ} {f : ℕ → Bool}
    (hmask : MaskInv mask 4 idx fun id => f id = true) (hu : ∀ id, f id = true → id < 256 + u) :
    IdInv maxGmrIds ⟨{ s.ids with
      surfaceIdMask := mask, surfaceIdIdx := idx, surfaceIdsUnmanaged := u },
      Function.update s.live .surface f⟩ := by
  refine ⟨?_, ?_, h.context, h.contextUnmanaged, h.stream, h.streamManaged, h.gmr, h.gmrManaged⟩
  · simpa only [Function.update_self] using hmask
  · simpa only [Function.update_self] using hu

/-- New context ids. -/
theorem withContext (h : IdInv maxGmrIds s) {mask : List (BitVec 64)} {u : ℕ} {f : ℕ → Bool}
    (hmask : MaskInv mask 1 0 fun id => f id = true) (hu : ∀ id, f id = true → id < 64 + u) :
    IdInv maxGmrIds ⟨{ s.ids with contextIdMask := mask, contextIdsUnmanaged := u },
      Function.update s.live .context f⟩ := by
  refine ⟨h.surface, h.surfaceUnmanaged, ?_, ?_, h.stream, h.streamManaged, h.gmr, h.gmrManaged⟩
  · simpa only [Function.update_self] using hmask
  · simpa only [Function.update_self] using hu

/-- New stream ids. -/
theorem withStream (h : IdInv maxGmrIds s) {mask : List (BitVec 32)} {f : ℕ → Bool}
    (hmask : MaskInv mask 1 0 fun id => f id = true) (hu : ∀ id, f id = true → id < 32) :
    IdInv maxGmrIds ⟨{ s.ids with streamIdMask := mask }, Function.update s.live .stream f⟩ := by
  refine ⟨h.surface, h.surfaceUnmanaged, h.context, h.contextUnmanaged, ?_, ?_, h.gmr,
    h.gmrManaged⟩
  · simpa only [Function.update_self] using hmask
  · simpa only [Function.update_self] using hu

/-- New region ids. -/
theorem withGmr (h : IdInv maxGmrIds s) {mask : List (BitVec 64)} {idx : ℕ} {f : ℕ → Bool}
    (hmask : MaskInv mask 2 idx fun id => f id = true ∨ maxGmrIds ≤ id)
    (hu : ∀ id, f id = true → id < 128 ∧ id < maxGmrIds) :
    IdInv maxGmrIds ⟨{ s.ids with gmrIdMask := mask, gmrIdIdx := idx },
      Function.update s.live .gmr f⟩ := by
  refine ⟨h.surface, h.surfaceUnmanaged, h.context, h.contextUnmanaged, h.stream,
    h.streamManaged, ?_, ?_⟩
  · simpa only [Function.update_self] using hmask
  · simpa only [Function.update_self] using hu

/-! ### Allocation -/

/-- What an allocation of kind `k` gives: an id that is not live, from the bitmap if one is
free there. -/
structure Allocated (maxGmrIds : ℕ) (s : IdRun) (k : IdKind) (r : ℕ) : Prop where
  fresh : s.live k r = false
  managed : ∀ id < k.managed, s.live k id = false → (k = .gmr → id < maxGmrIds) → r < k.managed
  gmr : k = .gmr → r ≠ svgaIdInvalid → r < maxGmrIds

/-- The run after the allocation. -/
def allocated (s : IdRun) (k : IdKind) : IdRun :=
  ⟨(s.ids.alloc k).2,
    if k.failed (s.ids.alloc k).1 then s.live else setLive s.live k (s.ids.alloc k).1 true⟩

/-- An allocation of a surface id, in the bitmap or beyond. -/
theorem allocSurface (h : IdInv maxGmrIds s) (hwrap : NoWrap s (.alloc .surface)) :
    IdInv maxGmrIds (allocated s .surface) ∧
      Allocated maxGmrIds s .surface (s.ids.alloc .surface).1 := by
  change 256 + s.ids.surfaceIdsUnmanaged < 2 ^ 32 at hwrap
  rcases h.surface.search (by decide) log2_64_twoPow with ⟨heq, hfull⟩ |
    ⟨k, mask, heq, hk, hnot, hmask⟩
  · -- the bitmap is full, the counter gives the id
    have halloc : s.ids.alloc .surface = (256 + s.ids.surfaceIdsUnmanaged, { s.ids with
        surfaceIdsUnmanaged := s.ids.surfaceIdsUnmanaged + 1, surfaceIdIdx := 4 }) := by
      simp only [IdAllocators.alloc, IdAllocators.allocSurfaceID, heq]
      rw [if_pos (by decide), add32_of_lt hwrap, add32_of_lt (by omega)]
    have hfresh : s.live .surface (256 + s.ids.surfaceIdsUnmanaged) = false := by
      by_contra hlive
      exact absurd (h.surfaceUnmanaged _ (Bool.eq_true_of_not_eq_false hlive)) (lt_irrefl _)
    simp only [allocated, halloc]
    refine ⟨h.withSurface (hfull.congr fun id hid => ?_) fun id hid => ?_, hfresh,
      fun id hid hfree _ => ?_, fun hk => by cases hk⟩
    · rw [update_true_iff]
      exact ⟨Or.inr, fun hor => hor.resolve_left (by omega)⟩
    · rcases (update_true_iff _ _ _).mp hid with rfl | hlive
      · omega
      · have := h.surfaceUnmanaged id hlive
        omega
    · have := hfull.hint id hid
      rw [hfree] at this
      cases this
  · have halloc : s.ids.alloc .surface = (k + 64 * s.ids.surfaceIdIdx, { s.ids with
        surfaceIdMask := mask, surfaceIdIdx := s.ids.surfaceIdIdx + k / 64 }) := by
      have hnonneg : ¬ (k : ℤ) < 0 := by omega
      simp only [IdAllocators.alloc, IdAllocators.allocSurfaceID, heq, hnonneg, if_false,
        Int.toNat_natCast]
    simp only [allocated, halloc]
    refine ⟨h.withSurface (hmask.congr fun id _ => (update_true_iff _ _ _).symm) fun id hid => ?_,
      Bool.eq_false_of_not_eq_true hnot, fun _ _ _ _ => hk, fun hk => by cases hk⟩
    rcases (update_true_iff _ _ _).mp hid with rfl | hlive
    · omega
    · exact h.surfaceUnmanaged id hlive

/-- An allocation of a context id, in the bitmap or beyond. -/
theorem allocContext (h : IdInv maxGmrIds s) (hwrap : NoWrap s (.alloc .context)) :
    IdInv maxGmrIds (allocated s .context) ∧
      Allocated maxGmrIds s .context (s.ids.alloc .context).1 := by
  change 64 + s.ids.contextIdsUnmanaged < 2 ^ 32 at hwrap
  rcases h.context.search (by decide) log2_64_twoPow with ⟨heq, hfull⟩ |
    ⟨k, mask, heq, hk, hnot, hmask⟩
  · -- the bitmap is full, the counter gives the id
    have halloc : s.ids.alloc .context = (64 + s.ids.contextIdsUnmanaged, { s.ids with
        contextIdsUnmanaged := s.ids.contextIdsUnmanaged + 1 }) := by
      simp only [IdAllocators.alloc, IdAllocators.allocContextID, heq]
      rw [if_pos (by decide), add32_of_lt hwrap, add32_of_lt (by omega)]
    have hfresh : s.live .context (64 + s.ids.contextIdsUnmanaged) = false := by
      by_contra hlive
      exact absurd (h.contextUnmanaged _ (Bool.eq_true_of_not_eq_false hlive)) (lt_irrefl _)
    simp only [allocated, halloc]
    refine ⟨h.withContext (h.context.congr fun id hid => ?_) fun id hid => ?_, hfresh,
      fun id hid hfree _ => ?_, fun hk => by cases hk⟩
    · rw [update_true_iff]
      exact ⟨Or.inr, fun hor => hor.resolve_left (by omega)⟩
    · rcases (update_true_iff _ _ _).mp hid with rfl | hlive
      · omega
      · have := h.contextUnmanaged id hlive
        omega
    · have := hfull.hint id hid
      rw [hfree] at this
      cases this
  · have halloc : s.ids.alloc .context = (k, { s.ids with contextIdMask := mask }) := by
      have hnonneg : ¬ (k : ℤ) < 0 := by omega
      simp only [IdAllocators.alloc, IdAllocators.allocContextID, heq, hnonneg, if_false,
        Int.toNat_natCast]
    simp only [allocated, halloc]
    refine ⟨h.withContext ((hmask.hint_le (Nat.zero_le _)).congr
      fun id _ => (update_true_iff _ _ _).symm) fun id hid => ?_,
      Bool.eq_false_of_not_eq_true hnot, fun _ _ _ _ => hk, fun hk => by cases hk⟩
    rcases (update_true_iff _ _ _).mp hid with rfl | hlive
    · omega
    · exact h.contextUnmanaged id hlive

/-- An allocation of a stream id, which may fail. -/
theorem allocStream (h : IdInv maxGmrIds s) :
    IdInv maxGmrIds (allocated s .stream) ∧
      Allocated maxGmrIds s .stream (s.ids.alloc .stream).1 := by
  rcases h.stream.search (by decide) log2_32_twoPow with ⟨heq, hfull⟩ |
    ⟨k, mask, heq, hk, hnot, hmask⟩
  · have halloc : s.ids.alloc .stream = (svgaIdInvalid, s.ids) := by
      simp only [IdAllocators.alloc, IdAllocators.allocStreamID, heq]
      rw [if_pos (by decide)]
    simp only [allocated, halloc]
    refine ⟨h, ?_, fun id hid hfree _ => ?_, fun hk => by cases hk⟩
    · by_contra hlive
      have := h.streamManaged _ (Bool.eq_true_of_not_eq_false hlive)
      rw [svgaIdInvalid] at this
      omega
    · have := hfull.hint id hid
      rw [hfree] at this
      cases this
  · have halloc : s.ids.alloc .stream = (k, { s.ids with streamIdMask := mask }) := by
      have hnonneg : ¬ (k : ℤ) < 0 := by omega
      simp only [IdAllocators.alloc, IdAllocators.allocStreamID, heq, hnonneg, if_false,
        Int.toNat_natCast]
    have hok : IdKind.failed .stream k = false := by
      simp only [IdKind.failed, svgaIdInvalid, beq_eq_false_iff_ne]
      omega
    simp only [allocated, halloc, hok]
    refine ⟨h.withStream ((hmask.hint_le (Nat.zero_le _)).congr
      fun id _ => (update_true_iff _ _ _).symm) fun id hid => ?_,
      Bool.eq_false_of_not_eq_true hnot, fun _ _ _ _ => hk, fun hk => by cases hk⟩
    rcases (update_true_iff _ _ _).mp hid with rfl | hlive
    · omega
    · exact h.streamManaged id hlive

/-- An allocation of a region id, which may fail. -/
theorem allocGmr (h : IdInv maxGmrIds s) :
    IdInv maxGmrIds (allocated s .gmr) ∧ Allocated maxGmrIds s .gmr (s.ids.alloc .gmr).1 := by
  rcases h.gmr.search (by decide) log2_64_twoPow with ⟨heq, hfull⟩ |
    ⟨k, mask, heq, hk, hnot, hmask⟩
  · have halloc : s.ids.alloc .gmr = (svgaIdInvalid, { s.ids with gmrIdIdx := 2 }) := by
      simp only [IdAllocators.alloc, IdAllocators.allocGMRID, heq]
      rw [if_pos (by decide)]
    simp only [allocated, halloc]
    refine ⟨⟨h.surface, h.surfaceUnmanaged, h.context, h.contextUnmanaged, h.stream,
      h.streamManaged, hfull, h.gmrManaged⟩, ?_, fun id hid hfree hmax => ?_,
      fun _ hne => absurd rfl hne⟩
    · by_contra hlive
      have := (h.gmrManaged _ (Bool.eq_true_of_not_eq_false hlive)).1
      rw [svgaIdInvalid] at this
      omega
    · rcases hfull.hint id hid with hlive | hge
      · rw [hfree] at hlive
        cases hlive
      · exact absurd (hmax rfl) (not_lt.mpr hge)
  · have halloc : s.ids.alloc .gmr = (k + 64 * s.ids.gmrIdIdx, { s.ids with
        gmrIdMask := mask, gmrIdIdx := s.ids.gmrIdIdx + k / 64 }) := by
      have hnonneg : ¬ (k : ℤ) < 0 := by omega
      simp only [IdAllocators.alloc, IdAllocators.allocGMRID, heq, hnonneg, if_false,
        Int.toNat_natCast]
    have hok : IdKind.failed .gmr (k + 64 * s.ids.gmrIdIdx) = false := by
      simp only [IdKind.failed, svgaIdInvalid, beq_eq_false_iff_ne]
      omega
    obtain ⟨hfree, hmax⟩ := not_or.mp hnot
    simp only [allocated, halloc, hok]
    refine ⟨h.withGmr (hmask.congr fun id _ => ?_) fun id hid => ?_,
      Bool.eq_false_of_not_eq_true hfree, fun _ _ _ _ => hk, fun _ _ => not_le.mp hmax⟩
    · rw [update_true_iff, or_assoc]
    · rcases (update_true_iff _ _ _).mp hid with rfl | hlive
      · exact ⟨hk, not_le.mp hmax⟩
      · exact h.gmrManaged id hlive

/-- **An allocation** of any kind. -/
theorem alloc (h : IdInv maxGmrIds s) (k : IdKind) (hwrap : NoWrap s (.alloc k)) :
    IdInv maxGmrIds (allocated s k) ∧ Allocated maxGmrIds s k (s.ids.alloc k).1 := by
  cases k with
  | surface => exact h.allocSurface hwrap
  | context => exact h.allocContext hwrap
  | stream => exact h.allocStream
  | gmr => exact h.allocGmr

/-! ### Freeing -/

/-- **A free** of a live id of any kind. -/
theorem free (h : IdInv maxGmrIds s) (k : IdKind) {id : ℕ} (hlive : s.live k id = true) :
    IdInv maxGmrIds ⟨s.ids.free k id, setLive s.live k id false⟩ := by
  cases k with
  | surface =>
      have hu : ∀ j, Function.update (s.live .surface) id false j = true →
          j < 256 + s.ids.surfaceIdsUnmanaged := fun j hj =>
        h.surfaceUnmanaged j ((update_false_iff _ _ _).mp hj).2
      simp only [IdAllocators.free, IdAllocators.freeSurfaceID]
      split
      · -- an id beyond the bitmap is only forgotten
        rename_i hge
        refine h.withSurface (h.surface.congr fun j hj => ?_) hu
        rw [update_false_iff]
        exact ⟨fun hj' => ⟨by omega, hj'⟩, And.right⟩
      · rename_i hlt
        refine h.withSurface ((h.surface.free (by decide) (by omega)).congr fun j _ => ?_) hu
        rw [update_false_iff]
  | context =>
      have hu : ∀ j, Function.update (s.live .context) id false j = true →
          j < 64 + s.ids.contextIdsUnmanaged := fun j hj =>
        h.contextUnmanaged j ((update_false_iff _ _ _).mp hj).2
      simp only [IdAllocators.free, IdAllocators.freeContextID]
      split
      · rename_i hge
        refine h.withContext (h.context.congr fun j hj => ?_) hu
        rw [update_false_iff]
        exact ⟨fun hj' => ⟨by omega, hj'⟩, And.right⟩
      · rename_i hlt
        refine h.withContext (((h.context.free (by decide) (by omega)).hint_le
          (Nat.zero_le _)).congr fun j _ => ?_) hu
        rw [update_false_iff]
  | stream =>
      have hlt := h.streamManaged id hlive
      simp only [IdAllocators.free, IdAllocators.freeStreamID]
      rw [if_neg (not_le.mpr hlt)]
      refine h.withStream (((h.stream.free (by decide) (by omega)).hint_le
        (Nat.zero_le _)).congr fun j _ => ?_) fun j hj => ?_
      · rw [update_false_iff]
      · exact h.streamManaged j ((update_false_iff _ _ _).mp hj).2
  | gmr =>
      have hlt := (h.gmrManaged id hlive).1
      have hmax := (h.gmrManaged id hlive).2
      simp only [IdAllocators.free, IdAllocators.freeGMRID]
      rw [if_neg (by omega)]
      refine h.withGmr ((h.gmr.free (by decide) (by omega)).congr fun j _ => ?_) fun j hj => ?_
      · rw [update_false_iff]
        constructor
        · rintro ⟨hj, hor⟩
          exact hor.imp_left fun hl => ⟨hj, hl⟩
        · rintro (⟨hj, hl⟩ | hge)
          · exact ⟨hj, Or.inl hl⟩
          · exact ⟨by omega, Or.inr hge⟩
      · exact h.gmrManaged j ((update_false_iff _ _ _).mp hj).2

/-- **A step** keeps the invariant. -/
theorem step (h : IdInv maxGmrIds s) {a : IdAction} (hwrap : NoWrap s a)
    (hstep : idStep s a = some t) : IdInv maxGmrIds t := by
  cases a with
  | alloc k =>
      cases hstep
      exact (h.alloc k hwrap).1
  | free k id =>
      rw [idStep] at hstep
      split at hstep
      · rename_i hlive
        cases hstep
        exact h.free k hlive
      · cases hstep

end IdInv

/-- **Id allocation.** In every state of a run, the next id differs from all live ids of its
kind and comes from the bitmap if that has a free one; GMR ids are below the maximum of the
device, and run out only when all are live; and the words below a hint are full. -/
theorem id_allocation (maxGmrIds : ℕ) {as : List IdAction} {s : IdRun}
    (hrun : Run idStep NoWrap (idStart maxGmrIds) as s) :
    (∀ k, NoWrap s (.alloc k) →
      (∀ id, s.live k id = true → (s.ids.alloc k).1 ≠ id) ∧
      ∀ id < k.managed, s.live k id = false → (k = .gmr → id < maxGmrIds) →
        (s.ids.alloc k).1 < k.managed) ∧
    ((s.ids.alloc .gmr).1 < maxGmrIds ∨ (s.ids.alloc .gmr).1 = svgaIdInvalid ∧
      ∀ id < min maxGmrIds 128, s.live .gmr id = true) ∧
    (∀ n < s.ids.surfaceIdIdx, s.ids.surfaceIdMask.getD n 0 = BitVec.allOnes 64) ∧
    ∀ n < s.ids.gmrIdIdx, s.ids.gmrIdMask.getD n 0 = BitVec.allOnes 64 := by
  have h : IdInv maxGmrIds s :=
    hrun.invariant (fun s a t h hwrap hstep => h.step hwrap hstep) (idStart_inv maxGmrIds)
  refine ⟨fun k hwrap => ⟨fun id hlive heq => ?_, (h.alloc k hwrap).2.managed⟩, ?_,
    fun n hn => h.surface.full hn, fun n hn => h.gmr.full hn⟩
  · have hfresh := (h.alloc k hwrap).2.fresh
    rw [heq, hlive] at hfresh
    cases hfresh
  · obtain ⟨-, hgmr⟩ := h.alloc .gmr trivial
    by_cases hfail : (s.ids.alloc .gmr).1 = svgaIdInvalid
    · refine Or.inr ⟨hfail, fun id hid => ?_⟩
      by_contra hfree
      have hlt := hgmr.managed id (by simp only [IdKind.managed]; omega)
        (Bool.eq_false_of_not_eq_true hfree) fun _ => by omega
      rw [hfail] at hlt
      exact absurd hlt (by decide)
    · exact Or.inl (hgmr.gmr rfl hfail)

instance (s : IdRun) (act : IdAction) : Decidable (NoWrap s act) := by
  unfold NoWrap
  split <;> infer_instance

/-- Ids of all kinds: one surface more than the first word of the bitmap has, and then the fourth
one is freed. -/
def manyIds : List IdAction :=
  [.alloc .gmr, .alloc .stream, .alloc .context] ++ List.replicate 65 (.alloc .surface) ++
    [.alloc .context, .free .context 0, .free .surface 3]

/-- On a device with one GMR id. The hint of the surface ids has come to the second word, and the
free has pulled it back; the next surface id is again one of the first word, and a second GMR id
is refused while the first is live. -/
theorem id_allocation_many : ∃ s, Run idStep NoWrap (idStart 1) manyIds s ∧
    ((manyIds.dropLast.foldlM idStep (idStart 1)).map fun s => s.ids.surfaceIdIdx) = some 1 ∧
    s.ids.surfaceIdIdx = 0 ∧ (s.ids.alloc .surface).1 = 3 ∧
    (∀ id, s.live .surface id = true → 3 ≠ id) ∧ (s.ids.alloc .gmr).1 = svgaIdInvalid ∧
    ((s.ids.alloc .gmr).1 < 1 ∨ (s.ids.alloc .gmr).1 = svgaIdInvalid ∧
      ∀ id < min 1 128, s.live .gmr id = true) := by
  have heval : (manyIds.foldlM (guarded idStep NoWrap) (idStart 1)).map (fun s =>
      (s.ids.surfaceIdIdx, s.ids.surfaceIdsUnmanaged, (s.ids.alloc .surface).1,
        (s.ids.alloc .gmr).1)) = some (0, 0, 3, svgaIdInvalid) := by decide +kernel
  obtain ⟨s, hfold, heval⟩ := Option.map_eq_some_iff.mp heval
  simp only [Prod.mk.injEq] at heval
  obtain ⟨hidx, hunmanaged, hnext, hfail⟩ := heval
  have hids := id_allocation 1 (run_of_guarded hfold)
  have hfresh := (hids.1 .surface (by rw [NoWrap, hunmanaged]; decide)).1
  rw [hnext] at hfresh
  exact ⟨s, run_of_guarded hfold, by decide +kernel, hidx, hnext, hfresh, hfail, hids.2.1⟩

/-! ### The GMR ids of the accelerator, bit by bit -/

/-- The words of the GMR bitmap and its hint, as the accelerator has them bit by bit. -/
structure SameGmrIds (ids : IdAllocators) (a : Accel) : Prop where
  length : ids.gmrIdMask.length = 2
  idx : ids.gmrIdIdx = a.gmrIdIdx
  idx_le : ids.gmrIdIdx ≤ 2
  bits : ∀ id < 128, bitAt ids.gmrIdMask id = a.gmrIdMask id

/-- `AllocGMRID` on words and on bits. -/
theorem SameGmrIds.allocGMRID {ids : IdAllocators} {a : Accel} (h : SameGmrIds ids a) :
    ids.allocGMRID.1 = a.allocGMRID.1 ∧ SameGmrIds ids.allocGMRID.2 a.allocGMRID.2 := by
  have hidx : ids.gmrIdIdx ≤ ids.gmrIdMask.length := h.length.symm ▸ h.idx_le
  have hlen : 64 * ids.gmrIdIdx + 64 * (ids.gmrIdMask.drop ids.gmrIdIdx).length = 128 := by
    have := h.idx_le
    rw [List.length_drop, h.length]
    omega
  have hdrop : ∀ j, 64 * ids.gmrIdIdx + j < 128 →
      bitAt (ids.gmrIdMask.drop ids.gmrIdIdx) j = a.gmrIdMask (64 * ids.gmrIdIdx + j) := by
    intro j hj
    rw [bitAt_drop _ _ _ (by decide), h.bits _ hj]
  rcases findBitInArray_cases (by decide) log2_64_twoPow (ids.gmrIdMask.drop ids.gmrIdIdx) with
    ⟨heq, hfull⟩ | ⟨k, rest, heq, hk, hclear, hlower, hrest, hbits⟩
  · have hnone : Accel.findBit a.gmrIdMask (64 * a.gmrIdIdx)
        (Accel.numGmrIds - 64 * a.gmrIdIdx) = none := by
      rw [← h.idx, Accel.findBit, List.find?_range'_eq_none]
      intro i hfirst hpast
      simp only [Accel.numGmrIds] at hpast
      obtain ⟨j, rfl⟩ := Nat.exists_eq_add_of_le hfirst
      rw [← hdrop j (by omega), hfull j (by omega)]
      rfl
    simp only [IdAllocators.allocGMRID, searchFrom, heq, List.take_append_drop,
      Accel.allocGMRID, hnone]
    exact ⟨rfl, h.length, rfl, le_rfl, h.bits⟩
  · have hsome : Accel.findBit a.gmrIdMask (64 * a.gmrIdIdx)
        (Accel.numGmrIds - 64 * a.gmrIdIdx) = some (k + 64 * ids.gmrIdIdx) := by
      rw [← h.idx, Accel.findBit, List.find?_range'_eq_some, List.mem_range'_1]
      refine ⟨?_, ⟨Nat.le_add_left _ _, by simp only [Accel.numGmrIds]; omega⟩, ?_⟩
      · rw [Nat.add_comm, ← hdrop k (by omega), hclear]
        rfl
      · intro j hfirst hjk
        obtain ⟨j, rfl⟩ := Nat.exists_eq_add_of_le hfirst
        rw [← hdrop j (by omega), hlower j (by omega)]
        rfl
    have hnonneg : ¬ (k : ℤ) < 0 := by omega
    simp only [IdAllocators.allocGMRID, searchFrom, heq, hnonneg, if_false, Int.toNat_natCast,
      Accel.allocGMRID, hsome]
    refine ⟨trivial, ?_, ?_, ?_, fun id hid => ?_⟩
    · rw [List.length_append, List.length_take_of_le hidx, hrest, List.length_drop, h.length]
      have := h.idx_le
      omega
    · simp only
      omega
    · simp only
      omega
    · simp only [bitAt_take_append (by decide : 0 < 64) hidx, Function.update_apply]
      split
      · rename_i hlt
        rw [if_neg (by omega), h.bits id hid]
      · rename_i hge
        obtain ⟨j, rfl⟩ := Nat.exists_eq_add_of_le (not_lt.mp hge)
        rw [Nat.add_sub_cancel_left, hbits j, hdrop j hid]
        by_cases hjk : j = k
        · rw [hjk, if_pos (Nat.add_comm ..), decide_eq_true rfl, Bool.true_or]
        · rw [if_neg (by omega), decide_eq_false hjk, Bool.false_or]

/-- `FreeGMRID` on words and on bits. -/
theorem SameGmrIds.freeGMRID {ids : IdAllocators} {a : Accel} (h : SameGmrIds ids a) (id : ℕ) :
    SameGmrIds (ids.freeGMRID id) (a.freeGMRID id) := by
  rw [IdAllocators.freeGMRID, Accel.freeGMRID]
  split
  · exact h
  · have hidx := h.idx
    have hle := h.idx_le
    refine ⟨by rw [length_clearBit, h.length], ?_, ?_, fun j hj => ?_⟩
    · simp only
      split <;> omega
    · simp only
      split <;> omega
    · simp only [bitAt_clearBit (by decide : 0 < 64) (show id < 64 * ids.gmrIdMask.length by
        rw [h.length]; omega), Function.update_apply, h.bits j hj]
      by_cases hji : j = id
      · rw [if_pos hji, decide_eq_true hji, Bool.not_true, Bool.false_and]
      · rw [if_neg hji, decide_eq_false hji, Bool.not_false, Bool.true_and]

end DockerMacos
