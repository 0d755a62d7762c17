import Mathlib.Logic.Function.Basic
import DockerMacos.ByteMap
import DockerMacos.IOReturn
import DockerMacos.Word32

/-!
# The VRAM Allocator

`VMsvga2Allocator` (`AC/VMsvga2Allocator.cpp`) is a buddy allocator over a pool of VRAM.
It keeps its free lists inside the free blocks: each starts with a magic number and the
block numbers of its neighbours, and ends with its size. A bit map marks the last
minimum block of every allocated block; minimum blocks that were never handed over are
marked too.

## The pool

Addresses are natural numbers. The memory of the pool is given by 32-bit words, counted
from `poolStart`, and the header and the trailer of a block are reached by their word indices
(`blockWord`, `trailerWord`). So a write of a client is a write of a word like any other, and
nothing but the invariant keeps it away from the free lists.

`minBits` and `numSizes` are fields in the source which `Init` always sets to the same values;
they are constants here. The driver is compiled with `FRAGILE`, so the checks of whole areas are
left out and `zap` is false at every call.

## Numbers

Counts and block numbers have 32 bits, and their sums, differences and shifts are those of
`Word32`. Whether one of them wraps is a matter of the invariant, and never of the definition.

## Loops

The loops over sizes count down the sizes that are left; that is their measure. The merge loop
of `Free` and the growing and shrinking loops of `toFree` end in the same way. What the driver
does when a list turns out to be damaged is modelled as well: the call returns an internal
error with the state that it has reached.
-/

namespace DockerMacos

/-- `minBits`: the minimum block is a page. -/
def minBits : ℕ := 12

/-- `numSizes`. -/
def numSizes : ℕ := 13

/-- `OURNULL`. -/
def ourNull : ℕ := 0xFFFFFFFF

/-- `MAGIC`. -/
def allocMagic : ℕ := 0xA7130423

/-- `LEN_OFFSET`. -/
def lenOffset : ℕ := 1234

/-- The state of a `VMsvga2Allocator` and of the memory of its pool. -/
structure VMsvga2Allocator where
  poolStart : ℕ
  poolBlocks : ℕ
  freeList : ℕ → ℕ
  map : ByteMap
  freeBytes : ℕ
  /-- The words of the pool. -/
  mem : ℕ → ℕ

/-- The word index of word `j` of the block with number `block`. -/
def blockWord (block j : ℕ) : ℕ := block * 2 ^ minBits / 4 + j

/-- `pastPtr[OFF_BITS]`: the last word before the block with number `past`. -/
def trailerWord (past : ℕ) : ℕ := blockWord past 0 - 1

/-- One word of memory overwritten. -/
def setWord (mem : ℕ → ℕ) (i v : ℕ) : ℕ → ℕ := Function.update mem i v

namespace VMsvga2Allocator

/-- `ptr[OFF_MAGIC]` of the free block with number `block`. -/
def magicOf (s : VMsvga2Allocator) (block : ℕ) : ℕ := s.mem (blockWord block 0)

/-- `ptr[OFF_PREV]`. -/
def prevOf (s : VMsvga2Allocator) (block : ℕ) : ℕ := s.mem (blockWord block 1)

/-- `ptr[OFF_NEXT]`. -/
def nextOf (s : VMsvga2Allocator) (block : ℕ) : ℕ := s.mem (blockWord block 2)

/-- `pastPtr[OFF_BITS]`. -/
def bitsBefore (s : VMsvga2Allocator) (past : ℕ) : ℕ := s.mem (trailerWord past)

def setMagic (s : VMsvga2Allocator) (block v : ℕ) : VMsvga2Allocator :=
  { s with mem := setWord s.mem (blockWord block 0) v }

def setPrev (s : VMsvga2Allocator) (block v : ℕ) : VMsvga2Allocator :=
  { s with mem := setWord s.mem (blockWord block 1) v }

def setNext (s : VMsvga2Allocator) (block v : ℕ) : VMsvga2Allocator :=
  { s with mem := setWord s.mem (blockWord block 2) v }

def setBitsBefore (s : VMsvga2Allocator) (past v : ℕ) : VMsvga2Allocator :=
  { s with mem := setWord s.mem (trailerWord past) v }

def setFreeList (s : VMsvga2Allocator) (bits v : ℕ) : VMsvga2Allocator :=
  { s with freeList := Function.update s.freeList bits v }

/-- `BITSET`. -/
def markEnd (s : VMsvga2Allocator) (n : ℕ) : VMsvga2Allocator :=
  { s with map := bitSet s.map n }

/-- `BITCLEAR`. -/
def unmarkEnd (s : VMsvga2Allocator) (n : ℕ) : VMsvga2Allocator :=
  { s with map := bitClear s.map n }

/-- The address of the block with number `block`. -/
def addr (s : VMsvga2Allocator) (block : ℕ) : ℕ := s.poolStart + block * 2 ^ minBits

/-! ### The bit map -/

/-- `memAll`: whether the scan for a byte other than `0xFF` leaves no byte. -/
def memAll (map : ByteMap) (p bytes : ℕ) : Bool := scanEqual map 0xFF p bytes = 0

/-- `testAll`: single bits up to a byte boundary, whole bytes, and single bits again. -/
def testAll (s : VMsvga2Allocator) (firstBit pastBit : ℕ) : Bool :=
  let firstFull := (firstBit + 7) / 8 * 8
  let pastFull := pastBit / 8 * 8
  let past := min pastBit firstFull
  let tail := max pastFull past
  (List.range' firstBit (past - firstBit)).all (bitTest s.map) &&
    (if pastFull > firstFull then memAll s.map (firstFull / 8) ((pastFull - firstFull) / 8)
      else true) &&
    (List.range' tail (pastBit - tail)).all (bitTest s.map)

/-- `clearAll`, in the same three parts. -/
def clearAll (s : VMsvga2Allocator) (firstBit pastBit : ℕ) : VMsvga2Allocator :=
  let firstFull := (firstBit + 7) / 8 * 8
  let pastFull := pastBit / 8 * 8
  let past := min pastBit firstFull
  let tail := max pastFull past
  let head := bitsClear s.map firstBit (past - firstBit)
  let body : ByteMap := fun j =>
    if firstFull / 8 ≤ j ∧ j < firstFull / 8 + (pastFull - firstFull) / 8 then 0 else head j
  { s with map := bitsClear body tail (pastBit - tail) }

/-- `clearCheck`. -/
def clearCheck (s : VMsvga2Allocator) (firstBit pastBit : ℕ) : IOReturn × VMsvga2Allocator :=
  if s.testAll firstBit pastBit then (.success, s.clearAll firstBit pastBit)
  else (.badMedia, s)

/-! ### Adding free blocks -/

/-- `makeFree`: a single block goes to the front of its free list. -/
def makeFree (s : VMsvga2Allocator) (firstFree bitsFree : ℕ) (zap : Bool) :
    VMsvga2Allocator :=
  let bytesToFree := 2 ^ (bitsFree + minBits)
  let blocksToFree := 2 ^ bitsFree
  let s :=
    if zap then
      { s.clearAll firstFree (firstFree + blocksToFree) with
        mem := fun i =>
          if blockWord firstFree 0 ≤ i ∧ i < blockWord (firstFree + blocksToFree) 0 then 0
          else s.mem i }
    else s
  let nextOff := s.freeList bitsFree
  let s := s.setMagic firstFree allocMagic
  let s := s.setPrev firstFree ourNull
  let s := s.setNext firstFree nextOff
  let s := s.setBitsBefore (firstFree + blocksToFree) (bitsFree + lenOffset)
  let s := if nextOff ≠ ourNull then s.setPrev nextOff firstFree else s
  let s := s.setFreeList bitsFree firstFree
  { s with freeBytes := add32 s.freeBytes bytesToFree }

/-- The first inner loop of `toFree`: larger blocks, as long as they fit and are on a
boundary. `tryLen` is `2 ^ tryBits`; the first argument counts the sizes left. -/
def growTry (i pastBlock : ℕ) : ℕ → ℕ → ℕ
  | 0, tryBits => tryBits
  | left + 1, tryBits =>
      if i + 2 ^ (tryBits + 1) > pastBlock then tryBits
      else if i &&& (2 ^ (tryBits + 1) - 1) ≠ 0 then tryBits
      else growTry i pastBlock left (tryBits + 1)

/-- The second inner loop of `toFree`: smaller blocks, until one fits and is on a
boundary. The result is `none` when `tryBits` drops below zero. -/
def shrinkTry (i pastBlock : ℕ) : ℕ → Option ℕ
  | 0 => if i + 1 > pastBlock then none else some 0
  | tryBits + 1 =>
      if i + 2 ^ (tryBits + 1) > pastBlock then shrinkTry i pastBlock tryBits
      else if i &&& (2 ^ (tryBits + 1) - 1) ≠ 0 then shrinkTry i pastBlock tryBits
      else some (tryBits + 1)

/-- The outer loop of `toFree`, for at most the given number of blocks. -/
def toFreeLoop (pastBlock : ℕ) (zap : Bool) :
    ℕ → VMsvga2Allocator → ℕ → ℕ → VMsvga2Allocator
  | 0, s, _, _ => s
  | fuel + 1, s, i, tryBits =>
      if i < pastBlock then
        match shrinkTry i pastBlock (growTry i pastBlock (numSizes - 1 - tryBits) tryBits) with
        | none => s
        | some bits =>
            toFreeLoop pastBlock zap fuel (s.makeFree i bits zap) (i + 2 ^ bits) bits
      else s

/-- `toFree`. Every turn of the loop frees at least one minimum block, so there are at
most as many turns as minimum blocks. -/
def toFree (s : VMsvga2Allocator) (firstBlock pastBlock : ℕ) (zap : Bool) :
    VMsvga2Allocator :=
  toFreeLoop pastBlock zap (pastBlock - firstBlock) s firstBlock 0

/-! ### Allocating -/

/-- The search of `BuddyMalloc` for a free list that is not empty, from `bits` on; the
first argument counts the sizes left. -/
def findList (s : VMsvga2Allocator) : ℕ → ℕ → Option ℕ
  | 0, _ => none
  | left + 1, bits => if s.freeList bits ≠ ourNull then some bits else findList s left (bits + 1)

/-- What an allocator function returns: its code, the new state, and the value stored
through the result pointer, if it stores one. -/
abbrev AllocResult := IOReturn × VMsvga2Allocator × Option ℕ

/-- `BuddyMalloc`. -/
def buddyMalloc (s : VMsvga2Allocator) (bits : ℕ) : AllocResult :=
  if s.freeBytes < 2 ^ (bits + minBits) then (.noMemory, s, none)
  else
    match findList s (numSizes - bits) bits with
    | none => (.noMemory, s, none)
    | some retBits =>
        let offset := s.freeList retBits
        if offset ≥ s.poolBlocks then (.internalError, s, none)
        else if s.magicOf offset ≠ allocMagic then (.internalError, s, none)
        else if s.prevOf offset ≠ ourNull then (.internalError, s, none)
        else if s.bitsBefore (offset + 2 ^ retBits) ≠ retBits + lenOffset then
          (.internalError, s, none)
        else
          let nextOffset := s.nextOf offset
          if nextOffset ≠ ourNull ∧ nextOffset ≥ s.poolBlocks then (.internalError, s, none)
          else if nextOffset ≠ ourNull ∧
              (s.magicOf nextOffset ≠ allocMagic ∨ s.prevOf nextOffset ≠ offset) then
            (.internalError, s, none)
          else
            let s := if nextOffset ≠ ourNull then s.setPrev nextOffset ourNull else s
            let s := s.setFreeList retBits nextOffset
            let past := offset + 2 ^ bits
            let s := s.markEnd (past - 1)
            let s := { s with freeBytes := sub32 s.freeBytes (2 ^ (retBits + minBits)) }
            let s := s.toFree past (offset + 2 ^ retBits) false
            (.success, s, some (s.addr offset))

/-- The loop of `BuddyAllocSize`; the first argument counts the sizes left. -/
def allocSizeLoop (s : VMsvga2Allocator) (blockOff : ℕ) : ℕ → ℕ → Option ℕ
  | 0, _ => none
  | left + 1, ourBits =>
      if blockOff + 2 ^ ourBits > s.poolBlocks ∨ blockOff &&& (2 ^ ourBits - 1) ≠ 0 then none
      else if bitTest s.map (blockOff + 2 ^ ourBits - 1) then some ourBits
      else allocSizeLoop s blockOff left (ourBits + 1)

/-- `BuddyAllocSize`: the size of the allocated block at an address. -/
def buddyAllocSize (s : VMsvga2Allocator) (storage : ℕ) : Except IOReturn ℕ :=
  if storage < s.poolStart then .error .notAligned
  else
    let byteOff := storage - s.poolStart
    let blockOff := byteOff / 2 ^ minBits
    if byteOff ≠ blockOff * 2 ^ minBits then .error .notAligned
    else if blockOff ≥ s.poolBlocks then .error .notAligned
    else
      match allocSizeLoop s blockOff numSizes 0 with
      | none => .error .notAligned
      | some ourBits => .ok ourBits

/-- The size loop of `Malloc`; the first argument counts the sizes left. -/
def mallocBits (bytes : ℕ) : ℕ → ℕ → Option ℕ
  | left, bits =>
      if 2 ^ (minBits + bits) < bytes then
        match left with
        | 0 => none
        | left + 1 => mallocBits bytes left (bits + 1)
      else some bits

/-- `Malloc`. -/
def malloc (s : VMsvga2Allocator) (bytes : ℕ) : AllocResult :=
  match mallocBits bytes numSizes 0 with
  | none => (.noResources, s, none)
  | some bits => s.buddyMalloc bits

/-! ### Freeing -/

/-- The removal of a buddy from its free list in the merge loop of `Free`. On an
internal error the state keeps what was already written. -/
def unlinkBuddy (s : VMsvga2Allocator) (bits buddy : ℕ) :
    Except VMsvga2Allocator VMsvga2Allocator :=
  let s := s.setBitsBefore (buddy + 2 ^ bits) 0
  if s.magicOf buddy ≠ allocMagic then .error s
  else if s.freeList bits = ourNull then .error s
  else
    let prevOffset := s.prevOf buddy
    let nextOffset := s.nextOf buddy
    if prevOffset = ourNull then
      if nextOffset ≠ ourNull ∧ nextOffset ≥ s.poolBlocks then .error s
      else if nextOffset ≠ ourNull ∧
          (s.magicOf nextOffset ≠ allocMagic ∨ s.prevOf nextOffset ≠ buddy) then .error s
      else
        let s := if nextOffset ≠ ourNull then s.setPrev nextOffset ourNull else s
        .ok (s.setFreeList bits nextOffset)
    else if prevOffset ≥ s.poolBlocks then .error s
    else if s.magicOf prevOffset ≠ allocMagic then .error s
    else if s.nextOf prevOffset ≠ buddy then .error s
    else if nextOffset ≠ ourNull ∧ nextOffset ≥ s.poolBlocks then .error s
    else if nextOffset ≠ ourNull ∧
        (s.magicOf nextOffset ≠ allocMagic ∨ s.prevOf nextOffset ≠ buddy) then .error s
    else
      let s := if nextOffset ≠ ourNull then s.setPrev nextOffset prevOffset else s
      .ok (s.setNext prevOffset nextOffset)

/-- The merge loop of `Free`: the state, the size and the number of the merged block. The
first argument counts the sizes left. -/
def mergeLoop : ℕ → VMsvga2Allocator → ℕ → ℕ →
    Except VMsvga2Allocator (VMsvga2Allocator × ℕ × ℕ)
  | 0, s, bits, blockOff => .ok (s, bits, blockOff)
  | left + 1, s, bits, blockOff =>
      let buddy := blockOff ^^^ 2 ^ bits
      let pastBuddy := buddy + 2 ^ bits
      if pastBuddy > s.poolBlocks then .ok (s, bits, blockOff)
      else if bitTest s.map (pastBuddy - 1) then .ok (s, bits, blockOff)
      else
        -- a negative `trueBits` is a large unsigned number here
        let trueBits := sub32 (s.bitsBefore pastBuddy) lenOffset
        if trueBits ≥ numSizes then .error s
        else if trueBits ≠ bits then .ok (s, bits, blockOff)
        else
          match unlinkBuddy s bits buddy with
          | .error s => .error s
          | .ok s =>
              let s := ((s.setMagic buddy 0).setPrev buddy 0).setNext buddy 0
              mergeLoop left s (bits + 1) (if buddy < blockOff then buddy else blockOff)

/-- The last part of `Free`: the merged block goes to the front of its free list. -/
def linkFreed (s : VMsvga2Allocator) (bits oldBits blockOff : ℕ) :
    IOReturn × VMsvga2Allocator :=
  let s := s.setMagic blockOff allocMagic
  let s := s.setPrev blockOff ourNull
  let nextOffset := s.freeList bits
  if nextOffset ≠ ourNull ∧ nextOffset ≥ s.poolBlocks then (.internalError, s)
  else if nextOffset ≠ ourNull ∧
      (s.magicOf nextOffset ≠ allocMagic ∨ s.prevOf nextOffset ≠ ourNull) then
    (.internalError, s)
  else
    let s := if nextOffset ≠ ourNull then s.setPrev nextOffset blockOff else s
    let s := s.setNext blockOff nextOffset
    let s := s.setBitsBefore (blockOff + 2 ^ bits) (bits + lenOffset)
    let s := s.setFreeList bits blockOff
    (.success, { s with freeBytes := add32 s.freeBytes (2 ^ (oldBits + minBits)) })

/-- `Free`. -/
def free (s : VMsvga2Allocator) (storage : ℕ) : IOReturn × VMsvga2Allocator :=
  if storage = 0 then (.success, s)
  else
    match s.buddyAllocSize storage with
    | .error e => (e, s)
    | .ok bits =>
        let blockOff := (storage - s.poolStart) / 2 ^ minBits
        let s := s.unmarkEnd (blockOff + 2 ^ bits - 1)
        match mergeLoop (numSizes - 1 - bits) s bits blockOff with
        | .error s => (.internalError, s)
        | .ok (s, bits', blockOff') => s.linkFreed bits' bits blockOff'

/-! ### Reallocating -/

/-- `memcpy` of whole words from one address of the pool to another. -/
def copyBytes (s : VMsvga2Allocator) (dst src bytes : ℕ) : VMsvga2Allocator :=
  let d := (dst - s.poolStart) / 4
  { s with
    mem := fun i =>
      if d ≤ i ∧ i < d + bytes / 4 then s.mem (i - d + (src - s.poolStart) / 4)
      else s.mem i }

/-- The smallest `canBits` from the given one on with `size ≤ 2 ^ canBits`; the first
argument bounds the number of turns. -/
def canBitsLoop (size : ℕ) : ℕ → ℕ → ℕ
  | 0, canBits => canBits
  | left + 1, canBits =>
      if 2 ^ canBits < size then canBitsLoop size left (canBits + 1) else canBits

/-- `Realloc`. The loop for `canBits` runs only when `size` fits the old block, so it
ends after at most `bits` turns. -/
def realloc (s : VMsvga2Allocator) (ptr size : ℕ) : AllocResult :=
  if size = 0 then
    let (ret, s) := s.free ptr
    (ret, s, none)
  else if ptr = 0 then s.malloc size
  else
    match s.buddyAllocSize ptr with
    | .error e => (e, s, none)
    | .ok bits =>
        let lg2Bytes := bits + minBits
        if 2 ^ lg2Bytes < size then
          match s.malloc size with
          | (.success, s, some newPtr) =>
              let s := s.copyBytes newPtr ptr (2 ^ lg2Bytes)
              match s.free ptr with
              | (.success, s) => (.success, s, some newPtr)
              | (e, s) => (e, (s.free newPtr).2, some newPtr)
          | (e, s, newPtr) => (e, s, newPtr)
        else
          let canBits := canBitsLoop size bits minBits
          if canBits ≥ lg2Bytes then (.success, s, some ptr)
          else
            let oldBlocks := 2 ^ bits
            let newBlocks := 2 ^ (canBits - minBits)
            let blockNo := (ptr - s.poolStart) / 2 ^ minBits
            let s := s.markEnd (blockNo + newBlocks - 1)
            let s := s.unmarkEnd (blockNo + oldBlocks - 1)
            (.success, s.toFree (blockNo + newBlocks) (blockNo + oldBlocks) false, some ptr)

/-! ### Setting up -/

/-- `Init`, on memory with the contents `mem`; `mapAllocated` says whether `IOMalloc`
gives it a bit map. -/
def init (s : VMsvga2Allocator) (startAddress bytes : ℕ) (mapAllocated : Bool)
    (mem : ℕ → ℕ) : IOReturn × VMsvga2Allocator :=
  if startAddress % 2 ^ minBits ≠ 0 then (.badArgument, s)
  else if bytes ≠ bytes % 2 ^ 32 then (.badArgument, s)
  else
    let s := { s with poolStart := startAddress, poolBlocks := bytes / 2 ^ minBits, mem := mem }
    if mapAllocated then
      (.success, { s with
        freeBytes := 0
        map := fun _ => 0xFF
        freeList := fun _ => ourNull })
    else (.noMemory, s)

/-- `Release`: a range of the pool is handed over to the allocator. -/
def release (s : VMsvga2Allocator) (startOffsetBytes endOffsetBytes : ℕ) :
    IOReturn × VMsvga2Allocator :=
  if startOffsetBytes % 2 ^ minBits ≠ 0 then (.badArgument, s)
  else if endOffsetBytes % 2 ^ minBits ≠ 0 then (.badArgument, s)
  else
    let startBlock := startOffsetBytes / 2 ^ minBits
    let pastBlockOff := endOffsetBytes / 2 ^ minBits
    if startBlock ≥ s.poolBlocks ∨ pastBlockOff > s.poolBlocks then (.badArgument, s)
    else
      match s.clearCheck startBlock pastBlockOff with
      | (.success, s) => (.success, s.toFree startBlock pastBlockOff false)
      | (e, s) => (e, s)

/-- `Available`. -/
def available (s : VMsvga2Allocator) : ℕ := s.freeBytes

end VMsvga2Allocator

end DockerMacos
