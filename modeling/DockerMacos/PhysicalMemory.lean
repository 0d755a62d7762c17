import Mathlib.Algebra.BigOperators.Group.List.Basic
import DockerMacos.Surface

/-!
# Physical Memory

The memory of an `IOMemoryDescriptor` as the driver sees it: `getPhysicalSegment`, called at the
offsets that the loops of the driver go through, returns one physical segment after the other,
and a null address at the end.

## Segments and pages

A segment begins and ends anywhere in a page, and touches every page of which it has a byte.
The device is told of whole pages. A memory has a length in bytes, and the segments have that
length together, but they may touch more pages than the length has: `numPages` counts those of
the length, and `pages` lists those of the segments.

## Main definitions

* `PhysicalSegment`, `PhysicalMemory`: neither an address nor a length of a segment is zero.
* `PhysicalMemory.pages`, `PhysicalMemory.pageRanges`: what the device is told.

## Main results

* `PhysicalSegment.mem_pages_iff`: the pages of a segment are those that hold a byte of it.
* `PhysicalMemory.numPages_le`: the pages of the segments, one by one, are at least the pages of
  their length.
-/

namespace DockerMacos

/-- `max_bits`: addresses below `2 ^ maxBits` have page frame numbers of 32 bits. -/
def maxBits : ℕ := 44

/-- A physical segment: neither its address nor its length is zero. -/
structure PhysicalSegment where
  addr : ℕ
  length : ℕ
  addr_pos : 0 < addr
  length_pos : 0 < length

/-- The memory of an `IOMemoryDescriptor`. -/
structure PhysicalMemory where
  segments : List PhysicalSegment

/-- `getLength`. -/
def PhysicalMemory.length (md : PhysicalMemory) : ℕ :=
  (md.segments.map PhysicalSegment.length).sum

namespace PhysicalSegment

/-- The number of the page in which a segment starts. -/
def firstPage (seg : PhysicalSegment) : ℕ := seg.addr / pageSize

/-- The number of the page in which it ends. -/
def lastPage (seg : PhysicalSegment) : ℕ := (seg.addr + seg.length - 1) / pageSize

/-- How many pages a segment touches. -/
def pageCount (seg : PhysicalSegment) : ℕ := seg.lastPage + 1 - seg.firstPage

/-- The numbers of the pages of a segment, in order. -/
def pages (seg : PhysicalSegment) : List ℕ := List.range' seg.firstPage seg.pageCount

/-- A segment begins no later than it ends. -/
theorem firstPage_le (seg : PhysicalSegment) : seg.firstPage ≤ seg.lastPage := by
  have hpos := seg.length_pos
  exact Nat.div_le_div_right (by omega)

/-- It has a page. -/
theorem pageCount_pos (seg : PhysicalSegment) : 0 < seg.pageCount := by
  have := seg.firstPage_le
  rw [pageCount]
  omega

/-- It has so many pages. -/
@[simp] theorem length_pages (seg : PhysicalSegment) : seg.pages.length = seg.pageCount :=
  List.length_range'

/-- **The pages of a segment** are those that hold a byte of it. -/
theorem mem_pages_iff (seg : PhysicalSegment) (n : ℕ) :
    n ∈ seg.pages ↔ ∃ a, seg.addr ≤ a ∧ a < seg.addr + seg.length ∧ a / pageSize = n := by
  have hpos := seg.length_pos
  rw [pages, List.mem_range'_1, pageCount, firstPage, lastPage, pageSize]
  constructor
  · rintro ⟨h₁, h₂⟩
    refine ⟨max seg.addr (n * 4096), le_max_left _ _, ?_, ?_⟩
    · omega
    · omega
  · rintro ⟨a, h₁, h₂, rfl⟩
    omega

/-- The driver adds the offset in the first page to the length, and rounds up. -/
theorem pageCount_eq (seg : PhysicalSegment) :
    seg.pageCount = (seg.length + seg.addr % pageSize + (pageSize - 1)) / pageSize := by
  have hpos := seg.length_pos
  rw [pageCount, firstPage, lastPage, pageSize]
  omega

end PhysicalSegment

namespace PhysicalMemory

/-- The page frame numbers of a descriptor, segment by segment. -/
def pages (md : PhysicalMemory) : List ℕ := md.segments.flatMap PhysicalSegment.pages

/-- The page ranges of a descriptor: the first page of a segment, and how many follow. -/
def pageRanges (md : PhysicalMemory) : List (ℕ × ℕ) :=
  md.segments.map fun seg => (seg.firstPage, seg.pageCount)

/-- The pages of its length. -/
def numPages (md : PhysicalMemory) : ℕ := (md.length + pageSize - 1) / pageSize

end PhysicalMemory

/-- Segments take at least as many pages as their length does. -/
theorem length_le_pages (segments : List PhysicalSegment) :
    (segments.map PhysicalSegment.length).sum ≤
      (segments.map PhysicalSegment.pageCount).sum * pageSize := by
  induction segments with
  | nil => exact Nat.zero_le _
  | cons seg segments ih =>
      rw [List.map_cons, List.sum_cons, List.map_cons, List.sum_cons, Nat.add_mul]
      have hseg : seg.length ≤ seg.pageCount * pageSize := by
        rw [seg.pageCount_eq, pageSize]
        omega
      omega

/-- The pages of several segments. -/
theorem length_pages_eq (segments : List PhysicalSegment) :
    (segments.flatMap PhysicalSegment.pages).length =
      (segments.map PhysicalSegment.pageCount).sum := by
  induction segments with
  | nil => rfl
  | cons seg segments ih =>
      rw [List.flatMap_cons, List.length_append, ih, seg.length_pages, List.map_cons,
        List.sum_cons]

/-- The pages of the segments are no fewer than those of the length. -/
theorem PhysicalMemory.numPages_le (md : PhysicalMemory) : md.numPages ≤ md.pages.length := by
  have h := length_le_pages md.segments
  rw [← length_pages_eq] at h
  rw [numPages, length, pages, pageSize] at *
  omega

end DockerMacos
