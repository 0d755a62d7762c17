import DockerMacos.CellCopies
import DockerMacos.RegionCopy
import Mathlib.Data.List.ReduceOption
import Mathlib.Data.UInt
import Mathlib.Tactic.MkIffOfInductiveProp

/-!
# Copies of a Surface to Itself

When the source of a region copy is the destination surface, the rows that the software blit
reads and those it writes lie in one image. It copies row by row from the top, rectangle by
rectangle, with `memcpy`, whose operands must not overlap.

## The copies in their order

`copiedRows` lists the calls of `memcpy` in the order of the loops, each as a set of bytes and a
displacement. What is left of the image at the end is then a matter of sequences of copies, and
not of surfaces any more.

## Pixels

A pixel of a rectangle ends with the value that its source had before if the last row that is
copied over it copies its source and no row before has written that source (`PixelsIntact`).
Rows that overlap themselves do not count, as nothing is known about what they leave.

## Main definitions

* `copiedRows`: the copies of the blit in the order of its loops.
* `RegionCopy.Simultaneous`: every pixel ends with the value that its source had before.

## Main results

* `copySelf_simultaneous`: this is so when no pixel is overwritten before its row is copied.
-/

namespace DockerMacos

/-! ### The copies in their order -/

instance (s : BlitSide) (addr l : ℤ) : Decidable (s.Admits addr l) :=
  inferInstanceAs (Decidable (_ ∧ _))

instance (dst src : BlitSide) (rect : IOAccelBounds) (bytesPerPixel : UInt8) (j : ℕ) :
    Decidable (RowCopied dst src rect bytesPerPixel j) :=
  inferInstanceAs (Decidable (_ ∧ _ ∧ _ ∧ _ ∧ ∀ i ≤ j, _))

/-- The copies of the rows that the limit tests let through. -/
def copiedRows (dst src : BlitSide) (bytesPerPixel : UInt8) (rects : List IOAccelBounds) :
    List Memcpy :=
  rects.flatMap fun rect => (List.range rect.h.toInt.toNat).filterMap fun j =>
    if RowCopied dst src rect bytesPerPixel j then
      some (rowMemcpy dst src rect bytesPerPixel j)
    else none

section Rows

variable {dst src : BlitSide} {bytesPerPixel : UInt8} {rect : IOAccelBounds}

/-- A copy is one of a row that is let through. -/
theorem mem_copiedRows {rects : List IOAccelBounds} {c : Memcpy} :
    c ∈ copiedRows dst src bytesPerPixel rects ↔
      ∃ rect ∈ rects, ∃ j, RowCopied dst src rect bytesPerPixel j ∧
        c = rowMemcpy dst src rect bytesPerPixel j := by
  simp only [copiedRows, List.mem_flatMap, List.mem_filterMap, List.mem_range]
  refine exists_congr fun rect => and_congr_right fun _ => exists_congr fun j => ?_
  constructor
  · rintro ⟨-, hsome⟩
    split_ifs at hsome with hcopied
    exact ⟨hcopied, (Option.some.inj hsome).symm⟩
  · rintro ⟨hcopied, rfl⟩
    have hj := hcopied.2.2.2.1
    exact ⟨by omega, if_pos hcopied⟩

/-- What the rows of a rectangle copy. -/
theorem blitRect_eq_map (hdst : dst.base ≠ 0) (hsrc : src.base ≠ 0) (hw : 0 < rect.w.toInt)
    (hh : 0 < rect.h.toInt) :
    blitRect dst src bytesPerPixel rect = (List.range rect.h.toInt.toNat).map fun j =>
      if RowCopied dst src rect bytesPerPixel j then
        some (rowMemcpy dst src rect bytesPerPixel j)
      else none := by
  have hlength : (blitRect dst src bytesPerPixel rect).length = rect.h.toInt.toNat := by
    have hskip : ¬(decide (rect.w ≤ 0) || decide (rect.h ≤ 0)) = true := by
      simp only [Bool.or_eq_true, decide_eq_true_eq, Int16.le_iff_toInt_le, Int16.toInt_zero]
      omega
    rw [blitRect, if_neg hskip, rowLoop_eq_rows, rows_length, rowLoop_turns hh]
  refine List.ext_getElem? fun j => ?_
  by_cases hj : j < rect.h.toInt.toNat
  · have hrow : ∀ c, (blitRect dst src bytesPerPixel rect)[j]? = some (some c) ↔ _ :=
      fun c => blitRect_getElem? hw (show (j : ℤ) < rect.h.toInt by omega) c
    rw [List.getElem?_map, List.getElem?_range hj, Option.map_some]
    split_ifs with hcopied
    · obtain ⟨-, -, -, -, hadm⟩ := hcopied
      refine (hrow _).mpr ⟨rfl, fun i hi => ?_⟩
      simpa only [BlitSide.rowStart, add_assoc] using hadm i hi
    · obtain ⟨o, ho⟩ : ∃ o, (blitRect dst src bytesPerPixel rect)[j]? = some o :=
        ⟨_, List.getElem?_eq_getElem (hlength ▸ hj)⟩
      cases o with
      | none => exact ho
      | some c =>
        obtain ⟨-, hadm⟩ := (hrow c).mp ho
        refine absurd ⟨hdst, hsrc, hw, by omega, fun i hi => ?_⟩ hcopied
        simpa only [BlitSide.rowStart, add_assoc] using hadm i hi
  · rw [List.getElem?_eq_none (by omega), List.getElem?_eq_none]
    rw [List.length_map, List.length_range]
    omega

/-- What a rectangle copies, when both sides are mapped. -/
theorem blitRect_reduceOption (hdst : dst.base ≠ 0) (hsrc : src.base ≠ 0) :
    (blitRect dst src bytesPerPixel rect).reduceOption =
      copiedRows dst src bytesPerPixel [rect] := by
  rw [copiedRows, List.flatMap_singleton]
  by_cases hskip : 0 < rect.w.toInt ∧ 0 < rect.h.toInt
  · rw [blitRect_eq_map hdst hsrc hskip.1 hskip.2, List.reduceOption, List.filterMap_map]
    rfl
  · have hnil : blitRect dst src bytesPerPixel rect = [] := by
      rw [blitRect, if_pos]
      simp only [Bool.or_eq_true, decide_eq_true_eq, Int16.le_iff_toInt_le, Int16.toInt_zero]
      omega
    rw [hnil, List.reduceOption_nil, eq_comm, List.filterMap_eq_nil_iff]
    intro j hj
    rw [List.mem_range] at hj
    exact if_neg fun hcopied => hskip ⟨hcopied.2.2.1, by omega⟩

/-- The copies that the blit makes. -/
theorem blit_reduceOption (bounds : IOAccelBounds) (rects : List IOAccelBounds) :
    (blit dst src (some ⟨bounds, rects⟩) bytesPerPixel).2.flatten.reduceOption =
      copiedRows dst src bytesPerPixel rects := by
  by_cases hnull : dst.base = 0 ∨ src.base = 0
  · simp only [blit, genericBlitCopy, if_pos hnull, List.flatten_nil, List.reduceOption_nil]
    refine (List.eq_nil_iff_forall_not_mem.mpr fun c hc => ?_).symm
    obtain ⟨_, _, j, hcopied, _⟩ := mem_copiedRows.mp hc
    exact hnull.elim hcopied.1 hcopied.2.1
  · push Not at hnull
    have hrects : (blit dst src (some ⟨bounds, rects⟩) bytesPerPixel).2 =
        rects.map (blitRect dst src bytesPerPixel) := by
      simp only [blit, genericBlitCopy, if_neg (not_or.mpr hnull)]
      rfl
    rw [hrects]
    clear hrects
    induction rects with
    | nil => rfl
    | cons rect rects ih =>
      rw [List.map_cons, List.flatten_cons, List.reduceOption_append,
        blitRect_reduceOption hnull.1 hnull.2, ih]
      simp only [copiedRows, List.flatMap_cons, List.flatMap_nil, List.append_nil]

end Rows

/-! ### Displacements -/

/-- The bytes that a `memcpy` writes, and how far it moves them. -/
def Memcpy.cells (c : Memcpy) : CellCopy ℤ :=
  ⟨Set.Ico (c.dst.toNat : ℤ) (c.dst.toNat + c.len.toNat), c.dst.toNat - c.src.toNat⟩

/-- A `memcpy` with disjoint operands does not overlap. -/
theorem Memcpy.not_overlaps {c : Memcpy} (h : c.src.toNat + c.len.toNat ≤ c.dst.toNat ∨
    c.dst.toNat + c.len.toNat ≤ c.src.toNat) : ¬c.cells.Overlaps := by
  rintro ⟨-, b, hb, hb'⟩
  simp only [Memcpy.cells, Set.mem_Ico] at hb hb'
  omega

/-- The image lies among the addresses of the kernel: not among the lowest, and with room above
it. -/
def BlitSide.InKernel (s : BlitSide) : Prop :=
  2 ^ 33 ≤ s.base.toNat ∧ s.base.toNat + s.image.offset.toNat + 2 ^ 33 ≤ 2 ^ 64

section Displacement

variable {dst src : BlitSide} {bytesPerPixel : UInt8} {rect : IOAccelBounds} {j : ℕ}

/-- A signed number in an unsigned product. -/
theorem toNat_toUInt32 (x : Int32) : (x.toUInt32.toNat : ℤ) = x.toInt % 2 ^ 32 := by
  rw [← Int32.toInt_toBitVec, ← UInt32.toNat_toBitVec, Int32.toBitVec_toUInt32,
    BitVec.toInt_eq_toNat_bmod, show (2 : ℤ) ^ 32 = ((2 ^ 32 : ℕ) : ℤ) by rfl, Int.bmod_emod]
  exact (Int.emod_eq_of_lt (by omega) (by omega)).symm

/-- A number and what 32 bits hold of it. -/
theorem bmod_modEq (z : ℤ) : z.bmod (2 ^ 32) ≡ z [ZMOD 2 ^ 32] := by
  rw [Int.ModEq, show (2 : ℤ) ^ 32 = ((2 ^ 32 : ℕ) : ℤ) by rfl, Int.bmod_emod]

/-- The sum of a coordinate and a displacement. -/
theorem displaced_modEq (c : Int16) (d : Int32) :
    (c.toInt32 + d).toInt ≡ c.toInt + d.toInt [ZMOD 2 ^ 32] := by
  rw [Int32.toInt_add, Int16.toInt_toInt32]
  exact bmod_modEq _

/-- The row part of the offset is right modulo `2 ^ 32`. -/
theorem rowOffset_modEq (s : BlitSide) (rect : IOAccelBounds) :
    ((s.rowOffset rect).toNat : ℤ) ≡
      (rect.y.toInt + s.delta.y.toInt) * s.image.pitch.toNat [ZMOD 2 ^ 32] := by
  rw [BlitSide.rowOffset, UInt32.toNat_mul]
  push_cast
  rw [toNat_toUInt32]
  calc (rect.y.toInt32 + s.delta.y).toInt % 2 ^ 32 * s.image.pitch.toNat % 2 ^ 32
      ≡ (rect.y.toInt32 + s.delta.y).toInt % 2 ^ 32 * s.image.pitch.toNat [ZMOD 2 ^ 32] :=
        Int.mod_modEq _ _
    _ ≡ (rect.y.toInt32 + s.delta.y).toInt * s.image.pitch.toNat [ZMOD 2 ^ 32] :=
        (Int.mod_modEq _ _).mul_right _
    _ ≡ (rect.y.toInt + s.delta.y.toInt) * s.image.pitch.toNat [ZMOD 2 ^ 32] :=
        (displaced_modEq _ _).mul_right _

/-- So is the column part. -/
theorem columnOffset_modEq (s : BlitSide) (rect : IOAccelBounds) (bytesPerPixel : UInt8) :
    (s.columnOffset rect bytesPerPixel).toInt ≡
      (rect.x.toInt + s.delta.x.toInt) * bytesPerPixel.toNat [ZMOD 2 ^ 32] := by
  have hbytes := bytesPerPixel.toNat_lt
  rw [BlitSide.columnOffset, Int32.toInt_mul, Int32.toInt_ofNat_of_lt (by omega)]
  exact (bmod_modEq _).trans ((displaced_modEq _ _).mul_right _)

/-- The code's offset is the true one modulo `2 ^ 32`. -/
theorem exists_codeOffset_eq (s : BlitSide) (rect : IOAccelBounds) (bytesPerPixel : UInt8) :
    ∃ k, s.codeOffset rect bytesPerPixel = s.trueOffset rect bytesPerPixel + 2 ^ 32 * k := by
  have hmod := (rowOffset_modEq s rect).add (columnOffset_modEq s rect bytesPerPixel)
  obtain ⟨k, hk⟩ := hmod.symm.dvd
  refine ⟨k, ?_⟩
  rw [BlitSide.codeOffset, BlitSide.trueOffset, ← hk]
  ring

/-- Where the span of a copied row lies. -/
theorem RowCopied.spans (h : RowCopied dst src rect bytesPerPixel j) (hdst : dst.InKernel)
    (hsrc : src.InKernel) :
    dst.Spans (dst.base.toNat + dst.rowStart rect bytesPerPixel j) (rowLength rect bytesPerPixel) ∧
      src.Spans (src.base.toNat + src.rowStart rect bytesPerPixel j)
        (rowLength rect bytesPerPixel) := by
  obtain ⟨-, -, -, -, hadm⟩ := h
  have hcode := dst.codeOffset_bounds rect bytesPerPixel
  have hcode' := src.codeOffset_bounds rect bytesPerPixel
  rw [BlitSide.InKernel] at hdst hsrc
  simp only [BlitSide.rowStart, ← add_assoc] at hadm ⊢
  exact ⟨BlitSide.spans_of_admits hdst.2 (by omega) fun i hi => (hadm i hi).1,
    BlitSide.spans_of_admits hsrc.2 (by omega) fun i hi => (hadm i hi).2⟩

/-- The address of a copied row. -/
theorem toNat_advance_of_spans {s : BlitSide} (hs : s.InKernel)
    (h : s.Spans (s.base.toNat + s.rowStart rect bytesPerPixel j) (rowLength rect bytesPerPixel)) :
    ((s.advance (s.start rect bytesPerPixel) j).toNat : ℤ) =
      s.base.toNat + s.rowStart rect bytesPerPixel j := by
  have haddr := s.advance_start_toNat rect bytesPerPixel j
  rw [BlitSide.InKernel] at hs
  simp only [BlitSide.Spans, BlitSide.rowStart] at h ⊢
  omega

/-- Inside one image a row is moved by its displacement, modulo `2 ^ 32`, and by less than the
size of the image. -/
theorem RowCopied.shift (h : RowCopied dst src rect bytesPerPixel j) (hdst : dst.InKernel)
    (hbase : src.base = dst.base) (himage : src.image = dst.image) :
    ∃ k, (rowMemcpy dst src rect bytesPerPixel j).cells.shift =
        dst.trueOffset rect bytesPerPixel - src.trueOffset rect bytesPerPixel + 2 ^ 32 * k ∧
      -dst.image.offset.toNat ≤ (rowMemcpy dst src rect bytesPerPixel j).cells.shift ∧
      (rowMemcpy dst src rect bytesPerPixel j).cells.shift ≤ dst.image.offset.toNat := by
  have hsrc : src.InKernel := by
    rw [BlitSide.InKernel, hbase, himage]
    exact hdst
  obtain ⟨hspand, hspans⟩ := h.spans hdst hsrc
  obtain ⟨m, hm⟩ := exists_codeOffset_eq dst rect bytesPerPixel
  obtain ⟨n, hn⟩ := exists_codeOffset_eq src rect bytesPerPixel
  have hshift : (rowMemcpy dst src rect bytesPerPixel j).cells.shift =
      dst.codeOffset rect bytesPerPixel - src.codeOffset rect bytesPerPixel := by
    simp only [Memcpy.cells, rowMemcpy, toNat_advance_of_spans hdst hspand,
      toNat_advance_of_spans hsrc hspans, BlitSide.rowStart, hbase, himage]
    omega
  simp only [BlitSide.Spans, BlitSide.rowStart, hbase, himage] at hspand hspans
  refine ⟨m - n, ?_, ?_, ?_⟩
  · rw [hshift, hm, hn]
    ring
  · rw [hshift]
    omega
  · rw [hshift]
    omega

end Displacement

/-! ### Pixels -/

/-- The address of byte `b` of pixel `i` in row `j` of a rectangle, over the integers. -/
def BlitSide.pixelByte (s : BlitSide) (rect : IOAccelBounds) (bytesPerPixel : UInt8)
    (i j b : ℕ) : ℤ :=
  s.place rect bytesPerPixel j + (i * bytesPerPixel.toNat + b : ℕ)

/-- Byte `b` of pixel `i` in row `j` of a rectangle: the source is a pixel of the buffer, and
both bytes lie in their images. -/
@[mk_iff]
structure PixelByte (s : Surface) (dst src : BlitSide) (rect : IOAccelBounds) (i j b : ℕ) :
    Prop where
  column : (i : ℤ) < rect.w.toInt
  row : (j : ℤ) < rect.h.toInt
  byte : b < s.blitBytes.toNat
  inColumns : rect.x.toInt + i ∈ Set.Ico 0 s.scale.buffer.w.toInt
  inRows : rect.y.toInt + j ∈ Set.Ico 0 s.scale.buffer.h.toInt
  dst : dst.Spans (dst.pixelByte rect s.blitBytes i j b) 1
  src : src.Spans (src.pixelByte rect s.blitBytes i j b) 1

instance (s : BlitSide) (addr l : ℤ) : Decidable (s.Spans addr l) :=
  inferInstanceAs (Decidable (_ ∧ _))

instance (s : Surface) (dst src : BlitSide) (rect : IOAccelBounds) (i j b : ℕ) :
    Decidable (PixelByte s dst src rect i j b) :=
  have : ∀ x n : ℤ, Decidable (x ∈ Set.Ico 0 n) := fun x n =>
    inferInstanceAs (Decidable (0 ≤ x ∧ x < n))
  decidable_of_iff' _ (pixelByte_iff s dst src rect i j b)

/-- Under every `memcpy` that copies what does not overlap, whatever the memory holds, every pixel
of the rectangles ends with what its source held before. -/
def Simultaneous (s : Surface) (dst src : BlitSide) (rects : List IOAccelBounds)
    (copies : List Memcpy) : Prop :=
  ∀ memcpy : (ℤ → UInt8) → Memcpy → ℤ → UInt8, CopiesCells Memcpy.cells memcpy → ∀ mem,
    ∀ rect ∈ rects, ∀ i j b, PixelByte s dst src rect i j b →
      copies.foldl memcpy mem (dst.pixelByte rect s.blitBytes i j b) =
        mem (src.pixelByte rect s.blitBytes i j b)

/-- Every pixel of the rectangles stays where it is, or the last of the rows that are copied over
it copies its source, does not overlap itself, and comes before any row that is copied over the
source. -/
def PixelsIntact (s : Surface) (dst src : BlitSide) (rects given : List IOAccelBounds) : Prop :=
  ∀ rect ∈ rects, ∀ i j b, PixelByte s dst src rect i j b →
    dst.pixelByte rect s.blitBytes i j b = src.pixelByte rect s.blitBytes i j b ∨
      SourceIntact Memcpy.cells (copiedRows dst src s.blitBytes given)
        (dst.pixelByte rect s.blitBytes i j b) (src.pixelByte rect s.blitBytes i j b)

section Image

variable {s : Surface} {dst src : BlitSide} {rects given : List IOAccelBounds}

/-- The displacement of a copy in one image. -/
def imageShift (dst src : BlitSide) (bytesPerPixel : UInt8) : ℤ :=
  (dst.delta.y.toInt - src.delta.y.toInt) * dst.image.pitch.toNat +
    (dst.delta.x.toInt - src.delta.x.toInt) * bytesPerPixel.toNat

/-- In one image all pixels are moved by the same number of bytes. -/
theorem trueOffset_sub (himage : src.image = dst.image) (rect : IOAccelBounds)
    (bytesPerPixel : UInt8) :
    dst.trueOffset rect bytesPerPixel - src.trueOffset rect bytesPerPixel =
      imageShift dst src bytesPerPixel := by
  simp only [BlitSide.trueOffset, imageShift, himage]
  ring

/-- So the byte that a byte comes from is that far away. -/
theorem pixelByte_sub (hbase : src.base = dst.base) (himage : src.image = dst.image)
    (rect : IOAccelBounds) (bytesPerPixel : UInt8) (i j b : ℕ) :
    dst.pixelByte rect bytesPerPixel i j b - imageShift dst src bytesPerPixel =
      src.pixelByte rect bytesPerPixel i j b := by
  rw [← trueOffset_sub himage rect]
  simp only [BlitSide.pixelByte, BlitSide.place, hbase, himage]
  ring

/-- In an image of at most 2 GiB every row is moved by the displacement itself, if any pixel of
the image has its destination in the image. -/
theorem shift_eq_imageShift (hdst : dst.InKernel) (hbase : src.base = dst.base)
    (himage : src.image = dst.image) (hsmall : dst.image.offset.toNat ≤ 2 ^ 31)
    {rect : IOAccelBounds} {i j b : ℕ} (hpixel : PixelByte s dst src rect i j b) {c : Memcpy}
    (hc : c ∈ copiedRows dst src s.blitBytes given) :
    c.cells.shift = imageShift dst src s.blitBytes := by
  obtain ⟨r, -, k, hcopied, rfl⟩ := mem_copiedRows.mp hc
  obtain ⟨m, hm, hlow, hhigh⟩ := hcopied.shift hdst hbase himage
  rw [trueOffset_sub himage] at hm
  have hsub := pixelByte_sub hbase himage rect s.blitBytes i j b
  have hdstIn := hpixel.dst
  have hsrcIn := hpixel.src
  simp only [BlitSide.Spans, hbase, himage] at hdstIn hsrcIn
  omega

/-- If the displacement is `0`, no row is moved. -/
theorem shift_eq_zero (hdst : dst.InKernel) (hbase : src.base = dst.base)
    (himage : src.image = dst.image) (hzero : imageShift dst src s.blitBytes = 0) {c : Memcpy}
    (hc : c ∈ copiedRows dst src s.blitBytes given) : c.cells.shift = 0 := by
  obtain ⟨r, -, k, hcopied, rfl⟩ := mem_copiedRows.mp hc
  obtain ⟨m, hm, hlow, hhigh⟩ := hcopied.shift hdst hbase himage
  have hlt := dst.image.offset.toNat_lt
  rw [trueOffset_sub himage, hzero] at hm
  omega

/-- Pixels whose sources are intact end with what these held. -/
theorem PixelsIntact.simultaneous (h : PixelsIntact s dst src rects given) (hdst : dst.InKernel)
    (hbase : src.base = dst.base) (himage : src.image = dst.image) :
    Simultaneous s dst src rects (copiedRows dst src s.blitBytes given) := by
  intro memcpy hmemcpy mem rect hmem i j b hpixel
  rcases h rect hmem i j b hpixel with hstays | hintact
  · have hzero : imageShift dst src s.blitBytes = 0 := by
      have hsub := pixelByte_sub hbase himage rect s.blitBytes i j b
      omega
    rw [hmemcpy.foldl_of_shift_eq_zero (fun c hc => shift_eq_zero hdst hbase himage hzero hc),
      hstays]
  · exact foldl_of_sourceIntact hmemcpy hintact mem

/-- In an image of at most 2 GiB there is no other way. -/
theorem Simultaneous.pixelsIntact
    (h : Simultaneous s dst src rects (copiedRows dst src s.blitBytes given))
    (hdst : dst.InKernel) (hbase : src.base = dst.base) (himage : src.image = dst.image)
    (hsmall : dst.image.offset.toNat ≤ 2 ^ 31) : PixelsIntact s dst src rects given := by
  intro rect hmem i j b hpixel
  have hbytes : Nontrivial UInt8 := ⟨0, 1, by decide⟩
  have hsub := pixelByte_sub hbase himage rect s.blitBytes i j b
  have hshift : ∀ c ∈ copiedRows dst src s.blitBytes given,
      c.cells.shift = imageShift dst src s.blitBytes :=
    fun c hc => shift_eq_imageShift hdst hbase himage hsmall hpixel hc
  have hiff := foldl_copy_iff (β := UInt8) (b := dst.pixelByte rect s.blitBytes i j b) hshift
  rw [hsub] at hiff
  refine (hiff.mp fun memcpy hmemcpy mem => h memcpy hmemcpy mem rect hmem i j b hpixel).imp_left
    fun hzero => ?_
  rw [← hsub, hzero, sub_zero]

end Image

/-! ### The call -/

/-- The sides of the blit of a surface whose memory is at `ptrs` to itself. -/
def Surface.selfSides (s : Surface) (ptrs : UInt64 × UInt64) (region : IOAccelDeviceRegion)
    (destX destY : Int32) : BlitSide × BlitSide :=
  (s.blitSide ptrs (Surface.copyDelta region destX destY), s.blitSide ptrs ⟨0, 0⟩)

/-- After the call every pixel of the clipped region holds what its source held when the surface,
with its backing at `ptrs`, was about to be copied. -/
def RegionCopy.Simultaneous (call : RegionCopy) (ptrs : UInt64 × UInt64)
    (region : IOAccelDeviceRegion) (destX destY : Int32) : Prop :=
  let sides := call.surface.selfSides ptrs region destX destY
  DockerMacos.Simultaneous call.surface sides.1 sides.2
    (call.surface.clippedRects region (Surface.copyDelta region destX destY))
    call.copies.flatten.reduceOption

/-- The sources of all pixels are intact when they are copied. -/
def Surface.CopiesIntact (s : Surface) (ptrs : UInt64 × UInt64) (region : IOAccelDeviceRegion)
    (destX destY : Int32) : Prop :=
  let sides := s.selfSides ptrs region destX destY
  PixelsIntact s sides.1 sides.2 (s.clippedRects region (Surface.copyDelta region destX destY))
    (s.blitRects region (Surface.copyDelta region destX destY))

section Call

variable {s : Surface} {a : Accel} {region : IOAccelDeviceRegion} {regionSize : ℕ}
  {env : BackingEnv} {destX destY : Int32} {kernelMap : Option KernelMapping} {call : RegionCopy}
  {ptrs : UInt64 × UInt64}

/-- The copies of a successful call. -/
theorem copySelf_copies
    (hcall : s.copySurfaceRegionToSelf a .self region regionSize env destX destY kernelMap =
      some call) (hsuccess : call.ret = .success)
    (hptrs : call.surface.obtainKernelPtrs kernelMap = .ok ptrs) :
    call.copies.flatten.reduceOption =
      copiedRows (call.surface.selfSides ptrs region destX destY).1
        (call.surface.selfSides ptrs region destX destY).2 call.surface.blitBytes
        (call.surface.blitRects region (Surface.copyDelta region destX destY)) := by
  rw [Surface.copySurfaceRegionToSelf] at hcall
  cases ho : s.copySurface a (CopySource.self.surface s) (some region) regionSize env .success with
  | none =>
    rw [ho] at hcall
    cases hcall
  | some o =>
    rw [ho] at hcall
    simp only at hcall
    split_ifs at hcall with hret
    · obtain rfl := Option.some.inj hcall
      have hsurface : (o.surface.copyRegionBlit (CopySource.self.surface o.surface) region destX
          destY kernelMap (CopySource.self.kernelMap kernelMap)).surface = o.surface := by
        rw [Surface.copyRegionBlit]
        split <;> rfl
      rw [hsurface] at hptrs ⊢
      simp only [Surface.copyRegionBlit, CopySource.surface, CopySource.kernelMap, hptrs]
      exact blit_reduceOption _ _
    · obtain rfl := Option.some.inj hcall
      exact absurd hsuccess hret

/-- **A copy of a surface to itself** is simultaneous if every pixel's source is intact when it is
copied, and in an image of at most 2 GiB only if. -/
theorem copySelf_simultaneous
    (hcall : s.copySurfaceRegionToSelf a .self region regionSize env destX destY kernelMap =
      some call) (hsuccess : call.ret = .success)
    (hptrs : call.surface.obtainKernelPtrs kernelMap = .ok ptrs)
    (hlow : 2 ^ 33 ≤ ptrs.1.toNat)
    (hhigh : ptrs.1.toNat + ptrs.2.toUInt32.toNat + 2 ^ 33 ≤ 2 ^ 64) :
    (call.surface.CopiesIntact ptrs region destX destY →
        call.Simultaneous ptrs region destX destY) ∧
      (ptrs.2.toUInt32.toNat ≤ 2 ^ 31 → call.Simultaneous ptrs region destX destY →
        call.surface.CopiesIntact ptrs region destX destY) := by
  have hkernel : (call.surface.selfSides ptrs region destX destY).1.InKernel := ⟨hlow, hhigh⟩
  simp only [RegionCopy.Simultaneous, copySelf_copies hcall hsuccess hptrs]
  exact ⟨fun h => h.simultaneous hkernel rfl rfl,
    fun hsmall h => h.pixelsIntact hkernel rfl rfl hsmall⟩

end Call

/-- Two rows of four pixels. -/
def twoRows : IOAccelDeviceRegion := ⟨⟨0, 0, 4, 2⟩, [⟨0, 0, 4, 2⟩]⟩

/-- Two rows of four pixels below the first row of the window. -/
def rowsBelow : IOAccelDeviceRegion := ⟨⟨0, 1, 4, 2⟩, [⟨0, 1, 4, 2⟩]⟩

/-- A window of 16 by 16 pixels at a kernel address. -/
def kernelWindow : Surface :=
  { Surface.init with
    provider := true
    haveID := true
    surfaceFormat := .x8r8g8b8
    bytesPerPixel := 4
    backing := { Backing.init with self := 2 ^ 40, size := 4096 }
    scale := ⟨⟨0, 0, 16, 16⟩, 16, 16, 4096, 64, 0⟩ }

/-- The sides of a copy in a window of 16 by 16 pixels with memory at `base`. -/
def windowSides (base : UInt64) (delta : BlitDelta) : BlitSide × BlitSide :=
  (⟨base, ⟨4096, 64⟩, delta⟩, ⟨base, ⟨4096, 64⟩, ⟨0, 0⟩⟩)

/-- The sides of a copy in such a window. -/
theorem selfSides_window {s : Surface} (hscale : s.scale = ⟨⟨0, 0, 16, 16⟩, 16, 16, 4096, 64, 0⟩)
    (base : UInt64) {region : IOAccelDeviceRegion} {destX destY : Int32} {delta : BlitDelta}
    (hdelta : Surface.copyDelta region destX destY = delta) :
    s.selfSides (base, 4096) region destX destY = windowSides base delta := by
  simp only [Surface.selfSides, Surface.blitSide, hscale, hdelta]
  rfl

/-- Copied up by one, the second row comes to where the first has been copied from, after it has
been. -/
theorem copySelf_simultaneous_up : ∃ call,
    kernelWindow.copySurfaceRegionToSelf smallWorld.accel .self rowsBelow 20 willing 0 0 none =
      some call ∧ call.ret = .success ∧ call.Simultaneous (2 ^ 40, 4096) rowsBelow 0 0 := by
  have heval : (kernelWindow.copySurfaceRegionToSelf smallWorld.accel .self rowsBelow 20 willing 0 0
      none).map (fun call => (call.ret, call.surface)) = some (.success, kernelWindow) := by
    decide +kernel
  obtain ⟨call, hcall, heval⟩ := Option.map_eq_some_iff.mp heval
  simp only [Prod.mk.injEq] at heval
  obtain ⟨hret, hsurface⟩ := heval
  have hok : call.surface.obtainKernelPtrs none = .ok (2 ^ 40, 4096) := by
    rw [hsurface]
    rfl
  refine ⟨call, hcall, hret,
    (copySelf_simultaneous hcall hret hok (by decide) (by decide)).1 ?_⟩
  have hdelta : Surface.copyDelta rowsBelow 0 0 = ⟨0, -1⟩ := rfl
  rw [hsurface, Surface.CopiesIntact, selfSides_window rfl _ hdelta]
  intro rect hmem i j b hpixel
  have hcopies : copiedRows (windowSides (2 ^ 40) ⟨0, -1⟩).1 (windowSides (2 ^ 40) ⟨0, -1⟩).2 4
      [⟨0, 1, 4, 2⟩] = [⟨2 ^ 40, 2 ^ 40 + 64, 16⟩, ⟨2 ^ 40 + 64, 2 ^ 40 + 128, 16⟩] := by
    decide +kernel
  have hrects : kernelWindow.clippedRects rowsBelow (Surface.copyDelta rowsBelow 0 0) =
      [⟨0, 1, 4, 2⟩] := by decide +kernel
  simp only [Surface.blitRects, hrects, List.mem_singleton] at hmem ⊢
  subst hmem
  have hi : (i : ℤ) < 4 := hpixel.column
  have hj : (j : ℤ) < 2 := hpixel.row
  have hb : b < 4 := hpixel.byte
  rw [show kernelWindow.blitBytes = 4 by decide, hcopies]
  have hdst : (windowSides (2 ^ 40) ⟨0, -1⟩).1.pixelByte ⟨0, 1, 4, 2⟩ 4 i j b =
      2 ^ 40 + j * 64 + (i * 4 + b : ℕ) := rfl
  have hsrc : (windowSides (2 ^ 40) ⟨0, -1⟩).2.pixelByte ⟨0, 1, 4, 2⟩ 4 i j b =
      2 ^ 40 + 64 + j * 64 + (i * 4 + b : ℕ) := rfl
  have hfirst : (⟨2 ^ 40, 2 ^ 40 + 64, 16⟩ : Memcpy).cells =
      ⟨Set.Ico (2 ^ 40) (2 ^ 40 + 16), -64⟩ := rfl
  have hsecond : (⟨2 ^ 40 + 64, 2 ^ 40 + 128, 16⟩ : Memcpy).cells =
      ⟨Set.Ico (2 ^ 40 + 64) (2 ^ 40 + 80), -64⟩ := rfl
  rw [hdst, hsrc]
  right
  -- The second copy writes what the first has read; the first writes nothing that is read.
  obtain rfl | rfl : j = 0 ∨ j = 1 := by omega
  · refine ⟨[], _, [_], rfl, ?_, ?_, Memcpy.not_overlaps (by decide), ?_, ?_⟩ <;>
      simp only [List.mem_singleton, forall_eq, List.not_mem_nil, false_imp_iff, implies_true,
        hfirst, hsecond, Set.mem_Ico] <;> omega
  · refine ⟨[_], _, [], rfl, ?_, ?_, Memcpy.not_overlaps (by decide), ?_, ?_⟩ <;>
      simp only [List.mem_singleton, forall_eq, List.not_mem_nil, false_imp_iff, implies_true,
        hfirst, hsecond, Set.mem_Ico] <;> omega

/-- Copied down by one, the first row overwrites the second before it is copied. -/
theorem copySelf_overwrites : ∃ w call,
    Run World.step Always smallWorld (windowSession 0 ++ [drawLock]) w ∧
    (w.surfaces 0).copySurfaceRegionToSelf w.accel .self twoRows 20 willing 0 1 none = some call ∧
    call.ret = .success ∧ call.surface.obtainKernelPtrs none = .ok (0x100000, 4096) ∧
    ¬call.Simultaneous (0x100000, 4096) twoRows 0 1 := by
  have heval : (((windowSession 0 ++ [drawLock]).foldlM World.step smallWorld).bind fun w =>
      ((w.surfaces 0).copySurfaceRegionToSelf w.accel .self twoRows 20 willing 0 1
        none).map fun call =>
        (call.ret, (call.surface.obtainKernelPtrs none).toOption, call.surface.scale,
          call.surface.bytesPerPixel)) =
      some (.success, some (0x100000, 4096), ⟨⟨0, 0, 16, 16⟩, 16, 16, 4096, 64, 0⟩, 4) := by
    decide +kernel
  obtain ⟨w, hfold, heval⟩ := Option.bind_eq_some_iff.mp heval
  obtain ⟨call, hcall, heval⟩ := Option.map_eq_some_iff.mp heval
  simp only [Prod.mk.injEq] at heval
  obtain ⟨hret, hptrs, hscale, hbytes⟩ := heval
  have hok : call.surface.obtainKernelPtrs none = .ok (0x100000, 4096) := by
    cases hres : call.surface.obtainKernelPtrs none with
    | error e => simp [hres, Except.toOption] at hptrs
    | ok ptrs => simpa [hres, Except.toOption] using hptrs
  refine ⟨w, call, run_of_foldlM hfold, hcall, hret, hok, fun hsim => ?_⟩
  have hpixel : PixelByte call.surface (windowSides 0x100000 ⟨0, 1⟩).1
      (windowSides 0x100000 ⟨0, 1⟩).2 ⟨0, 0, 4, 2⟩ 0 1 0 := by
    rw [pixelByte_iff, Surface.blitBytes, hbytes, hscale]
    decide +kernel
  have hrects : call.surface.clippedRects twoRows (Surface.copyDelta twoRows 0 1) =
      [⟨0, 0, 4, 2⟩] := by
    rw [Surface.clippedRects, hscale]
    decide +kernel
  have hcopies : copiedRows (windowSides 0x100000 ⟨0, 1⟩).1 (windowSides 0x100000 ⟨0, 1⟩).2 4
      [⟨0, 0, 4, 2⟩] = [⟨0x100040, 0x100000, 16⟩, ⟨0x100080, 0x100040, 16⟩] := by
    decide +kernel
  -- The second row's first byte is that of the first row, which has come there before.
  let mem : ℤ → UInt8 := fun a => if a = 0x100040 then 1 else 0
  have hscrub := scrubbing_copies Memcpy.cells (0 : UInt8)
  simp only [RegionCopy.Simultaneous, copySelf_copies hcall hret hok, Surface.blitRects, hrects,
    selfSides_window hscale _ (show Surface.copyDelta twoRows 0 1 = ⟨0, 1⟩ from rfl)] at hsim
  have hend := hsim _ hscrub mem ⟨0, 0, 4, 2⟩ (List.mem_singleton_self _) 0 1 0 hpixel
  rw [Surface.blitBytes, hbytes, show UInt8.ofNat 4 = 4 by decide, hcopies,
    show (windowSides 0x100000 ⟨0, 1⟩).1.pixelByte ⟨0, 0, 4, 2⟩ 4 0 1 0 = 0x100080 by decide,
    show (windowSides 0x100000 ⟨0, 1⟩).2.pixelByte ⟨0, 0, 4, 2⟩ 4 0 1 0 = 0x100040 by decide,
    List.foldl_cons, List.foldl_cons, List.foldl_nil,
    hscrub.moves _ _ (Memcpy.not_overlaps (by decide)) _ ⟨by decide, by decide⟩] at hend
  rw [show (0x100080 : ℤ) - (⟨0x100080, 0x100040, 16⟩ : Memcpy).cells.shift = 0x100040 by decide,
    hscrub.moves _ _ (Memcpy.not_overlaps (by decide)) _ ⟨by decide, by decide⟩] at hend
  exact absurd hend (by decide)

end DockerMacos
