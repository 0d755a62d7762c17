import DockerMacos.AccelCommands
import Mathlib.Data.Int.ModEq

/-!
# The Software Blit

`genericBlitCopy` of the accelerator (`AC/VMsvga2Accel.cpp`) copies a region row by row between
two images in memory. The fixed-width arithmetic is the code's own: the sums of coordinates
wrap at 32 bits, the addresses at 64.

## The row loop

Each turn of the loop tests one row against the limits of both images and copies it, or skips it.
The addresses are moved on only by a row that has been copied, so a row that is skipped is tried
again, and none of the rows behind it is copied. The limit tests look at both ends of a row, the
end with a sum that may wrap.

## Addresses over the integers

Where a row lies is said over the integers (`BlitSide.place`), and compared with the address that
the code computes. The 32-bit offset of the first row is the one place where the two may differ;
from then on the code adds pitches to a 64-bit address.

## Main definitions

* `genericBlitCopy`: for every rectangle, what each turn of the row loop has copied.
* `BlitSide.place`: where a row lies, over the integers.

## Main results

* `blitRect_getElem?`: a row is copied exactly when it and the rows before it are in bounds.
* `genericBlitCopy_complete`: when every row that lies inside both images is copied.
* `genericBlitCopy_bounded`: when every copy stays inside the images.
-/

namespace DockerMacos

/-- `SVGAGuestImage`; the blit takes `ptr.offset` for the size of the image. -/
structure SVGAGuestImage where
  offset : UInt32
  pitch : UInt32

/-- The displacement of a blit, a `SVGASignedPoint`. -/
structure BlitDelta where
  x : Int32
  y : Int32

/-- One side of a blit: the base address, the image and the displacement. -/
structure BlitSide where
  base : UInt64
  image : SVGAGuestImage
  delta : BlitDelta

/-- A call of `memcpy`. -/
structure Memcpy where
  dst : UInt64
  src : UInt64
  len : UInt64
  deriving DecidableEq

namespace BlitSide

/-- `dst_limit`, `src_limit`. -/
def limit (s : BlitSide) : UInt64 := s.base + s.image.offset.toUInt64

/-- `(rect->y + delta->y) * image->pitch`, unsigned. -/
def rowOffset (s : BlitSide) (rect : IOAccelBounds) : UInt32 :=
  (rect.y.toInt32 + s.delta.y).toUInt32 * s.image.pitch

/-- `(rect->x + delta->x) * bytes_per_pixel`, signed. -/
def columnOffset (s : BlitSide) (rect : IOAccelBounds) (bytesPerPixel : UInt8) : Int32 :=
  (rect.x.toInt32 + s.delta.x) * Int32.ofNat bytesPerPixel.toNat

/-- The address at which the row loop starts, `addr1` and `addr2`. -/
def start (s : BlitSide) (rect : IOAccelBounds) (bytesPerPixel : UInt8) : UInt64 :=
  s.base + (s.rowOffset rect).toUInt64 + (s.columnOffset rect bytesPerPixel).toInt64.toUInt64

/-- The limit test of the row loop at an address. -/
def outside (s : BlitSide) (addr l : UInt64) : Bool :=
  addr < s.base || s.limit < addr + l

end BlitSide

/-- A turn of the row loop brings `j` nearer to `rect->h`, modulo `2 ^ 16`. -/
theorem rowLoop_left {h j : Int16} (hj : j ≠ h) :
    (h - j).toUInt16.toNat = (h - (j + 1)).toUInt16.toNat + 1 := by
  have hne : j.toBitVec ≠ h.toBitVec := fun heq => hj (Int16.toBitVec_inj.mp heq)
  change (h.toBitVec - j.toBitVec).toNat = (h.toBitVec - (j.toBitVec + 1#16)).toNat + 1
  bv_omega

/-- The loop over the rows of a rectangle, at row `j` and the addresses it has reached: what
each turn copies. A row outside a limit is skipped, and the addresses stay. -/
def rowLoop (dst src : BlitSide) (h : Int16) (l : UInt64) (j : Int16) (addr1 addr2 : UInt64) :
    List (Option Memcpy) :=
  if j = h then
    []
  else if dst.outside addr1 l || src.outside addr2 l then
    none :: rowLoop dst src h l (j + 1) addr1 addr2
  else
    some ⟨addr1, addr2, l⟩ :: rowLoop dst src h l (j + 1)
      (addr1 + dst.image.pitch.toUInt64) (addr2 + src.image.pitch.toUInt64)
termination_by (h - j).toUInt16.toNat
decreasing_by all_goals exact rowLoop_left ‹_› ▸ Nat.lt_succ_self _

/-- The body of the loop over the rectangles. -/
def blitRect (dst src : BlitSide) (bytesPerPixel : UInt8) (rect : IOAccelBounds) :
    List (Option Memcpy) :=
  if rect.w ≤ 0 || rect.h ≤ 0 then
    []
  else
    rowLoop dst src rect.h (rect.w.toInt64.toUInt64 * bytesPerPixel.toUInt64) 0
      (dst.start rect bytesPerPixel) (src.start rect bytesPerPixel)

/-- `genericBlitCopy`: the result, and for every rectangle what the rows of it have copied. -/
def genericBlitCopy (dstBase : UInt64) (dstImage : Option SVGAGuestImage)
    (dstDelta : Option BlitDelta) (srcBase : UInt64) (srcImage : Option SVGAGuestImage)
    (srcDelta : Option BlitDelta) (region : Option IOAccelDeviceRegion) (bytesPerPixel : UInt8) :
    IOReturn × List (List (Option Memcpy)) :=
  if dstBase = 0 ∨ srcBase = 0 then
    (.badArgument, [])
  else
    match dstImage, dstDelta, srcImage, srcDelta with
    | some dstImage, some dstDelta, some srcImage, some srcDelta =>
      (.success, (regionRects region).map
        (blitRect ⟨dstBase, dstImage, dstDelta⟩ ⟨srcBase, srcImage, srcDelta⟩ bytesPerPixel))
    | _, _, _, _ => (.badArgument, [])

/-! ### The row loop -/

/-- The address `addr` after `i` rows that were copied. -/
def BlitSide.advance (s : BlitSide) (addr : UInt64) (i : ℕ) : UInt64 :=
  addr + UInt64.ofNat i * s.image.pitch.toUInt64

/-- Before the first turn the address is that of the start. -/
@[simp]
theorem BlitSide.advance_zero (s : BlitSide) (addr : UInt64) : s.advance addr 0 = addr := by
  simp [advance]

/-- One turn adds the pitch. -/
theorem BlitSide.advance_succ (s : BlitSide) (addr : UInt64) (i : ℕ) :
    s.advance addr (i + 1) = s.advance (addr + s.image.pitch.toUInt64) i := by
  simp only [advance, UInt64.ofNat_add]
  grind

/-- The next `n` turns of the row loop. -/
def rows (dst src : BlitSide) (l : UInt64) : ℕ → UInt64 → UInt64 → List (Option Memcpy)
  | 0, _, _ => []
  | n + 1, addr1, addr2 =>
    if dst.outside addr1 l || src.outside addr2 l then
      none :: rows dst src l n addr1 addr2
    else
      some ⟨addr1, addr2, l⟩ :: rows dst src l n
        (addr1 + dst.image.pitch.toUInt64) (addr2 + src.image.pitch.toUInt64)

/-- The row loop ends when it has made the turns that are left. -/
theorem rowLoop_eq_rows (dst src : BlitSide) (h : Int16) (l : UInt64) (j : Int16)
    (addr1 addr2 : UInt64) :
    rowLoop dst src h l j addr1 addr2 =
      rows dst src l (h - j).toUInt16.toNat addr1 addr2 := by
  fun_induction rowLoop dst src h l j addr1 addr2 with
  | case1 addr1 addr2 => rw [show (h - h).toUInt16.toNat = 0 by rw [Int16.sub_self]; rfl, rows]
  | case2 j addr1 addr2 hj hout ih => rw [rowLoop_left hj, rows, if_pos hout, ih]
  | case3 j addr1 addr2 hj hin ih => rw [rowLoop_left hj, rows, if_neg hin, ih]

/-- Every turn of the row loop is listed, whether or not it copies. -/
@[simp]
theorem rows_length (dst src : BlitSide) (l : UInt64) (n : ℕ) (addr1 addr2 : UInt64) :
    (rows dst src l n addr1 addr2).length = n := by
  induction n generalizing addr1 addr2 with
  | zero => rfl
  | succ n ih =>
    rw [rows]
    split <;> simp [ih]

/-- A row outside a limit keeps every row after it from being copied. -/
theorem rows_of_outside {dst src : BlitSide} {l addr1 addr2 : UInt64}
    (hout : dst.outside addr1 l || src.outside addr2 l) (n : ℕ) :
    rows dst src l n addr1 addr2 = List.replicate n none := by
  induction n with
  | zero => rfl
  | succ n ih => rw [rows, if_pos hout, ih, List.replicate_succ]

/-- A row is copied exactly when the limit tests let it and every row before it through. -/
theorem rows_getElem? {dst src : BlitSide} {l addr1 addr2 : UInt64} {n j : ℕ} (hj : j < n)
    (c : Memcpy) :
    (rows dst src l n addr1 addr2)[j]? = some (some c) ↔
      c = ⟨dst.advance addr1 j, src.advance addr2 j, l⟩ ∧
        ∀ i ≤ j, dst.outside (dst.advance addr1 i) l = false ∧
          src.outside (src.advance addr2 i) l = false := by
  induction n generalizing addr1 addr2 j with
  | zero => omega
  | succ n ih =>
    by_cases hout : (dst.outside addr1 l || src.outside addr2 l) = true
    · rw [rows_of_outside hout, List.getElem?_replicate, if_pos hj]
      constructor
      · intro hnone
        simp at hnone
      · rintro ⟨-, hin⟩
        have h0 := hin 0 (Nat.zero_le j)
        simp only [BlitSide.advance_zero] at h0
        simp [h0.1, h0.2] at hout
    · rw [rows, if_neg hout]
      simp only [Bool.or_eq_true, not_or, Bool.not_eq_true] at hout
      cases j with
      | zero =>
        simp only [List.getElem?_cons_zero, Option.some.injEq, BlitSide.advance_zero,
          nonpos_iff_eq_zero, forall_eq]
        exact ⟨fun hc => ⟨hc.symm, hout⟩, fun hc => hc.1.symm⟩
      | succ j =>
        rw [List.getElem?_cons_succ, ih (by omega), ← BlitSide.advance_succ,
          ← BlitSide.advance_succ]
        refine and_congr_right fun _ => ⟨fun hin i hi => ?_, fun hin i hi => ?_⟩
        · obtain _ | i := i
          · simpa using hout
          · rw [BlitSide.advance_succ, BlitSide.advance_succ]
            exact hin i (by omega)
        · rw [← BlitSide.advance_succ, ← BlitSide.advance_succ]
          exact hin (i + 1) (by omega)

/-! ### Addresses over the integers -/

/-- A signed number in an unsigned sum. -/
theorem toNat_toUInt64 (x : Int64) : (x.toUInt64.toNat : ℤ) = x.toInt % 2 ^ 64 := by
  rw [← Int64.toInt_toBitVec, ← UInt64.toNat_toBitVec, Int64.toBitVec_toUInt64,
    BitVec.toInt_eq_toNat_bmod, show (2 : ℤ) ^ 64 = ((2 ^ 64 : ℕ) : ℤ) by rfl, Int.bmod_emod]
  exact (Int.emod_eq_of_lt (by omega) (by omega)).symm

namespace BlitSide

variable (s : BlitSide) (rect : IOAccelBounds) (bytesPerPixel : UInt8)

/-- The displacement of the first row from the base, as the code computes it. -/
def codeOffset : ℤ := (s.rowOffset rect).toNat + (s.columnOffset rect bytesPerPixel).toInt

/-- The displacement of the first row from the base, over the integers. -/
def trueOffset : ℤ :=
  (rect.y.toInt + s.delta.y.toInt) * s.image.pitch.toNat +
    (rect.x.toInt + s.delta.x.toInt) * bytesPerPixel.toNat

/-- The address of row `j`, over the integers. -/
def place (j : ℕ) : ℤ :=
  s.base.toNat + s.trueOffset rect bytesPerPixel + j * s.image.pitch.toNat

/-- The limit test lets a span of `l` bytes at `addr` through. -/
def Admits (addr l : ℤ) : Prop :=
  s.base.toNat ≤ addr % 2 ^ 64 ∧
    (addr % 2 ^ 64 + l) % 2 ^ 64 ≤ (s.base.toNat + s.image.offset.toNat) % 2 ^ 64

/-- A span of `l` bytes at `addr` lies in the image. -/
def Spans (addr l : ℤ) : Prop :=
  s.base.toNat ≤ addr ∧ addr + l ≤ s.base.toNat + s.image.offset.toNat

/-- The address at turn `i`, in 64 bits. -/
theorem advance_start_toNat (i : ℕ) :
    ((s.advance (s.start rect bytesPerPixel) i).toNat : ℤ) =
      (s.base.toNat + s.codeOffset rect bytesPerPixel + i * s.image.pitch.toNat) % 2 ^ 64 := by
  simp only [advance, start, codeOffset, UInt64.toNat_add, UInt64.toNat_mul, UInt64.toNat_ofNat',
    UInt32.toNat_toUInt64, Int32.toInt_toInt64, Nat.cast_add, Nat.cast_mul, Int.natCast_emod,
    Nat.cast_pow,
    Nat.cast_ofNat, toNat_toUInt64, Int.emod_add_emod, Int.add_emod_emod, ← add_assoc]
  exact ((Int.mod_modEq (i : ℤ) (2 ^ 64)).mul_right _).add_left _

/-- The limit test of the source, as an admission. -/
theorem outside_eq_false_iff {addr l : UInt64} :
    s.outside addr l = false ↔ s.Admits addr.toNat l.toNat := by
  have hlt := addr.toNat_lt
  rw [outside, Bool.or_eq_false_iff, decide_eq_false_iff_not, decide_eq_false_iff_not,
    UInt64.not_lt, UInt64.not_lt, UInt64.le_iff_toNat_le, UInt64.le_iff_toNat_le, limit,
    UInt64.toNat_add, UInt64.toNat_add, UInt32.toNat_toUInt64, Admits]
  omega

/-- What the row loop tests at its `i`-th address. -/
theorem outside_advance_start {i : ℕ} {l : UInt64} :
    s.outside (s.advance (s.start rect bytesPerPixel) i) l = false ↔
      s.Admits (s.base.toNat + s.codeOffset rect bytesPerPixel + i * s.image.pitch.toNat)
        l.toNat := by
  rw [outside_eq_false_iff, advance_start_toNat, Admits,
    Int.emod_emod_of_dvd _ (dvd_refl _), Admits]

end BlitSide

/-- The bytes in a row of a rectangle. -/
def rowLength (rect : IOAccelBounds) (bytesPerPixel : UInt8) : ℕ :=
  rect.w.toInt.toNat * bytesPerPixel.toNat

/-- A row of a rectangle has less than `2 ^ 23` bytes. -/
theorem rowLength_lt (rect : IOAccelBounds) (bytesPerPixel : UInt8) :
    rowLength rect bytesPerPixel < 2 ^ 23 := by
  have hw : rect.w.toInt.toNat < 2 ^ 15 := by
    have := rect.w.toInt_lt
    omega
  have hb := bytesPerPixel.toNat_lt
  calc rowLength rect bytesPerPixel ≤ rect.w.toInt.toNat * 2 ^ 8 :=
        Nat.mul_le_mul_left _ hb.le
    _ < 2 ^ 23 := by omega

/-- `l` of `genericBlitCopy` for a rectangle that is not skipped. -/
theorem rowLength_toNat {rect : IOAccelBounds} (hw : 0 < rect.w.toInt) (bytesPerPixel : UInt8) :
    (rect.w.toInt64.toUInt64 * bytesPerPixel.toUInt64).toNat = rowLength rect bytesPerPixel := by
  have hlt := rowLength_lt rect bytesPerPixel
  have hcast : (rect.w.toInt64.toUInt64.toNat : ℤ) = rect.w.toInt := by
    have hlt := rect.w.toInt_lt
    rw [toNat_toUInt64, Int16.toInt_toInt64]
    exact Int.emod_eq_of_lt hw.le (by omega)
  rw [UInt64.toNat_mul, UInt8.toNat_toUInt64,
    show rect.w.toInt64.toUInt64.toNat = rect.w.toInt.toNat by omega]
  exact Nat.mod_eq_of_lt (by rw [rowLength] at hlt; omega)

/-- The row loop of a rectangle makes `rect->h` turns. -/
theorem rowLoop_turns {h : Int16} (hh : 0 < h.toInt) : (h - 0).toUInt16.toNat = h.toInt.toNat := by
  have hlt := h.toBitVec.isLt
  have hnat : (h - 0).toUInt16.toNat = h.toBitVec.toNat := by
    rw [Int16.sub_zero]
    rfl
  rw [← Int16.toInt_toBitVec, BitVec.toInt_eq_toNat_cond] at hh ⊢
  omega

/-- What the row loop copies at row `j` of a rectangle. -/
theorem blitRect_getElem? {dst src : BlitSide} {bytesPerPixel : UInt8} {rect : IOAccelBounds}
    {j : ℕ} (hw : 0 < rect.w.toInt) (hj : (j : ℤ) < rect.h.toInt) (c : Memcpy) :
    (blitRect dst src bytesPerPixel rect)[j]? = some (some c) ↔
      c = ⟨dst.advance (dst.start rect bytesPerPixel) j,
          src.advance (src.start rect bytesPerPixel) j,
          rect.w.toInt64.toUInt64 * bytesPerPixel.toUInt64⟩ ∧
        ∀ i ≤ j,
          dst.Admits (dst.base.toNat + dst.codeOffset rect bytesPerPixel +
            i * dst.image.pitch.toNat) (rowLength rect bytesPerPixel) ∧
          src.Admits (src.base.toNat + src.codeOffset rect bytesPerPixel +
            i * src.image.pitch.toNat) (rowLength rect bytesPerPixel) := by
  have hskip : ¬(decide (rect.w ≤ 0) || decide (rect.h ≤ 0)) = true := by
    simp only [Bool.or_eq_true, decide_eq_true_eq, Int16.le_iff_toInt_le, Int16.toInt_zero]
    omega
  rw [blitRect, if_neg hskip, rowLoop_eq_rows, rowLoop_turns (by omega),
    rows_getElem? (by omega)]
  simp only [BlitSide.outside_advance_start, rowLength_toNat hw]

/-! ### Completeness -/

/-- Row `j` of a rectangle lies in both images. -/
def RowInside (dst src : BlitSide) (rect : IOAccelBounds) (bytesPerPixel : UInt8) (j : ℕ) : Prop :=
  0 < rect.w.toInt ∧ (j : ℤ) < rect.h.toInt ∧
    dst.Spans (dst.place rect bytesPerPixel j) (rowLength rect bytesPerPixel) ∧
    src.Spans (src.place rect bytesPerPixel j) (rowLength rect bytesPerPixel)

/-- The copy moves row `j` of a rectangle to its place. -/
def Memcpy.MovesRow (c : Memcpy) (dst src : BlitSide) (rect : IOAccelBounds)
    (bytesPerPixel : UInt8) (j : ℕ) : Prop :=
  (c.dst.toNat : ℤ) = dst.place rect bytesPerPixel j ∧
    (c.src.toNat : ℤ) = src.place rect bytesPerPixel j ∧
    c.len.toNat = rowLength rect bytesPerPixel

/-- The offset arithmetic of the code is exact for a rectangle. -/
def BlitSide.Exact (s : BlitSide) (rect : IOAccelBounds) (bytesPerPixel : UInt8) : Prop :=
  s.codeOffset rect bytesPerPixel = s.trueOffset rect bytesPerPixel

/-- The limit tests let every row of a rectangle up to row `j` through. -/
def RowsAdmitted (dst src : BlitSide) (rect : IOAccelBounds) (bytesPerPixel : UInt8) (j : ℕ) :
    Prop :=
  ∀ i ≤ j, dst.Admits (dst.place rect bytesPerPixel i) (rowLength rect bytesPerPixel) ∧
    src.Admits (src.place rect bytesPerPixel i) (rowLength rect bytesPerPixel)

namespace BlitSide

variable {s : BlitSide} {rect : IOAccelBounds} {bytesPerPixel : UInt8} {j : ℕ}

/-- The code's offsets lie within `2 ^ 33` of `0`. -/
theorem codeOffset_bounds (s : BlitSide) (rect : IOAccelBounds) (bytesPerPixel : UInt8) :
    -2 ^ 31 ≤ s.codeOffset rect bytesPerPixel ∧
      s.codeOffset rect bytesPerPixel < 2 ^ 32 + 2 ^ 31 := by
  have hrow := (s.rowOffset rect).toNat_lt
  have hle := (s.columnOffset rect bytesPerPixel).le_toInt
  have hlt := (s.columnOffset rect bytesPerPixel).toInt_lt
  rw [codeOffset]
  omega

/-- Among the rows there are, the pitch moves the address by less than `2 ^ 47`. -/
theorem pitch_lt (s : BlitSide) (hj : (j : ℤ) < rect.h.toInt) :
    (j : ℤ) * s.image.pitch.toNat < 2 ^ 47 := by
  have hh := rect.h.toInt_lt
  have hp := s.image.pitch.toNat_lt
  calc (j : ℤ) * s.image.pitch.toNat ≤ j * 2 ^ 32 :=
        Int.mul_le_mul_of_nonneg_left (by omega) (Int.natCast_nonneg j)
    _ < 2 ^ 47 := by omega

/-- The address of a row inside the image is the right one exactly when the offset is. -/
theorem exact_iff (hj : (j : ℤ) < rect.h.toInt)
    (hspan : s.Spans (s.place rect bytesPerPixel j) (rowLength rect bytesPerPixel))
    (hadm : s.Admits (s.base.toNat + s.codeOffset rect bytesPerPixel +
      j * s.image.pitch.toNat) (rowLength rect bytesPerPixel)) :
    ((s.advance (s.start rect bytesPerPixel) j).toNat : ℤ) = s.place rect bytesPerPixel j ↔
      s.Exact rect bytesPerPixel := by
  have hcode := codeOffset_bounds s rect bytesPerPixel
  have hpitch := s.pitch_lt hj
  have hpos : (0 : ℤ) ≤ j * s.image.pitch.toNat :=
    Int.mul_nonneg (Int.natCast_nonneg j) (Int.natCast_nonneg _)
  have hbase := s.base.toNat_lt
  have hoff := s.image.offset.toNat_lt
  rw [advance_start_toNat, Exact]
  simp only [Admits, Spans, place] at hspan hadm ⊢
  omega

/-- With the exact offset, the tests are made at the places of the rows. -/
theorem Exact.place_eq (h : s.Exact rect bytesPerPixel) (i : ℕ) :
    s.base.toNat + s.codeOffset rect bytesPerPixel + i * s.image.pitch.toNat =
      s.place rect bytesPerPixel i := by
  rw [h, place]

end BlitSide

/-- What becomes of a row inside both images. -/
theorem blitRect_moves_iff {dst src : BlitSide} {rect : IOAccelBounds} {bytesPerPixel : UInt8}
    {j : ℕ} (hin : RowInside dst src rect bytesPerPixel j) :
    (∃ c, (blitRect dst src bytesPerPixel rect)[j]? = some (some c) ∧
        c.MovesRow dst src rect bytesPerPixel j) ↔
      dst.Exact rect bytesPerPixel ∧ src.Exact rect bytesPerPixel ∧
        RowsAdmitted dst src rect bytesPerPixel j := by
  obtain ⟨hw, hj, hdst, hsrc⟩ := hin
  constructor
  · rintro ⟨c, hc, hcd, hcs, -⟩
    obtain ⟨rfl, hadm⟩ := (blitRect_getElem? hw hj c).mp hc
    have hed := (BlitSide.exact_iff hj hdst (hadm j le_rfl).1).mp hcd
    have hes := (BlitSide.exact_iff hj hsrc (hadm j le_rfl).2).mp hcs
    refine ⟨hed, hes, fun i hi => ?_⟩
    have := hadm i hi
    rwa [hed.place_eq, hes.place_eq] at this
  · rintro ⟨hed, hes, hrows⟩
    have hadm : ∀ i ≤ j,
        dst.Admits (dst.base.toNat + dst.codeOffset rect bytesPerPixel +
          i * dst.image.pitch.toNat) (rowLength rect bytesPerPixel) ∧
        src.Admits (src.base.toNat + src.codeOffset rect bytesPerPixel +
          i * src.image.pitch.toNat) (rowLength rect bytesPerPixel) := by
      intro i hi
      rw [hed.place_eq, hes.place_eq]
      exact hrows i hi
    exact ⟨_, (blitRect_getElem? hw hj _).mpr ⟨rfl, hadm⟩,
      (BlitSide.exact_iff hj hdst (hadm j le_rfl).1).mpr hed,
      (BlitSide.exact_iff hj hsrc (hadm j le_rfl).2).mpr hes, rowLength_toNat hw _⟩

/-- The blit of a region between two images. -/
def blit (dst src : BlitSide) (region : Option IOAccelDeviceRegion) (bytesPerPixel : UInt8) :
    IOReturn × List (List (Option Memcpy)) :=
  genericBlitCopy dst.base (some dst.image) (some dst.delta) src.base (some src.image)
    (some src.delta) region bytesPerPixel

/-- What row `j` of rectangle `k` has copied. -/
def rowCopy (copies : List (List (Option Memcpy))) (k j : ℕ) : Option Memcpy :=
  (copies[k]?.bind (·[j]?)).join

/-- What a row has copied is what its rectangle's loop has, when both sides are mapped. -/
theorem rowCopy_blit {dst src : BlitSide} {region : Option IOAccelDeviceRegion}
    {bytesPerPixel : UInt8} {k : ℕ} {rect : IOAccelBounds}
    (hk : (regionRects region)[k]? = some rect) (j : ℕ) (c : Memcpy) :
    rowCopy (blit dst src region bytesPerPixel).2 k j = some c ↔
      dst.base ≠ 0 ∧ src.base ≠ 0 ∧ (blitRect dst src bytesPerPixel rect)[j]? = some (some c) := by
  by_cases hnull : dst.base = 0 ∨ src.base = 0
  · simp only [blit, genericBlitCopy, if_pos hnull, rowCopy]
    simp
    tauto
  · simp only [blit, genericBlitCopy, if_neg hnull, rowCopy, List.getElem?_map, hk]
    simp [Option.join_eq_some_iff]
    tauto

/-- **Completeness of the blit.** Every row inside both images is copied to its place exactly
when no base is null, the 32-bit offsets are exact and no row before it fails a limit test. -/
theorem genericBlitCopy_complete (dst src : BlitSide) (region : Option IOAccelDeviceRegion)
    (bytesPerPixel : UInt8) :
    (∀ k rect j, (regionRects region)[k]? = some rect →
        RowInside dst src rect bytesPerPixel j →
        ∃ c, rowCopy (blit dst src region bytesPerPixel).2 k j = some c ∧
          c.MovesRow dst src rect bytesPerPixel j) ↔
      ∀ rect ∈ regionRects region, ∀ j, RowInside dst src rect bytesPerPixel j →
        dst.base ≠ 0 ∧ src.base ≠ 0 ∧ dst.Exact rect bytesPerPixel ∧
          src.Exact rect bytesPerPixel ∧ RowsAdmitted dst src rect bytesPerPixel j := by
  constructor
  · intro h rect hmem j hin
    obtain ⟨k, hk⟩ := List.mem_iff_getElem?.mp hmem
    obtain ⟨c, hc, hmoves⟩ := h k rect j hk hin
    obtain ⟨hd, hs, hrow⟩ := (rowCopy_blit hk j c).mp hc
    exact ⟨hd, hs, (blitRect_moves_iff hin).mp ⟨c, hrow, hmoves⟩⟩
  · intro h k rect j hk hin
    obtain ⟨hd, hs, hexact⟩ := h rect (List.mem_of_getElem? hk) j hin
    obtain ⟨c, hrow, hmoves⟩ := (blitRect_moves_iff hin).mpr hexact
    exact ⟨c, (rowCopy_blit hk j c).mpr ⟨hd, hs, hrow⟩, hmoves⟩

/-- A destination whose first row lies above the image. -/
def clippedDst : BlitSide := ⟨0x20000, ⟨64, 16⟩, ⟨0, -1⟩⟩

def clippedSrc : BlitSide := ⟨0x10000, ⟨64, 16⟩, ⟨0, 0⟩⟩

def clippedRegion : IOAccelDeviceRegion := ⟨⟨0, 0, 4, 2⟩, [⟨0, 0, 4, 2⟩]⟩

/-- The row above the image keeps the row inside it from being copied. -/
theorem clipped_row_suppressed :
    clippedSrc.base.toNat + clippedSrc.image.offset.toNat ≤ clippedDst.base.toNat ∧
      ¬∀ k rect j, (regionRects (some clippedRegion))[k]? = some rect →
        RowInside clippedDst clippedSrc rect 4 j →
        ∃ c, rowCopy (blit clippedDst clippedSrc (some clippedRegion) 4).2 k j = some c ∧
          c.MovesRow clippedDst clippedSrc rect 4 j := by
  refine ⟨by decide, fun h => ?_⟩
  have hin : RowInside clippedDst clippedSrc ⟨0, 0, 4, 2⟩ 4 1 := by
    simp only [RowInside, BlitSide.Spans]
    decide +kernel
  obtain ⟨c, hc, -⟩ := h 0 ⟨0, 0, 4, 2⟩ 1 rfl hin
  obtain ⟨-, -, hrow⟩ := (rowCopy_blit rfl 1 c).mp hc
  have hrows : blitRect clippedDst clippedSrc 4 ⟨0, 0, 4, 2⟩ = [none, none] := by
    rw [blitRect, if_neg (by decide), rowLoop_eq_rows]
    decide +kernel
  rw [hrows] at hrow
  simp at hrow

/-! ### Bounds -/

/-- The byte at an address belongs to the image. -/
def BlitSide.Contains (s : BlitSide) (addr : UInt64) : Prop :=
  s.base.toNat ≤ addr.toNat ∧ addr.toNat < s.base.toNat + s.image.offset.toNat

/-- Every byte that the copy writes or reads belongs to its image. -/
def Memcpy.Within (c : Memcpy) (dst src : BlitSide) : Prop :=
  ∀ k < c.len.toNat, dst.Contains (c.dst + UInt64.ofNat k) ∧ src.Contains (c.src + UInt64.ofNat k)

/-- The loop makes a turn for the rows of a rectangle that is not skipped, and no other. -/
theorem blitRect_bounds {dst src : BlitSide} {bytesPerPixel : UInt8} {rect : IOAccelBounds}
    {j : ℕ} {c : Option Memcpy} (hc : (blitRect dst src bytesPerPixel rect)[j]? = some c) :
    0 < rect.w.toInt ∧ (j : ℤ) < rect.h.toInt := by
  rw [blitRect] at hc
  split at hc
  · simp at hc
  · next hskip =>
    simp only [Bool.or_eq_true, decide_eq_true_eq, Int16.le_iff_toInt_le, Int16.toInt_zero,
      not_or, not_le] at hskip
    have hlen := (List.getElem?_eq_some_iff.mp hc).1
    rw [rowLoop_eq_rows, rows_length, rowLoop_turns hskip.2] at hlen
    exact ⟨hskip.1, by omega⟩

/-- A copy of the blit is that of a row. -/
theorem mem_blit {dst src : BlitSide} {region : Option IOAccelDeviceRegion}
    {bytesPerPixel : UInt8} {c : Memcpy} :
    some c ∈ (blit dst src region bytesPerPixel).2.flatten ↔
      dst.base ≠ 0 ∧ src.base ≠ 0 ∧ ∃ rect ∈ regionRects region,
        0 < rect.w.toInt ∧ ∃ j : ℕ, (j : ℤ) < rect.h.toInt ∧
          (blitRect dst src bytesPerPixel rect)[j]? = some (some c) := by
  by_cases hnull : dst.base = 0 ∨ src.base = 0
  · simp only [blit, genericBlitCopy, if_pos hnull, List.flatten_nil, List.not_mem_nil, false_iff]
    tauto
  · have hmem : some c ∈ (blit dst src region bytesPerPixel).2.flatten ↔
        ∃ rect ∈ regionRects region, some c ∈ blitRect dst src bytesPerPixel rect := by
      simp only [blit, genericBlitCopy, if_neg hnull, List.mem_flatten, List.mem_map,
        exists_exists_and_eq_and]
    push Not at hnull
    rw [hmem, and_iff_right hnull.1, and_iff_right hnull.2]
    refine exists_congr fun rect => and_congr_right fun _ => ?_
    rw [List.mem_iff_getElem?]
    constructor
    · rintro ⟨j, hj⟩
      obtain ⟨hw, hh⟩ := blitRect_bounds hj
      exact ⟨hw, j, hh, hj⟩
    · rintro ⟨-, j, -, hj⟩
      exact ⟨j, hj⟩

namespace BlitSide

variable {s : BlitSide} {rect : IOAccelBounds} {bytesPerPixel : UInt8} {j : ℕ}

/-- Rows that the limit test lets through lie in the image, if the first of them does not
start below address `0`. -/
theorem spans_of_admits (hend : s.base.toNat + s.image.offset.toNat + 2 ^ 33 ≤ 2 ^ 64)
    (h0 : 0 ≤ s.base.toNat + s.codeOffset rect bytesPerPixel)
    (hadm : ∀ i ≤ j, s.Admits (s.base.toNat + s.codeOffset rect bytesPerPixel +
      (i : ℕ) * s.image.pitch.toNat) (rowLength rect bytesPerPixel)) :
    s.Spans (s.base.toNat + s.codeOffset rect bytesPerPixel + j * s.image.pitch.toNat)
      (rowLength rect bytesPerPixel) := by
  have hcode := codeOffset_bounds s rect bytesPerPixel
  have hlen := rowLength_lt rect bytesPerPixel
  have hpitch := s.image.pitch.toNat_lt
  induction j with
  | zero =>
    have hfirst := hadm 0 le_rfl
    simp only [Admits, Spans] at hfirst ⊢
    omega
  | succ j ih =>
    have hprev := ih fun i hi => hadm i (by omega)
    have hnext := hadm (j + 1) le_rfl
    have hpos : (0 : ℤ) ≤ j * s.image.pitch.toNat :=
      Int.mul_nonneg (Int.natCast_nonneg j) (Int.natCast_nonneg _)
    simp only [Admits, Spans, Nat.cast_add, Nat.cast_one, add_mul, one_mul] at hprev hnext ⊢
    omega

/-- So the address that the loop has reached is that of a span in the image. -/
theorem spans_advance (hend : s.base.toNat + s.image.offset.toNat + 2 ^ 33 ≤ 2 ^ 64)
    (hw : 0 < rect.w.toInt) (h0 : 0 ≤ s.base.toNat + s.codeOffset rect bytesPerPixel)
    (hadm : ∀ i ≤ j, s.Admits (s.base.toNat + s.codeOffset rect bytesPerPixel +
      (i : ℕ) * s.image.pitch.toNat) (rowLength rect bytesPerPixel)) :
    s.Spans (s.advance (s.start rect bytesPerPixel) j).toNat
      (rect.w.toInt64.toUInt64 * bytesPerPixel.toUInt64).toNat := by
  have hspan := spans_of_admits hend h0 hadm
  have hpos : (0 : ℤ) ≤ j * s.image.pitch.toNat :=
    Int.mul_nonneg (Int.natCast_nonneg j) (Int.natCast_nonneg _)
  rw [advance_start_toNat, rowLength_toNat hw]
  simp only [Spans] at hspan ⊢
  omega

/-- The bytes of a span in the image belong to it. -/
theorem Spans.contains {addr l : UInt64} (h : s.Spans addr.toNat l.toNat)
    (hend : s.base.toNat + s.image.offset.toNat + 2 ^ 33 ≤ 2 ^ 64) {k : ℕ} (hk : k < l.toNat) :
    s.Contains (addr + UInt64.ofNat k) := by
  rw [Spans] at h
  rw [Contains, UInt64.toNat_add, UInt64.toNat_ofNat']
  omega

/-- A first row that starts below address `0` and passes the test leaves the image. -/
theorem not_contains_of_neg (hend : s.base.toNat + s.image.offset.toNat + 2 ^ 33 ≤ 2 ^ 64)
    (hneg : s.base.toNat + s.codeOffset rect bytesPerPixel < 0)
    (hadm : s.Admits (s.base.toNat + s.codeOffset rect bytesPerPixel)
      (rowLength rect bytesPerPixel)) :
    0 < rowLength rect bytesPerPixel ∧ ¬s.Contains (s.start rect bytesPerPixel) := by
  have hcode := codeOffset_bounds s rect bytesPerPixel
  have hstart := s.advance_start_toNat rect bytesPerPixel 0
  rw [advance_zero] at hstart
  simp only [Admits, Contains] at hadm ⊢
  omega

end BlitSide

/-- **Bounds of the blit.** Every copy reads and writes inside the images exactly when no
rectangle whose first row passes the limit tests starts below address `0`. -/
theorem genericBlitCopy_bounded {dst src : BlitSide}
    (hdst : dst.base.toNat + dst.image.offset.toNat + 2 ^ 33 ≤ 2 ^ 64)
    (hsrc : src.base.toNat + src.image.offset.toNat + 2 ^ 33 ≤ 2 ^ 64)
    (region : Option IOAccelDeviceRegion) (bytesPerPixel : UInt8) :
    (∀ c, some c ∈ (blit dst src region bytesPerPixel).2.flatten → c.Within dst src) ↔
      (dst.base ≠ 0 → src.base ≠ 0 → ∀ rect ∈ regionRects region,
        0 < rect.w.toInt → 0 < rect.h.toInt →
        dst.Admits (dst.base.toNat + dst.codeOffset rect bytesPerPixel)
          (rowLength rect bytesPerPixel) →
        src.Admits (src.base.toNat + src.codeOffset rect bytesPerPixel)
          (rowLength rect bytesPerPixel) →
        0 ≤ dst.base.toNat + dst.codeOffset rect bytesPerPixel ∧
          0 ≤ src.base.toNat + src.codeOffset rect bytesPerPixel) := by
  constructor
  · intro h hd hs rect hmem hw hh hadmd hadms
    -- The first row is copied, and its first byte belongs to neither image below address 0.
    have hrow := (blitRect_getElem? (j := 0) hw hh ⟨dst.advance _ 0, src.advance _ 0, _⟩).mpr
      ⟨rfl, fun i hi => by simpa [Nat.le_zero.mp hi] using ⟨hadmd, hadms⟩⟩
    have hwithin := h _ (mem_blit.mpr ⟨hd, hs, rect, hmem, hw, 0, hh, hrow⟩)
    simp only [Memcpy.Within, rowLength_toNat hw, BlitSide.advance_zero] at hwithin
    constructor
    · by_contra hneg
      obtain ⟨hlen, hout⟩ := BlitSide.not_contains_of_neg hdst (not_le.mp hneg) hadmd
      exact hout (by simpa using (hwithin 0 hlen).1)
    · by_contra hneg
      obtain ⟨hlen, hout⟩ := BlitSide.not_contains_of_neg hsrc (not_le.mp hneg) hadms
      exact hout (by simpa using (hwithin 0 hlen).2)
  · intro h c hc k hk
    obtain ⟨hd, hs, rect, hmem, hw, j, hj, hrow⟩ := mem_blit.mp hc
    obtain ⟨rfl, hadm⟩ := (blitRect_getElem? hw hj c).mp hrow
    have hfirst := hadm 0 (Nat.zero_le j)
    simp only [Nat.cast_zero, zero_mul, add_zero] at hfirst
    obtain ⟨hposd, hposs⟩ := h hd hs rect hmem hw (by omega) hfirst.1 hfirst.2
    exact ⟨(BlitSide.spans_advance hdst hw hposd fun i hi => (hadm i hi).1).contains hdst hk,
      (BlitSide.spans_advance hsrc hw hposs fun i hi => (hadm i hi).2).contains hsrc hk⟩

/-- A blit of two rows between two images. -/
theorem genericBlitCopy_bounded_rows :
    (clippedDst.base.toNat + clippedDst.image.offset.toNat + 2 ^ 33 ≤ 2 ^ 64 ∧
      clippedSrc.base.toNat + clippedSrc.image.offset.toNat + 2 ^ 33 ≤ 2 ^ 64) ∧
    ∀ c, some c ∈ (blit clippedDst clippedSrc (some clippedRegion) 4).2.flatten →
      c.Within clippedDst clippedSrc := by
  refine ⟨by decide, (genericBlitCopy_bounded (by decide) (by decide) _ 4).mpr ?_⟩
  intro _ _ rect hmem _ _ _ _
  obtain rfl : rect = ⟨0, 0, 4, 2⟩ := List.mem_singleton.mp hmem
  decide +kernel

/-- A destination at a low address, and a displacement that leads below address `0`. -/
def lowDst : BlitSide := ⟨4096, ⟨64, 16⟩, ⟨-1025, 0⟩⟩

/-- The copy of the row ends where the addresses begin again. -/
theorem low_row_escapes :
    (lowDst.base.toNat + lowDst.image.offset.toNat + 2 ^ 33 ≤ 2 ^ 64 ∧
      clippedSrc.base.toNat + clippedSrc.image.offset.toNat + 2 ^ 33 ≤ 2 ^ 64) ∧
    ¬∀ c, some c ∈ (blit lowDst clippedSrc (some ⟨⟨0, 0, 1, 1⟩, [⟨0, 0, 1, 1⟩]⟩) 4).2.flatten →
      c.Within lowDst clippedSrc := by
  refine ⟨by decide, fun h => ?_⟩
  have hrows : blitRect lowDst clippedSrc 4 ⟨0, 0, 1, 1⟩ =
      [some ⟨18446744073709551612, 0x10000, 4⟩] := by
    rw [blitRect, if_neg (by decide), rowLoop_eq_rows]
    decide +kernel
  have hwithin := h ⟨18446744073709551612, 0x10000, 4⟩ <| mem_blit.mpr
    ⟨by decide, by decide, ⟨0, 0, 1, 1⟩, List.mem_singleton.mpr rfl, by decide, 0, by decide,
      by rw [hrows]; rfl⟩
  exact absurd (hwithin 0 (by decide)).1.2 (by decide)

end DockerMacos
