import DockerMacos.AccelCommands
import Mathlib.Data.Int.ConditionallyCompleteOrder
import Mathlib.Data.Set.Prod
import Mathlib.Order.ConditionallyCompleteLattice.Basic
import Mathlib.Order.Interval.Set.LinearOrder

/-!
# Clipping of Regions

`clipRegionToBuffer` (`AC/UC/VMsvga2Surface.cpp`) cuts the rectangles of a region to what of them
lies in the buffer of a surface once they are displaced. The sums are 32-bit integers, what is
stored in a rectangle is truncated to 16 bits.

## Two axes

The cuts of columns and of lines are the same, and are made one after the other: `RectSpan` is
what a rectangle spans along one axis, and a clipped rectangle is exact if both of its spans are,
or if one of them is empty.

## Where the truncation matters

A span that begins before the buffer gets a new start, which must fit into 16 bits; one that
lies outside must not come back inside by what the cuts store. `CutsFit` says just this, on the
coordinates of the rectangle and of the displacement.

## Main definitions

* `clipSpan`: the cuts along one axis.
* `clipRegionToBuffer`: both axes of every rectangle.
* `IOAccelBounds.pixels`: what a displaced rectangle covers, over the integers.

## Main results

* `clipRect_exact_iff`: when a rectangle becomes its intersection with the buffer.
* `clipRegionToBuffer_exact_iff`: when every rectangle does.
-/

namespace DockerMacos

open Set

/-- What a rectangle spans along one axis. -/
structure RectSpan where
  start : Int16
  extent : Int16

/-- The cut at the near edge of the buffer: the span, and its displaced start. -/
def cutNear (delta : Int32) (s : RectSpan) : RectSpan × Int32 :=
  let x := s.start.toInt32 + delta
  if x < 0 then
    (⟨(-delta).toInt16, (s.extent.toInt32 + x).toInt16⟩, 0)
  else
    (s, x)

/-- The cut at the far edge of the buffer: the extent of a span displaced to `x`. -/
def cutFar (buffer : Int16) (x : Int32) (extent : Int16) : Int16 :=
  if buffer.toInt32 < x + extent.toInt32 then (buffer.toInt32 - x).toInt16 else extent

/-- The cuts of a rectangle along one axis. -/
def clipSpan (delta : Int32) (buffer : Int16) (s : RectSpan) : RectSpan :=
  let near := cutNear delta s
  let extent := cutFar buffer near.2 near.1.extent
  ⟨near.1.start, if extent < 0 then 0 else extent⟩

/-- The horizontal span of a rectangle. -/
def IOAccelBounds.columns (r : IOAccelBounds) : RectSpan := ⟨r.x, r.w⟩

/-- The vertical span of a rectangle. -/
def IOAccelBounds.lines (r : IOAccelBounds) : RectSpan := ⟨r.y, r.h⟩

/-- The body of the loop of `clipRegionToBuffer`. -/
def clipRect (buffer : IOAccelBounds) (deltaX deltaY : Int32) (r : IOAccelBounds) :
    IOAccelBounds :=
  let columns := clipSpan deltaX buffer.w r.columns
  let lines := clipSpan deltaY buffer.h r.lines
  ⟨columns.start, lines.start, columns.extent, lines.extent⟩

/-- `clipRegionToBuffer` of a surface whose buffer is `buffer`. -/
def clipRegionToBuffer (buffer : IOAccelBounds) (region : Option IOAccelDeviceRegion)
    (deltaX deltaY : Int32) : Option IOAccelDeviceRegion :=
  region.map fun r => { r with rect := r.rect.map (clipRect buffer deltaX deltaY) }

/-! ### What a rectangle covers -/

/-- What a span covers, displaced. -/
def RectSpan.covered (s : RectSpan) (delta : Int32) : Set ℤ :=
  Ico (s.start.toInt + delta.toInt) (s.start.toInt + delta.toInt + s.extent.toInt)

/-- The pixels of a rectangle, displaced. -/
def IOAccelBounds.pixels (r : IOAccelBounds) (deltaX deltaY : Int32) : Set (ℤ × ℤ) :=
  r.columns.covered deltaX ×ˢ r.lines.covered deltaY

/-- The pixels of the buffer of a surface. -/
def bufferPixels (buffer : IOAccelBounds) : Set (ℤ × ℤ) :=
  Ico 0 buffer.w.toInt ×ˢ Ico 0 buffer.h.toInt

/-- The clipped rectangle, displaced, is what the rectangle and the buffer have in common. -/
def ClipsTo (buffer : IOAccelBounds) (deltaX deltaY : Int32) (r clipped : IOAccelBounds) : Prop :=
  clipped.pixels deltaX deltaY = r.pixels deltaX deltaY ∩ bufferPixels buffer

/-- The displaced start of a span, as an `int` holds it. -/
def RectSpan.displaced (s : RectSpan) (delta : Int32) : ℤ :=
  (s.start.toInt + delta.toInt).bmod (2 ^ 32)

/-- What the cuts store fits where it matters: a span that begins before the buffer must keep
its true start, a span that lies outside must not come back with a positive extent. -/
def RectSpan.CutsFit (s : RectSpan) (delta : Int32) (buffer : Int16) : Prop :=
  let x := s.displaced delta
  if x < 0 then
    buffer.toInt ≤ 0 ∨ (0 < x + s.extent.toInt ∧ -2 ^ 15 < delta.toInt) ∨
      (x + s.extent.toInt ≤ 0 ∧ (x + s.extent.toInt).bmod (2 ^ 16) ≤ 0)
  else
    x + s.extent.toInt < 2 ^ 31 ∧ (x + s.extent.toInt ≤ buffer.toInt ∨ x < buffer.toInt ∨
      (buffer.toInt - x).bmod (2 ^ 16) ≤ 0)

/-- The cuts leave nothing of the span. -/
def RectSpan.CutAway (s : RectSpan) (delta : Int32) (buffer : Int16) : Prop :=
  let x := s.displaced delta
  if x < 0 then
    buffer.toInt ≤ 0 ∨ (x + s.extent.toInt).bmod (2 ^ 16) ≤ 0
  else
    (x + s.extent.toInt < 2 ^ 31 ∧ buffer.toInt < x + s.extent.toInt ∧
      (buffer.toInt - x).bmod (2 ^ 16) ≤ 0) ∨
    (s.extent.toInt ≤ 0 ∧ x + s.extent.toInt ≤ buffer.toInt)

instance (s : RectSpan) (delta : Int32) (buffer : Int16) : Decidable (s.CutsFit delta buffer) :=
  inferInstanceAs (Decidable (if s.displaced delta < 0 then _ ∨ _ ∨ _ else _ ∧ _))

instance (s : RectSpan) (delta : Int32) (buffer : Int16) : Decidable (s.CutAway delta buffer) :=
  inferInstanceAs (Decidable (if s.displaced delta < 0 then _ ∨ _ else _ ∨ _))

/-! ### The cuts along one axis -/

/-- Two intervals are the same if both are empty, or if their ends are. -/
theorem ico_eq_ico_iff {a b c d : ℤ} :
    Ico a b = Ico c d ↔ (b ≤ a ∧ d ≤ c) ∨ (a = c ∧ b = d) := by
  constructor
  · intro heq
    have hiff : ∀ p, (a ≤ p ∧ p < b) ↔ (c ≤ p ∧ p < d) := fun p => Set.ext_iff.mp heq p
    have ha := hiff a
    have hb := hiff (b - 1)
    have hc := hiff c
    have hd := hiff (d - 1)
    omega
  · rintro (⟨hab, hcd⟩ | ⟨rfl, rfl⟩)
    · rw [Ico_eq_empty_of_le hab, Ico_eq_empty_of_le hcd]
    · rfl

/-- What is left of a number in `w + 1` bits. -/
theorem exists_bmod_eq (z : ℤ) (w : ℕ) :
    ∃ k, z.bmod (2 ^ (w + 1)) = z + 2 ^ (w + 1) * k ∧ -2 ^ w ≤ z.bmod (2 ^ (w + 1)) ∧
      z.bmod (2 ^ (w + 1)) < 2 ^ w := by
  have hpos : 0 < 2 ^ (w + 1) := Nat.two_pow_pos _
  have hlow := Int.le_bmod (x := z) hpos
  have hhigh := Int.bmod_lt (x := z) hpos
  have hcast : ((2 ^ (w + 1) : ℕ) : ℤ) = 2 * 2 ^ w := by push_cast; ring
  refine ⟨-z.bdiv (2 ^ (w + 1)), ?_, ?_, ?_⟩
  · rw [Int.bmod_eq_self_sub_mul_bdiv, mul_neg, ← sub_eq_add_neg]
    norm_num
  · rw [hcast] at hlow
    omega
  · rw [hcast] at hhigh
    omega

/-- A 32-bit number stored in 16 bits. -/
theorem bmod32_bmod16 (z : ℤ) : (z.bmod (2 ^ 32)).bmod (2 ^ 16) = z.bmod (2 ^ 16) :=
  Int.bmod_bmod_of_dvd (by decide)

section Axis

variable {s : RectSpan} {delta : Int32} {buffer : Int16}

/-- The displaced start, as the code adds it. -/
theorem toInt_displaced (s : RectSpan) (delta : Int32) :
    (s.start.toInt32 + delta).toInt = s.displaced delta := by
  rw [Int32.toInt_add, Int16.toInt_toInt32]
  rfl

/-- The displaced start wraps at 32 bits. -/
theorem exists_displaced_eq (s : RectSpan) (delta : Int32) :
    ∃ k, s.displaced delta = s.start.toInt + delta.toInt + 2 ^ 32 * k ∧
      -2 ^ 31 ≤ s.displaced delta ∧ s.displaced delta < 2 ^ 31 :=
  exists_bmod_eq (s.start.toInt + delta.toInt) 31

/-- The cut at the near edge moves the start to the edge, modulo `2 ^ 16`. -/
theorem cutNear_of_neg (hx : s.displaced delta < 0) :
    (cutNear delta s).1.start.toInt = (-delta.toInt).bmod (2 ^ 16) ∧
      (cutNear delta s).1.extent.toInt = (s.displaced delta + s.extent.toInt).bmod (2 ^ 16) ∧
      (cutNear delta s).2 = 0 := by
  have hneg : s.start.toInt32 + delta < 0 := by
    rw [Int32.lt_iff_toInt_lt, toInt_displaced]
    exact hx
  simp only [cutNear, if_pos hneg]
  refine ⟨?_, ?_, trivial⟩
  · rw [Int32.toInt_toInt16, Int32.toInt_neg, bmod32_bmod16]
  · rw [Int32.toInt_toInt16, Int32.toInt_add, bmod32_bmod16, toInt_displaced,
      Int16.toInt_toInt32, add_comm]

/-- A span that begins inside the buffer or behind it is not cut at the near edge. -/
theorem cutNear_of_nonneg (hx : 0 ≤ s.displaced delta) :
    cutNear delta s = (s, s.start.toInt32 + delta) := by
  have hnonneg : ¬s.start.toInt32 + delta < 0 := by
    rw [Int32.lt_iff_toInt_lt, toInt_displaced]
    exact not_lt.mpr hx
  simp only [cutNear, if_neg hnonneg]

/-- The cut at the far edge, for a start inside or behind the buffer. -/
theorem toInt_cutFar (x : Int32) (extent : Int16) :
    (cutFar buffer x extent).toInt =
      if buffer.toInt < (x.toInt + extent.toInt).bmod (2 ^ 32) then
        (buffer.toInt - x.toInt).bmod (2 ^ 16)
      else
        extent.toInt := by
  simp only [cutFar, Int32.lt_iff_toInt_lt, Int32.toInt_add, Int16.toInt_toInt32]
  split
  · rw [Int32.toInt_toInt16, Int32.toInt_sub, bmod32_bmod16, Int16.toInt_toInt32]
  · rfl

/-- An extent that has become negative counts as none. -/
theorem toInt_nonneg_part (e : Int16) : (if e < 0 then 0 else e).toInt = max 0 e.toInt := by
  have hzero : (0 : Int16).toInt = 0 := by decide
  by_cases he : e < 0
  · rw [if_pos he, hzero]
    rw [Int16.lt_iff_toInt_lt, hzero] at he
    omega
  · rw [if_neg he]
    rw [Int16.lt_iff_toInt_lt, hzero] at he
    omega

/-- Only the cut at the near edge moves the start. -/
theorem clipSpan_start : (clipSpan delta buffer s).start = (cutNear delta s).1.start := by
  simp only [clipSpan]

/-- The extent after both cuts. -/
theorem toInt_clipSpan_extent :
    (clipSpan delta buffer s).extent.toInt =
      max 0 (cutFar buffer (cutNear delta s).2 (cutNear delta s).1.extent).toInt := by
  simp only [clipSpan, toInt_nonneg_part]

/-- The cuts of a span that begins before the buffer. -/
theorem clipSpan_of_neg (hx : s.displaced delta < 0) :
    (clipSpan delta buffer s).start.toInt = (-delta.toInt).bmod (2 ^ 16) ∧
      (clipSpan delta buffer s).extent.toInt =
        max 0 (min buffer.toInt ((s.displaced delta + s.extent.toInt).bmod (2 ^ 16))) := by
  obtain ⟨hstart, hextent, hzero⟩ := cutNear_of_neg hx
  have hbuffer := buffer.toInt_lt
  have hbuffer' := buffer.le_toInt
  obtain ⟨-, -, hlow, hhigh⟩ := exists_bmod_eq (s.displaced delta + s.extent.toInt) 15
  have h0 : (0 : Int32).toInt = 0 := by decide
  rw [clipSpan_start, toInt_clipSpan_extent, toInt_cutFar, hstart, hextent, hzero, h0, zero_add,
    sub_zero]
  refine ⟨rfl, ?_⟩
  rw [Int.bmod_eq_of_le_mul_two (y := 2 ^ 32) (by norm_num at *; omega)
    (by norm_num at *; omega), Int.bmod_eq_of_le_mul_two (x := buffer.toInt)
    (by norm_num at *; omega) (by norm_num at *; omega)]
  split <;> omega

/-- The cuts of a span that begins in the buffer or behind it. -/
theorem clipSpan_of_nonneg (hx : 0 ≤ s.displaced delta) :
    (clipSpan delta buffer s).start = s.start ∧
      (clipSpan delta buffer s).extent.toInt =
        max 0 (if buffer.toInt < (s.displaced delta + s.extent.toInt).bmod (2 ^ 32) then
          (buffer.toInt - s.displaced delta).bmod (2 ^ 16) else s.extent.toInt) := by
  rw [clipSpan_start, toInt_clipSpan_extent, toInt_cutFar, cutNear_of_nonneg hx, toInt_displaced]
  exact ⟨rfl, rfl⟩

/-- What a span and the buffer share, without a wrap. -/
theorem covered_inter (s : RectSpan) (delta : Int32) (buffer : Int16) :
    s.covered delta ∩ Ico 0 buffer.toInt =
      Ico (max (s.start.toInt + delta.toInt) 0)
        (min (s.start.toInt + delta.toInt + s.extent.toInt) buffer.toInt) :=
  Ico_inter_Ico

/-- Close to the buffer the displaced start does not wrap. -/
theorem displaced_eq (hlow : -2 ^ 16 ≤ s.displaced delta) (hhigh : s.displaced delta < 2 ^ 16) :
    s.displaced delta = s.start.toInt + delta.toInt := by
  obtain ⟨k, hk, -, -⟩ := exists_displaced_eq s delta
  have hstart := s.start.toInt_lt
  have hstart' := s.start.le_toInt
  have hdelta := delta.toInt_lt
  have hdelta' := delta.le_toInt
  omega

/-- What a span shares with the buffer. A start that wraps is so far away, on the one side or on
the other, that there is nothing. -/
theorem covered_inter_displaced (s : RectSpan) (delta : Int32) (buffer : Int16) :
    s.covered delta ∩ Ico 0 buffer.toInt =
      Ico (max (s.displaced delta) 0)
        (min (s.displaced delta + s.extent.toInt) buffer.toInt) := by
  obtain ⟨k, hk, hlow, hhigh⟩ := exists_displaced_eq s delta
  have hstart := s.start.toInt_lt
  have hstart' := s.start.le_toInt
  have hextent := s.extent.toInt_lt
  have hdelta := delta.toInt_lt
  have hdelta' := delta.le_toInt
  have hbuffer := buffer.toInt_lt
  rw [covered_inter, ico_eq_ico_iff]
  omega

/-- What the cuts along an axis leave empty. -/
theorem clipSpan_covered_eq_empty_iff :
    (clipSpan delta buffer s).covered delta = ∅ ↔ s.CutAway delta buffer := by
  rw [RectSpan.covered, Ico_eq_empty_iff, RectSpan.CutAway]
  have hextent := s.extent.toInt_lt
  by_cases hx : s.displaced delta < 0
  · rw [(clipSpan_of_neg hx).1, (clipSpan_of_neg hx).2]
    simp only [if_pos hx]
    omega
  · rw [(clipSpan_of_nonneg (not_lt.mp hx)).1, (clipSpan_of_nonneg (not_lt.mp hx)).2]
    simp only [if_neg hx]
    have hextent' := s.extent.le_toInt
    have hbuffer := buffer.le_toInt
    obtain ⟨i, hi, hilow, hihigh⟩ := exists_bmod_eq (s.displaced delta + s.extent.toInt) 31
    obtain ⟨-, -, hklow, hkhigh⟩ := exists_displaced_eq s delta
    norm_num at *
    omega

/-- The cuts of a span that shares nothing with the buffer are exact if they leave nothing. -/
theorem clipSpan_exact_iff_cutAway (hempty : s.covered delta ∩ Ico 0 buffer.toInt = ∅) :
    (clipSpan delta buffer s).covered delta = s.covered delta ∩ Ico 0 buffer.toInt ↔
      s.CutAway delta buffer := by
  rw [hempty, clipSpan_covered_eq_empty_iff]

/-- A number that 16 bits hold. -/
theorem bmod16_eq {z : ℤ} (hlow : -2 ^ 15 ≤ z) (hhigh : z < 2 ^ 15) : z.bmod (2 ^ 16) = z :=
  Int.bmod_eq_of_le_mul_two (by norm_num at *; omega) (by norm_num at *; omega)

/-- The cuts of a span that begins before the buffer. -/
theorem clipSpan_exact_iff_of_neg (hx : s.displaced delta < 0) :
    (clipSpan delta buffer s).covered delta = s.covered delta ∩ Ico 0 buffer.toInt ↔
      s.CutsFit delta buffer := by
  have hextent := s.extent.toInt_lt
  rw [RectSpan.CutsFit]
  simp only [if_pos hx]
  by_cases hmeet : 0 < s.displaced delta + s.extent.toInt ∧ 0 < buffer.toInt
  · obtain ⟨hreach, hbuffer⟩ := hmeet
    have hstart := s.start.toInt_lt
    have hstart' := s.start.le_toInt
    have hdisplaced : s.displaced delta = s.start.toInt + delta.toInt :=
      displaced_eq (by omega) (by omega)
    have hfits : (s.displaced delta + s.extent.toInt).bmod (2 ^ 16) =
        s.displaced delta + s.extent.toInt := bmod16_eq (by omega) (by omega)
    obtain ⟨i, hi, hilow, hihigh⟩ := exists_bmod_eq (-delta.toInt) 15
    rw [covered_inter_displaced, max_eq_right hx.le, RectSpan.covered, (clipSpan_of_neg hx).1,
      (clipSpan_of_neg hx).2, hfits, ico_eq_ico_iff]
    norm_num at *
    omega
  · rw [clipSpan_exact_iff_cutAway, RectSpan.CutAway, if_pos hx]
    · omega
    · rw [covered_inter_displaced, max_eq_right hx.le, Ico_eq_empty_iff]
      omega

/-- The cuts of a span that begins inside the buffer or behind it. -/
theorem clipSpan_exact_iff_of_nonneg (hx : 0 ≤ s.displaced delta) :
    (clipSpan delta buffer s).covered delta = s.covered delta ∩ Ico 0 buffer.toInt ↔
      s.CutsFit delta buffer := by
  have hextent := s.extent.toInt_lt
  have hextent' := s.extent.le_toInt
  have hbuffer := buffer.toInt_lt
  rw [RectSpan.CutsFit]
  simp only [if_neg (not_lt.mpr hx)]
  by_cases hmeet : s.displaced delta < buffer.toInt
  · have hdisplaced : s.displaced delta = s.start.toInt + delta.toInt :=
      displaced_eq (by omega) (by omega)
    obtain ⟨i, hi, hilow, hihigh⟩ := exists_bmod_eq (s.displaced delta + s.extent.toInt) 31
    rw [covered_inter_displaced, max_eq_left hx, RectSpan.covered, (clipSpan_of_nonneg hx).1,
      (clipSpan_of_nonneg hx).2, bmod16_eq (by omega) (by omega), ico_eq_ico_iff]
    norm_num at *
    omega
  · rw [clipSpan_exact_iff_cutAway, RectSpan.CutAway, if_neg (not_lt.mpr hx)]
    · omega
    · rw [covered_inter_displaced, max_eq_left hx, Ico_eq_empty_iff]
      omega

/-- The cuts are exact along an axis exactly when what they store fits. -/
theorem clipSpan_exact_iff :
    (clipSpan delta buffer s).covered delta = s.covered delta ∩ Ico 0 buffer.toInt ↔
      s.CutsFit delta buffer := by
  rcases lt_or_ge (s.displaced delta) 0 with hx | hx
  · exact clipSpan_exact_iff_of_neg hx
  · exact clipSpan_exact_iff_of_nonneg hx

/-- A span the cuts leave nothing of lies outside the buffer. -/
theorem RectSpan.CutAway.disjoint (h : s.CutAway delta buffer) :
    s.covered delta ∩ Ico 0 buffer.toInt = ∅ := by
  have hextent := s.extent.toInt_lt
  have hbuffer := buffer.toInt_lt
  rw [RectSpan.CutAway] at h
  rcases lt_or_ge (s.displaced delta) 0 with hx | hx
  · simp only [if_pos hx] at h
    rw [covered_inter_displaced, max_eq_right hx.le, Ico_eq_empty_iff]
    intro hmeet
    rw [bmod16_eq (by omega) (by omega)] at h
    omega
  · simp only [if_neg (not_lt.mpr hx)] at h
    rw [covered_inter_displaced, max_eq_left hx, Ico_eq_empty_iff]
    intro hmeet
    rw [bmod16_eq (by omega) (by omega)] at h
    omega

end Axis

/-! ### The rectangles of a region -/

/-- The clipping of a rectangle is exact if both cuts are, or if one of them leaves nothing. -/
def IOAccelBounds.ClipsExactly (r : IOAccelBounds) (deltaX deltaY : Int32)
    (buffer : IOAccelBounds) : Prop :=
  (r.columns.CutsFit deltaX buffer.w ∧ r.lines.CutsFit deltaY buffer.h) ∨
    r.columns.CutAway deltaX buffer.w ∨ r.lines.CutAway deltaY buffer.h

instance (r : IOAccelBounds) (deltaX deltaY : Int32) (buffer : IOAccelBounds) :
    Decidable (r.ClipsExactly deltaX deltaY buffer) :=
  inferInstanceAs (Decidable ((_ ∧ _) ∨ _ ∨ _))

/-- The clipping cuts the columns and the lines, each for itself. -/
theorem clipRect_pixels (buffer : IOAccelBounds) (deltaX deltaY : Int32) (r : IOAccelBounds) :
    (clipRect buffer deltaX deltaY r).pixels deltaX deltaY =
      (clipSpan deltaX buffer.w r.columns).covered deltaX ×ˢ
        (clipSpan deltaY buffer.h r.lines).covered deltaY := by
  simp only [IOAccelBounds.pixels, clipRect, IOAccelBounds.columns, IOAccelBounds.lines]

/-- **The clipping** of one rectangle is exact when that of its columns and its lines is. -/
theorem clipRect_exact_iff (buffer : IOAccelBounds) (deltaX deltaY : Int32) (r : IOAccelBounds) :
    ClipsTo buffer deltaX deltaY r (clipRect buffer deltaX deltaY r) ↔
      r.ClipsExactly deltaX deltaY buffer := by
  rw [ClipsTo, clipRect_pixels, IOAccelBounds.pixels, bufferPixels, prod_inter_prod,
    prod_eq_prod_iff, clipSpan_exact_iff, clipSpan_exact_iff, clipSpan_covered_eq_empty_iff,
    clipSpan_covered_eq_empty_iff, IOAccelBounds.ClipsExactly]
  refine or_congr_right ⟨And.left, fun haway => ⟨haway, ?_⟩⟩
  exact haway.imp RectSpan.CutAway.disjoint RectSpan.CutAway.disjoint

/-- Every rectangle becomes its intersection with the buffer exactly when every rectangle's
cuts fit into 16 bits or leave nothing of it. -/
theorem clipRegionToBuffer_exact_iff (buffer : IOAccelBounds)
    (region : Option IOAccelDeviceRegion) (deltaX deltaY : Int32) :
    List.Forall₂ (ClipsTo buffer deltaX deltaY) (regionRects region)
        (regionRects (clipRegionToBuffer buffer region deltaX deltaY)) ↔
      ∀ r ∈ regionRects region, r.ClipsExactly deltaX deltaY buffer := by
  have hrects : regionRects (clipRegionToBuffer buffer region deltaX deltaY) =
      (regionRects region).map (clipRect buffer deltaX deltaY) := by
    cases region <;> rfl
  rw [hrects, List.forall₂_map_right_iff, List.forall₂_same]
  exact forall₂_congr fun r _ => clipRect_exact_iff buffer deltaX deltaY r

/-- A rectangle 40000 columns to the left of the buffer is not clipped away. -/
theorem clipRegionToBuffer_far_left :
    ¬List.Forall₂ (ClipsTo ⟨0, 0, 1000, 1000⟩ (-40000) 0)
      (regionRects (some ⟨⟨0, 0, 100, 100⟩, [⟨0, 0, 100, 100⟩]⟩))
      (regionRects (clipRegionToBuffer ⟨0, 0, 1000, 1000⟩
        (some ⟨⟨0, 0, 100, 100⟩, [⟨0, 0, 100, 100⟩]⟩) (-40000) 0)) := by
  intro hall
  obtain ⟨hhead, -⟩ := List.forall₂_cons.mp hall
  have hmem : (-65536, 0) ∈ (clipRect ⟨0, 0, 1000, 1000⟩ (-40000) 0 ⟨0, 0, 100, 100⟩).pixels
      (-40000) 0 := by
    refine ⟨⟨?_, ?_⟩, ?_, ?_⟩ <;> decide +kernel
  have hin := (hhead ▸ hmem : (-65536, 0) ∈ _ ∩ bufferPixels ⟨0, 0, 1000, 1000⟩).2
  exact absurd hin.1.1 (by decide)

end DockerMacos
