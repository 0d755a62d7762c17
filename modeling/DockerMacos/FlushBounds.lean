import Mathlib.Tactic.MkIffOfInductiveProp
import DockerMacos.FlushedMemory
import DockerMacos.ClosedSurfaces

/-!
# The Bytes That a Flush Reads

A flush addresses the backing with the geometry of the surface: where the buffer begins, how
long a row is, how many rows there are. The client and the 2D contexts set the geometry as they
like, and the backing has the size that an earlier geometry asked for. This module says which
geometries stay inside it.

## A geometry in order

`Covered` says that the rows of the buffer end inside the byte size that goes with them. It
follows from what a call can be asked to keep to: the rectangle of the buffer lies in the
source, the client's memory holds the source, and the format has no more bytes a pixel than the
one before (`setsFitting`). The sizes are 32 bits wide in the source, and those of client memory
have to fit.

## An outgrown backing

The backing is exchanged by calls that need memory only. A geometry may outgrow it before that
(`hasSourceGrown`), and then a flush reads past its end. The condition of a run leaves this out:
a flush comes before the geometry outgrows the backing.

## Main results

* `calculate_covered`: the buffer of a geometry that is in order ends inside `byteSize`.
* `Fitted.apply`: calls that set such geometries keep it so.
* `transfer_inside`: a transfer of boxes in the buffer reads inside the backing.
* `flush_reads_backing`: in runs of such calls a flush reads inside the backing.
-/

namespace DockerMacos

/-- The transfer reads from the memory of the backing, between its offset and its end: so it is
for the pixel at column `x` and row `y` of every box. -/
structure Transfer.ReadsInside (t : Transfer) (b : Backing) : Prop where
  gmrId : t.gmrId = b.vtb.gmrId
  bytes : ∀ box ∈ t.boxes, ∀ x y : ℤ, box.x ≤ x → x < box.x + box.w → box.y ≤ y →
    y < box.y + box.h →
    (b.offset : ℤ) ≤ t.offset + y * t.pitch + x * t.bytesPerPixel ∧
      t.offset + y * t.pitch + (x + 1) * t.bytesPerPixel ≤ b.offset + b.size

/-- The rectangles of the region lie within its bounds. -/
def IOAccelDeviceRegion.Bounded (r : IOAccelDeviceRegion) : Prop :=
  ∀ b ∈ r.rect, (r.bounds.x.toInt ≤ b.x.toInt ∧ 0 ≤ b.w.toInt ∧
      b.x.toInt + b.w.toInt ≤ r.bounds.x.toInt + r.bounds.w.toInt) ∧
    (r.bounds.y.toInt ≤ b.y.toInt ∧ 0 ≤ b.h.toInt ∧
      b.y.toInt + b.h.toInt ≤ r.bounds.y.toInt + r.bounds.h.toInt)

/-- The rectangle has no negative coordinate or extent. -/
@[mk_iff]
structure IOAccelBounds.Positive (b : IOAccelBounds) : Prop where
  x : 0 ≤ b.x.toInt
  y : 0 ≤ b.y.toInt
  w : 0 ≤ b.w.toInt
  h : 0 ≤ b.h.toInt

/-- The rectangle lies in a source of this size. -/
@[mk_iff]
structure IOAccelBounds.LiesIn (b : IOAccelBounds) (w h : Int16) : Prop where
  positive : b.Positive
  right : b.x.toInt + b.w.toInt ≤ w.toInt
  bottom : b.y.toInt + b.h.toInt ≤ h.toInt

/-- The client's memory holds a source of this size, and its sizes fit into 32 bits. -/
@[mk_iff]
structure ClientBacking.HoldsSource (c : ClientBacking) (bytesPerPixel : ℕ) (w h : Int16) :
    Prop where
  row : w.toInt * bytesPerPixel ≤ c.rowbytes
  size : h.toInt * c.rowbytes ≤ c.size
  fits : c.size + pageResidue c.addr + pageSize ≤ 2 ^ 32

namespace Surface

/-- The client's memory, if there is any, holds a source of this size. -/
def clientHolds (s : Surface) (w h : Int16) : Prop :=
  s.clientBacking.addr ≠ 0 → s.clientBacking.HoldsSource s.bytesPerPixel w h

/-- The client backing that comes with a shape. -/
def shapeMemory (s : Surface) (rgn : IOAccelDeviceRegion) (args : ShapeArgs) :
    Option ClientBacking :=
  match s.newClientBacking rgn args with
  | .ok client => client
  | .error _ => none

/-- A format of so many bytes a pixel suits the geometry: it has no more of them than the format
before, or there is no geometry yet. -/
def suits (s : Surface) (bytes : ℕ) : Prop := bytes ≤ s.bytesPerPixel ∨ s.scale = .zero

/-- The rectangle lies on the screen, as the surface knows it. -/
@[mk_iff]
structure ShowsOnScreen (s : Surface) (b : IOAccelBounds) : Prop where
  positive : b.Positive
  row : (b.x.toInt + b.w.toInt) * s.bytesPerPixel ≤ s.screenInfo.clientRowBytes
  size : (b.y.toInt + b.h.toInt) * s.screenInfo.clientRowBytes ≤ s.screenInfo.y
  fits : s.screenInfo.y + pageSize ≤ 2 ^ 32

/-- The shape can be given at its own size: its bounds are not negative, and the sizes of the
client's memory fit into 32 bits, or, for the shape of the framebuffer, its bounds lie on the
screen. -/
def shapeFits (s : Surface) (a : Accel) (args : ShapeArgs) (rgn : IOAccelDeviceRegion) : Prop :=
  if s.wID ≠ 1 ∨ a.optionPackedBacking = true then
    0 ≤ rgn.bounds.w.toInt ∧ 0 ≤ rgn.bounds.h.toInt ∧
      ∀ c ∈ s.shapeMemory rgn args,
        c.rowbytes < 2 ^ 32 ∧ c.size + pageResidue c.addr + pageSize ≤ 2 ^ 32
  else s.ShowsOnScreen rgn.bounds

/-- The call sets a geometry that is in order, and a flush comes before the geometry outgrows
the backing. -/
def setsFitting (s : Surface) (a : Accel) : SurfaceOp → Prop
  | .setIdMode _ mode _ => ∀ f ∈ mode.depth.formats, s.suits f.2.1
  | .setScale scaling => ∀ g ∈ scaling, g.1.LiesIn g.2.1 g.2.2 ∧ s.clientHolds g.2.1 g.2.2
  | .setShape args => ∀ rgn ∈ args.rgn,
      rgn.Bounded ∧ (args.options.testBit 2 = true → s.shapeFits a args rgn)
  | .contextSetSurface vmware apple _ => vmware = 0 → apple = .bgra32 → s.suits 4
  | .contextScale fixedSource width height => fixedSource = true →
      0 ≤ (Int16.ofNat width).toInt ∧ 0 ≤ (Int16.ofNat height).toInt ∧
        s.clientHolds (Int16.ofNat width) (Int16.ofNat height)
  | .flush _ _ => s.hasSourceGrown = false
  | _ => True

/-- The rows of the buffer end inside `byteSize`. -/
def Covered (s : Surface) : Prop :=
  0 < s.scale.buffer.w.toInt → 0 < s.scale.buffer.h.toInt →
    s.scale.byteOffset + (s.scale.buffer.h.toInt - 1) * s.scale.rowBytes +
      s.scale.buffer.w.toInt * s.bytesPerPixel ≤ s.scale.byteSize

/-- **The invariant** of the geometry. -/
structure Fitted (s : Surface) : Prop where
  format : s.haveID = true → s.surfaceFormat.bytes = s.bytesPerPixel
  depth : s.bytesPerPixel ≤ 4
  width : 0 ≤ s.scale.buffer.w.toInt
  height : 0 ≤ s.scale.buffer.h.toInt
  covered : s.Covered
  byteSize : s.scale.byteSize + pageSize ≤ 2 ^ 32
  region : ∀ r, s.lastRegion = some r → r.Bounded

end Surface

/-- The action calls a surface with a geometry that is in order, if it sets one. -/
def World.SetsFitting (w : World) (act : Action) : Prop :=
  ∀ c ∈ w.called act, (w.surfaces c.1).setsFitting w.accel c.2

/-! ### Deciding whether a geometry is in order -/

instance (b : IOAccelBounds) : Decidable b.Positive :=
  decidable_of_iff' _ b.positive_iff

instance (b : IOAccelBounds) (w h : Int16) : Decidable (b.LiesIn w h) :=
  decidable_of_iff' _ (b.liesIn_iff w h)

instance (r : IOAccelDeviceRegion) : Decidable r.Bounded :=
  inferInstanceAs (Decidable (∀ b ∈ r.rect, _))

instance (c : ClientBacking) (bytesPerPixel : ℕ) (w h : Int16) :
    Decidable (c.HoldsSource bytesPerPixel w h) :=
  decidable_of_iff' _ (c.holdsSource_iff bytesPerPixel w h)

namespace Surface

instance (s : Surface) (w h : Int16) : Decidable (s.clientHolds w h) :=
  inferInstanceAs (Decidable (_ → _))

instance (s : Surface) (bytes : ℕ) : Decidable (s.suits bytes) :=
  inferInstanceAs (Decidable (_ ∨ _))

instance (s : Surface) (b : IOAccelBounds) : Decidable (s.ShowsOnScreen b) :=
  decidable_of_iff' _ (s.showsOnScreen_iff b)

instance (s : Surface) (a : Accel) (args : ShapeArgs) (rgn : IOAccelDeviceRegion) :
    Decidable (s.shapeFits a args rgn) :=
  inferInstanceAs (Decidable (if s.wID ≠ 1 ∨ _ then _ ∧ _ ∧ ∀ c ∈ s.shapeMemory rgn args, _
    else s.ShowsOnScreen _))

instance (s : Surface) (a : Accel) : ∀ op, Decidable (s.setsFitting a op)
  | .setIdMode _ mode _ => inferInstanceAs (Decidable (∀ f ∈ mode.depth.formats, _))
  | .setScale scaling => inferInstanceAs (Decidable (∀ g ∈ scaling, _))
  | .setShape args => inferInstanceAs (Decidable (∀ rgn ∈ args.rgn, _))
  | .contextSetSurface _ _ _ => inferInstanceAs (Decidable (_ → _ → _))
  | .contextScale _ _ _ => inferInstanceAs (Decidable (_ → _))
  | .flush _ _ => inferInstanceAs (Decidable (_ = _))
  | .readLock _ _ => .isTrue trivial
  | .readUnlock => .isTrue trivial
  | .writeLock _ _ => .isTrue trivial
  | .writeUnlock => .isTrue trivial
  | .close => .isTrue trivial
  | .contextLock _ _ _ => .isTrue trivial
  | .contextUnlock => .isTrue trivial
  | .copyFramebuffer _ _ _ _ => .isTrue trivial
  | .copySurface _ _ _ _ _ => .isTrue trivial
  | .flushVideo => .isTrue trivial

end Surface

instance (w : World) (act : Action) : Decidable (w.SetsFitting act) :=
  inferInstanceAs (Decidable (∀ c ∈ w.called act, _))

/-! ### Numbers -/

/-- A 32-bit cast keeps what is not negative and below `2 ^ 32`. -/
theorem toU32_of_nonneg {z : ℤ} (h : 0 ≤ z) (hlt : z < 2 ^ 32) : (toU32 z : ℤ) = z := by
  rw [toU32, Int.emod_eq_of_lt h hlt, Int.toNat_of_nonneg h]

/-- A 64-bit cast keeps what is not negative and below `2 ^ 64`. -/
theorem toU64_of_nonneg {z : ℤ} (h : 0 ≤ z) (hlt : z < 2 ^ 64) : (toU64 z : ℤ) = z := by
  rw [toU64, Int.emod_eq_of_lt h hlt, Int.toNat_of_nonneg h]

/-- An `int16` is smaller than `2 ^ 15`. -/
theorem int16_bounds (z : Int16) : -2 ^ 15 ≤ z.toInt ∧ z.toInt < 2 ^ 15 :=
  ⟨z.le_toInt, z.toInt_lt⟩

/-- Whole pages hold what is rounded up to them, unless the rounding overflows. -/
theorem le_roundUpToPage {n : ℕ} (h : n + pageSize ≤ 2 ^ 32) : n ≤ roundUpToPage n := by
  simp only [roundUpToPage, pageSize] at h ⊢
  omega

/-- What is rounded up to pages in 32 bits is at most the last page boundary below `2 ^ 32`. -/
theorem roundUpToPage_le (n : ℕ) : roundUpToPage n + pageSize ≤ 2 ^ 32 := by
  simp only [roundUpToPage, pageSize]
  omega

/-- The rows of a rectangle in an image end inside it. -/
theorem rows_end {x y w h row size bytes : ℤ} (hrow : (x + w) * bytes ≤ row)
    (hsize : (y + h) * row ≤ size) :
    y * row + x * bytes + (h - 1) * row + w * bytes ≤ size := by
  have hsum : y * row + x * bytes + (h - 1) * row + w * bytes =
      (y + h) * row - row + (x + w) * bytes := by ring
  rw [hsum]
  omega

/-! ### The geometry -/

namespace Surface

variable {a b : Accel} {s t : Surface} {o : Outcome}

/-- The buffer ends inside the image that the parameters are calculated from. -/
theorem covered_of_image {g : Scale} {bytes row size : ℕ} (hpos : g.buffer.Positive)
    (hrow : (g.buffer.x.toInt + g.buffer.w.toInt) * bytes ≤ row)
    (hsize : (g.buffer.y.toInt + g.buffer.h.toInt) * row ≤ size)
    (hfits : size + pageSize ≤ 2 ^ 32) (hh : 0 < g.buffer.h.toInt) :
    (toU32 (g.buffer.y.toInt * row + g.buffer.x.toInt * bytes) : ℤ) +
      (g.buffer.h.toInt - 1) * row + g.buffer.w.toInt * bytes ≤ roundUpToPage size := by
  have hend := rows_end hrow hsize
  have hstart : 0 ≤ g.buffer.y.toInt * row + g.buffer.x.toInt * bytes :=
    Int.add_nonneg (Int.mul_nonneg hpos.y (Int.natCast_nonneg _))
      (Int.mul_nonneg hpos.x (Int.natCast_nonneg _))
  have hrows : 0 ≤ (g.buffer.h.toInt - 1) * row :=
    Int.mul_nonneg (by omega) (Int.natCast_nonneg _)
  have hcolumns : 0 ≤ g.buffer.w.toInt * bytes :=
    Int.mul_nonneg hpos.w (Int.natCast_nonneg _)
  have hround : (size : ℤ) ≤ roundUpToPage size := by exact_mod_cast le_roundUpToPage hfits
  have hlt : (size : ℤ) < 2 ^ 32 := by
    have : size < 2 ^ 32 := by
      simp only [pageSize] at hfits
      omega
    exact_mod_cast this
  rw [toU32_of_nonneg hstart (by omega)]
  omega

/-- `calculateScaleParameters` for a buffer inside the client's memory. -/
theorem calculate_client (hpos : s.scale.buffer.Positive)
    (hclient : s.isClientBackingValid = true)
    (hrow : (s.scale.buffer.x.toInt + s.scale.buffer.w.toInt) * s.bytesPerPixel ≤
      s.clientBacking.rowbytes)
    (hsize : (s.scale.buffer.y.toInt + s.scale.buffer.h.toInt) * s.clientBacking.rowbytes ≤
      s.clientBacking.size)
    (hfits : s.clientBacking.size + pageResidue s.clientBacking.addr + pageSize ≤ 2 ^ 32) :
    (s.calculateScaleParameters false).Covered := by
  intro hw hh
  have hh : 0 < s.scale.buffer.h.toInt := hh
  have hsize' : (s.scale.buffer.y.toInt + s.scale.buffer.h.toInt) * s.clientBacking.rowbytes ≤
      (s.clientBacking.size + pageResidue s.clientBacking.addr : ℕ) := by
    push_cast
    omega
  have hone : (1 : ℤ) * s.clientBacking.rowbytes ≤
      (s.scale.buffer.y.toInt + s.scale.buffer.h.toInt) * s.clientBacking.rowbytes :=
    Int.mul_le_mul_of_nonneg_right (by have := hpos.y; omega) (Int.natCast_nonneg _)
  simp only [pageSize] at hfits
  have hmodRow : s.clientBacking.rowbytes % 2 ^ 32 = s.clientBacking.rowbytes :=
    Nat.mod_eq_of_lt (by omega)
  have hmodSize : (s.clientBacking.size + pageResidue s.clientBacking.addr) % 2 ^ 32 =
      s.clientBacking.size + pageResidue s.clientBacking.addr := Nat.mod_eq_of_lt (by omega)
  have hcovered := covered_of_image (g := s.scale) hpos hrow hsize' hfits hh
  rw [← hmodRow, ← hmodSize] at hcovered
  simp only [calculateScaleParameters, hclient, if_true, Bool.false_eq_true, if_false]
  exact hcovered

/-- The row of a packed source does not overflow. -/
theorem packedRow_eq (hdepth : s.bytesPerPixel ≤ 4) (hw : 0 ≤ s.scale.sourceW.toInt) :
    ((toU32 s.scale.sourceW.toInt * s.bytesPerPixel % 2 ^ 32 : ℕ) : ℤ) =
      s.scale.sourceW.toInt * s.bytesPerPixel := by
  have hlt := (int16_bounds s.scale.sourceW).2
  have hcast := toU32_of_nonneg hw (by omega)
  have hle : toU32 s.scale.sourceW.toInt * s.bytesPerPixel ≤ (2 ^ 15 - 1) * 4 :=
    Nat.mul_le_mul (by omega) hdepth
  rw [Nat.mod_eq_of_lt (by omega), Nat.cast_mul, hcast]

/-- A packed source does not come to 4 GiB. -/
theorem packedSize_eq {row : ℕ} (hrow : row ≤ (2 ^ 15 - 1) * 4)
    (hh : 0 ≤ s.scale.sourceH.toInt) :
    ((toU32 s.scale.sourceH.toInt * row % 2 ^ 32 : ℕ) : ℤ) = s.scale.sourceH.toInt * row ∧
      toU32 s.scale.sourceH.toInt * row % 2 ^ 32 + pageSize ≤ 2 ^ 32 := by
  have hlt := (int16_bounds s.scale.sourceH).2
  have hcast := toU32_of_nonneg hh (by omega)
  have hle : toU32 s.scale.sourceH.toInt * row ≤ (2 ^ 15 - 1) * ((2 ^ 15 - 1) * 4) :=
    Nat.mul_le_mul (by omega) hrow
  rw [Nat.mod_eq_of_lt (by omega), Nat.cast_mul, hcast]
  exact ⟨rfl, by simp only [pageSize]; omega⟩

/-- A row of a packed source is short. -/
theorem packedRow_le (hdepth : s.bytesPerPixel ≤ 4) (hw : 0 ≤ s.scale.sourceW.toInt) :
    toU32 s.scale.sourceW.toInt * s.bytesPerPixel % 2 ^ 32 ≤ (2 ^ 15 - 1) * 4 := by
  have hlt := (int16_bounds s.scale.sourceW).2
  have hcast := toU32_of_nonneg hw (by omega)
  exact (Nat.mod_le _ _).trans (Nat.mul_le_mul (by omega) hdepth)

/-- `calculateScaleParameters` for a buffer inside a source whose rows follow each other. -/
theorem calculate_packed (hdepth : s.bytesPerPixel ≤ 4)
    (hin : s.scale.buffer.LiesIn s.scale.sourceW s.scale.sourceH)
    (hclient : s.isClientBackingValid = false) :
    (s.calculateScaleParameters false).Covered := by
  intro hw hh
  have hh : 0 < s.scale.buffer.h.toInt := hh
  obtain ⟨hx, hy, hbw, hbh⟩ := hin.positive
  have hw0 : 0 ≤ s.scale.sourceW.toInt := by have := hin.right; omega
  have hh0 : 0 ≤ s.scale.sourceH.toInt := by have := hin.bottom; omega
  have hrowEq := packedRow_eq hdepth hw0
  obtain ⟨hsizeEq, hfits⟩ := packedSize_eq (packedRow_le hdepth hw0) hh0
  have hrow : (s.scale.buffer.x.toInt + s.scale.buffer.w.toInt) * s.bytesPerPixel ≤
      s.scale.sourceW.toInt * s.bytesPerPixel :=
    Int.mul_le_mul_of_nonneg_right hin.right (Int.natCast_nonneg _)
  rw [← hrowEq] at hrow
  have hsize : (s.scale.buffer.y.toInt + s.scale.buffer.h.toInt) *
      (toU32 s.scale.sourceW.toInt * s.bytesPerPixel % 2 ^ 32 : ℕ) ≤
      s.scale.sourceH.toInt * (toU32 s.scale.sourceW.toInt * s.bytesPerPixel % 2 ^ 32 : ℕ) :=
    Int.mul_le_mul_of_nonneg_right hin.bottom (Int.natCast_nonneg _)
  rw [← hsizeEq] at hsize
  simp only [calculateScaleParameters, hclient, Bool.false_eq_true, if_false]
  exact covered_of_image (g := s.scale) hin.positive hrow hsize hfits hh

/-- **`calculateScaleParameters`** for a buffer inside the source. -/
theorem calculate_covered (hdepth : s.bytesPerPixel ≤ 4)
    (hin : s.scale.buffer.LiesIn s.scale.sourceW s.scale.sourceH)
    (hclient : s.clientHolds s.scale.sourceW s.scale.sourceH) :
    (s.calculateScaleParameters false).Covered := by
  by_cases hnull : s.clientBacking.addr = 0
  · exact calculate_packed hdepth hin (by simp [isClientBackingValid, hnull])
  · obtain ⟨hrow, hsize, hfits⟩ := hclient hnull
    refine calculate_client hin.positive (by simp [isClientBackingValid, hnull]) ?_ ?_ hfits
    · exact (Int.mul_le_mul_of_nonneg_right hin.right (Int.natCast_nonneg _)).trans hrow
    · exact (Int.mul_le_mul_of_nonneg_right hin.bottom (Int.natCast_nonneg _)).trans hsize

/-- `calculateScaleParameters` for a buffer on the screen. -/
theorem calculate_screen (hpos : s.scale.buffer.Positive)
    (hrow : (s.scale.buffer.x.toInt + s.scale.buffer.w.toInt) * s.bytesPerPixel ≤
      s.screenInfo.clientRowBytes)
    (hsize : (s.scale.buffer.y.toInt + s.scale.buffer.h.toInt) * s.screenInfo.clientRowBytes ≤
      s.screenInfo.y) (hfits : s.screenInfo.y + pageSize ≤ 2 ^ 32) :
    (s.calculateScaleParameters true).Covered := by
  intro hw hh
  have hmod : s.screenInfo.y % 2 ^ 32 = s.screenInfo.y := by
    refine Nat.mod_eq_of_lt ?_
    simp only [pageSize] at hfits
    omega
  have hcovered := covered_of_image (g := s.scale) hpos hrow hsize hfits hh
  rw [← hmod] at hcovered
  exact hcovered

/-- The client backing of a new shape holds it, if the sizes fit into 32 bits. -/
theorem newClientBacking_holds {rgn : IOAccelDeviceRegion} {args : ShapeArgs}
    {c : ClientBacking} (h : s.newClientBacking rgn args = .ok (some c))
    (hdepth : s.bytesPerPixel ≤ 4) (hw : 0 ≤ rgn.bounds.w.toInt)
    (hh : 0 ≤ rgn.bounds.h.toInt) (hrow : c.rowbytes < 2 ^ 32)
    (hfits : c.size + pageResidue c.addr + pageSize ≤ 2 ^ 32) :
    c.HoldsSource s.bytesPerPixel rgn.bounds.w rgn.bounds.h := by
  obtain ⟨width, hwidth⟩ := Int.eq_ofNat_of_zero_le hw
  obtain ⟨height, hheight⟩ := Int.eq_ofNat_of_zero_le hh
  have hwlt := (int16_bounds rgn.bounds.w).2
  have hhlt := (int16_bounds rgn.bounds.h).2
  have hcastW : toU64 rgn.bounds.w.toInt = width := by
    exact_mod_cast (toU64_of_nonneg hw (by omega)).trans hwidth
  have hcastH : toU64 rgn.bounds.h.toInt = height := by
    exact_mod_cast (toU64_of_nonneg hh (by omega)).trans hheight
  have hminRow : toU64 rgn.bounds.w.toInt * s.bytesPerPixel % 2 ^ 64 =
      width * s.bytesPerPixel := by
    have hle : width * s.bytesPerPixel ≤ 2 ^ 15 * 4 := Nat.mul_le_mul (by omega) hdepth
    rw [hcastW]
    exact Nat.mod_eq_of_lt (by omega)
  have hminSize : ∀ row, row < 2 ^ 32 →
      toU64 rgn.bounds.h.toInt * row % 2 ^ 64 = height * row := by
    intro row hlt
    have hle : height * row ≤ 2 ^ 15 * 2 ^ 32 := Nat.mul_le_mul (by omega) hlt.le
    rw [hcastH]
    exact Nat.mod_eq_of_lt (by omega)
  have hsizes : width * s.bytesPerPixel ≤ c.rowbytes ∧ height * c.rowbytes ≤ c.size := by
    rw [newClientBacking] at h
    dsimp only at h
    rw [hminRow] at h
    split_ifs at h
    · cases Except.ok.inj h
    all_goals
      obtain rfl := Option.some.inj (Except.ok.inj h)
      have hmin := hminSize _ hrow
      dsimp only at hmin ⊢
      omega
  refine ⟨?_, ?_, hfits⟩
  · rw [hwidth]
    exact_mod_cast hsizes.1
  · rw [hheight]
    exact_mod_cast hsizes.2

/-! ### Calls -/

/-- What a flush looks at, besides the backing, stays, but the region may be forgotten. -/
structure SameLook (s t : Surface) : Prop where
  haveID : t.haveID = s.haveID
  surfaceFormat : t.surfaceFormat = s.surfaceFormat
  bytesPerPixel : t.bytesPerPixel = s.bytesPerPixel
  scale : t.scale = s.scale
  region : t.lastRegion = s.lastRegion ∨ t.lastRegion = none

/-- A surface looks as it looks. -/
theorem SameLook.refl (s : Surface) : s.SameLook s := ⟨rfl, rfl, rfl, rfl, .inl rfl⟩

/-- Two changes that a flush does not see are not seen one after the other. -/
theorem SameLook.trans {u : Surface} (h : s.SameLook t) (h' : t.SameLook u) : s.SameLook u := by
  refine ⟨h'.haveID.trans h.haveID, h'.surfaceFormat.trans h.surfaceFormat,
    h'.bytesPerPixel.trans h.bytesPerPixel, h'.scale.trans h.scale, ?_⟩
  rcases h'.region with hu | hu
  · rw [hu]
    exact h.region
  · exact .inr hu

/-- A flush does not see the counters of the framebuffer and the locks change. -/
theorem Served.look (h : Served s t) : s.SameLook t := by
  obtain ⟨b, v, r, w, c, k, rfl⟩ := h
  exact ⟨rfl, rfl, rfl, rfl, .inl rfl⟩

/-- Nor does it see the video overlay and the 3D resources. -/
theorem Refronted.look (h : Refronted s t) : s.SameLook t := by
  obtain ⟨o, m, d, rfl⟩ := h
  exact ⟨rfl, rfl, rfl, rfl, .inl rfl⟩

/-- To clear the region forgets it at most. -/
theorem clearLastRegion_look (s : Surface) : s.SameLook s.clearLastRegion := by
  rw [clearLastRegion]
  split
  · exact ⟨rfl, rfl, rfl, rfl, .inr rfl⟩
  · exact .refl s

/-- To close the client leaves the geometry, and forgets the region at most. -/
theorem clientClose_look (h : s.clientClose a = some o) : s.SameLook o.surface := by
  rw [clientClose] at h
  obtain ⟨⟨a₁, s₁⟩, hoff, heq⟩ := Option.map_eq_some_iff.mp h
  cases heq
  have hlook : s.SameLook s₁ := by
    split at hoff
    · obtain ⟨-, v, rfl⟩ := surfaceVideoOff_kept hoff
      exact (cleanup3D_refronted s).look.trans ⟨rfl, rfl, rfl, rfl, .inl rfl⟩
    · cases hoff
      exact .refl s
  have hreleased : s₁.SameLook (s₁.releaseBacking a₁).2 := ⟨rfl, rfl, rfl, rfl, .inl rfl⟩
  refine ((hlook.trans hreleased).trans (clearLastRegion_look _)).trans ?_
  exact ⟨rfl, rfl, rfl, rfl, .inl rfl⟩

/-- Where client memory is recorded, the window, its depth and its screen stay as they were. -/
theorem recordClientBacking_shape (s : Surface) (client : Option ClientBacking) :
    (s.recordClientBacking client).wID = s.wID ∧
      (s.recordClientBacking client).bytesPerPixel = s.bytesPerPixel ∧
      (s.recordClientBacking client).screenInfo = s.screenInfo ∧
      (s.recordClientBacking client).clientBacking = client.getD s.clientBacking := by
  cases client <;> exact ⟨rfl, rfl, rfl, rfl⟩

/-- The geometry that a shape sets when the client's memory has been recorded. -/
def IdentityFits (s : Surface) (packed : Bool) (b : IOAccelBounds) : Prop :=
  if s.wID ≠ 1 ∨ packed = true then
    0 ≤ b.w.toInt ∧ 0 ≤ b.h.toInt ∧ s.clientHolds b.w b.h
  else s.ShowsOnScreen b

/-- A shape that fits does so with the memory that comes with it. -/
theorem shapeFits.recorded {args : ShapeArgs} {rgn : IOAccelDeviceRegion}
    {client : Option ClientBacking} (h : s.shapeFits a args rgn) (hdepth : s.bytesPerPixel ≤ 4)
    (hclient : s.newClientBacking rgn args = .ok client) (hwID : t.wID = s.wID)
    (hbytes : t.bytesPerPixel = s.bytesPerPixel) (hscreen : t.screenInfo = s.screenInfo)
    (hnew : t.clientBacking = client.getD .zero) :
    t.IdentityFits a.optionPackedBacking rgn.bounds := by
  rw [shapeFits, ← hwID] at h
  rw [IdentityFits]
  split
  · rename_i hown
    rw [if_pos hown] at h
    obtain ⟨hw, hh, hsizes⟩ := h
    refine ⟨hw, hh, fun haddr => ?_⟩
    cases client with
    | none => exact absurd (by rw [hnew]; rfl) haddr
    | some c =>
        obtain ⟨hrow, hfits⟩ := hsizes c (by rw [shapeMemory, hclient]; rfl)
        rw [hnew, hbytes]
        exact newClientBacking_holds hclient hdepth hw hh hrow hfits
  · rename_i hshared
    rw [if_neg hshared] at h
    refine ⟨h.positive, ?_, ?_, ?_⟩
    · rw [hbytes, hscreen]
      exact h.row
    · rw [hscreen]
      exact h.size
    · rw [hscreen]
      exact h.fits

namespace Fitted

/-- The invariant is about what a flush looks at. -/
theorem congr (h : s.Fitted) (hlook : s.SameLook t) : t.Fitted := by
  obtain ⟨hid, hformat, hbytes, hscale, hregion⟩ := hlook
  constructor
  case format =>
    rw [hid, hformat, hbytes]
    exact h.format
  case depth =>
    rw [hbytes]
    exact h.depth
  case width =>
    rw [hscale]
    exact h.width
  case height =>
    rw [hscale]
    exact h.height
  case covered =>
    rw [Covered, hscale, hbytes]
    exact h.covered
  case byteSize =>
    rw [hscale]
    exact h.byteSize
  case region =>
    intro r hr
    rcases hregion with hkept | hnone
    · exact h.region r (hkept ▸ hr)
    · rw [hnone] at hr
      cases hr

/-- A format that suits the geometry. -/
theorem recolored (h : s.Fitted) {format : SurfaceFormat} {bytes : ℕ} (pixel : PixelFormat)
    (hformat : format.bytes = bytes) (hdepth : bytes ≤ 4) (hsuits : s.suits bytes) :
    Fitted { s with
      surfaceFormat := format
      bytesPerPixel := bytes
      pixelFormat := pixel } := by
  refine ⟨fun _ => hformat, hdepth, h.width, h.height, fun hw hh => ?_, h.byteSize, h.region⟩
  have hw : 0 < s.scale.buffer.w.toInt := hw
  have hcovered := h.covered hw hh
  rcases hsuits with hle | hzero
  · have hless : s.scale.buffer.w.toInt * bytes ≤ s.scale.buffer.w.toInt * s.bytesPerPixel :=
      Int.mul_le_mul_of_nonneg_left (by exact_mod_cast hle) h.width
    change (s.scale.byteOffset : ℤ) + (s.scale.buffer.h.toInt - 1) * s.scale.rowBytes +
      s.scale.buffer.w.toInt * bytes ≤ s.scale.byteSize
    omega
  · rw [hzero] at hw
    cases hw

/-- A geometry with parameters that cover its buffer. -/
theorem rescaled (h : s.Fitted) {g : Scale} {fromGFB : Bool} (hw : 0 ≤ g.buffer.w.toInt)
    (hh : 0 ≤ g.buffer.h.toInt)
    (hcovered : ({ s with scale := g }.calculateScaleParameters fromGFB).Covered) :
    ({ s with scale := g }.calculateScaleParameters fromGFB).Fitted :=
  ⟨h.format, h.depth, hw, hh, hcovered, roundUpToPage_le _, h.region⟩

/-- A mode whose formats suit the geometry that is set. -/
theorem setIdMode {wID : ℕ} {mode : SurfaceMode} {screen : IOReturn} (h : s.Fitted)
    (hsuits : ∀ f ∈ mode.depth.formats, s.suits f.2.1)
    (hset : s.setIdMode a wID mode screen = some o) : o.surface.Fitted := by
  have hmode : (s.setMode a wID mode).surface.Fitted := by
    rw [setMode]
    split
    · exact h
    split
    · exact h
    split
    · exact h
    · rename_i format bytes pixel hformats
      have hknown : format.bytes = bytes ∧ bytes ≤ 4 := by
        unfold ColorDepth.formats at hformats
        split at hformats <;> cases hformats <;> exact ⟨rfl, by decide⟩
      have hnew := h.recolored pixel hknown.1 hknown.2
        (hsuits (format, bytes, pixel) hformats)
      exact ⟨fun _ => hknown.1, hnew.depth, hnew.width, hnew.height, hnew.covered,
        hnew.byteSize, hnew.region⟩
  rw [Surface.setIdMode] at hset
  split at hset
  · split at hset
    · cases hset
      exact h
    split at hset
    · split at hset
      · cases hset
      split at hset
      · cases hset
        exact h
      · cases hset
        exact hmode
    · cases hset
      exact hmode
  · cases hset
    exact hmode

/-- A scaling with its buffer in the source, and the source in the client's memory. -/
theorem setScale {scaling : Option (IOAccelBounds × Int16 × Int16)} (h : s.Fitted)
    (hin : ∀ g ∈ scaling, g.1.LiesIn g.2.1 g.2.2 ∧ s.clientHolds g.2.1 g.2.2) :
    (s.setScale a scaling).surface.Fitted := by
  cases scaling with
  | none => exact h
  | some g =>
      obtain ⟨hlies, hclient⟩ := hin g rfl
      refine h.rescaled (g := { s.scale with buffer := g.1, sourceW := g.2.1, sourceH := g.2.2 })
        hlies.positive.w hlies.positive.h ?_
      exact calculate_covered h.depth hlies hclient

/-- A 2D context's scaling with a source that is not negative and in the client's memory. -/
theorem contextScale {fixedSource : Bool} {width height : ℕ} (h : s.Fitted)
    (hin : fixedSource = true → 0 ≤ (Int16.ofNat width).toInt ∧
      0 ≤ (Int16.ofNat height).toInt ∧
      s.clientHolds (Int16.ofNat width) (Int16.ofNat height)) :
    (s.contextScale a fixedSource width height).surface.Fitted := by
  rw [Surface.contextScale]
  split
  · exact h
  · rename_i hfixed
    rw [Bool.not_eq_true', Bool.not_eq_false] at hfixed
    obtain ⟨hw, hh, hclient⟩ := hin hfixed
    refine h.rescaled (g := { s.scale with
      sourceW := Int16.ofNat width
      sourceH := Int16.ofNat height
      buffer := ⟨0, 0, Int16.ofNat width, Int16.ofNat height⟩ }) hw hh ?_
    refine calculate_covered h.depth ⟨⟨le_rfl, le_rfl, hw, hh⟩, ?_, ?_⟩ hclient
    · exact (Int.zero_add _).le
    · exact (Int.zero_add _).le

/-- A 2D context's surface with a format that suits the geometry. -/
theorem contextSetSurface {vmware : ℕ} {apple : PixelFormat} {env : Start3DEnv} (h : s.Fitted)
    (hid : s.haveID = true) (hvideo : vmware = 0 ∨ vmware = fourccUyvy ∨ vmware = fourccYuy2)
    (hsuits : vmware = 0 → apple = .bgra32 → s.suits 4)
    (hset : s.contextSetSurface a vmware apple env = some o) : o.surface.Fitted := by
  rw [Surface.contextSetSurface] at hset
  split at hset
  · rename_i hnull
    split at hset
    · cases hset
    rename_i a₁ s₁ hoff
    obtain ⟨-, v, rfl⟩ := surfaceVideoOff_kept hoff
    obtain ⟨⟨b, t⟩, hstart, heq⟩ := Option.map_eq_some_iff.mp hset
    cases heq
    refine congr ?_ (restart_refronted hstart).look
    have hplain : Fitted { s with video := v, videoMode := false } :=
      h.congr ⟨rfl, rfl, rfl, rfl, .inl rfl⟩
    split
    · rename_i hbgra
      exact hplain.recolored _ rfl le_rfl (hsuits hnull hbgra)
    · exact hplain
  · rename_i hnull
    split at hset
    · cases hset
      exact h
    · cases hset
      refine congr ?_ (cleanup3D_refronted _).look
      have htwo : 2 ≤ s.bytesPerPixel := by
        rw [← h.format hid]
        cases s.surfaceFormat <;> decide
      have hformat : (if vmware = fourccUyvy then SurfaceFormat.uyvy
          else if vmware = fourccYuy2 then .yuy2 else s.surfaceFormat).bytes = 2 := by
        rcases hvideo with rfl | rfl | rfl
        · exact absurd rfl hnull
        · rfl
        · rfl
      have hnew := h.recolored apple hformat (by decide) (.inl htwo)
      exact hnew.congr ⟨rfl, rfl, rfl, rfl, .inl rfl⟩

/-- A shape at its own size. -/
theorem identityScale {rgn : IOAccelDeviceRegion} {packed : Bool} (h : s.Fitted)
    (hfits : s.IdentityFits packed rgn.bounds) :
    (s.identityScale rgn packed).Fitted := by
  rw [IdentityFits] at hfits
  rw [Surface.identityScale]
  by_cases hown : s.wID ≠ 1 ∨ packed = true
  · rw [if_pos hown] at hfits
    obtain ⟨hw, hh, hclient⟩ := hfits
    simp only [hown, decide_true, Bool.not_true]
    refine h.rescaled (g := { s.scale with
      sourceW := rgn.bounds.w
      sourceH := rgn.bounds.h
      buffer := ⟨0, 0, rgn.bounds.w, rgn.bounds.h⟩ }) hw hh ?_
    refine calculate_covered h.depth ⟨⟨le_rfl, le_rfl, hw, hh⟩, ?_, ?_⟩ hclient
    · exact (Int.zero_add _).le
    · exact (Int.zero_add _).le
  · rw [if_neg hown] at hfits
    simp only [hown, decide_false, Bool.not_false]
    refine h.rescaled (g := { s.scale with
      buffer := rgn.bounds
      sourceW := Int16.ofNat s.screenInfo.w
      sourceH := Int16.ofNat s.screenInfo.h }) hfits.positive.w hfits.positive.h ?_
    exact calculate_screen hfits.positive hfits.row hfits.size hfits.fits

/-- Other memory of the client's is recorded. -/
theorem recorded (h : s.Fitted) (client : Option ClientBacking) :
    (s.recordClientBacking client).Fitted := by
  cases client with
  | none => exact h
  | some c => exact h.congr ⟨rfl, rfl, rfl, rfl, .inl rfl⟩

/-- The shape of a video overlay leaves the geometry of the window. -/
theorem reshaped (h : s.Fitted) (hvideo : s.videoReshape a = some (b, t)) : t.Fitted := by
  obtain ⟨-, video, rfl⟩ := videoReshape_kept hvideo
  exact h.congr ⟨rfl, rfl, rfl, rfl, .inl rfl⟩

/-- A shape that fits at its own size, or waits for the scaling that comes after it. -/
theorem setShape {args : ShapeArgs} (h : s.Fitted)
    (hargs : ∀ rgn ∈ args.rgn,
      rgn.Bounded ∧ (args.options.testBit 2 = true → s.shapeFits a args rgn))
    (hset : s.setShape a args = some o) : o.surface.Fitted := by
  rw [Surface.setShape] at hset
  split at hset
  · cases hset
    exact h
  rename_i rgn hrgn
  obtain ⟨hbounded, hshape⟩ := hargs rgn hrgn
  split at hset
  · cases hset
    exact h
  split at hset
  · cases hset
    exact h
  have hcleared : Fitted { s.clearLastRegion with clientBacking := .zero } :=
    h.congr ((clearLastRegion_look s).trans ⟨rfl, rfl, rfl, rfl, .inl rfl⟩)
  obtain ⟨-, -, hbytes, hwID, hscreen⟩ := s.clearLastRegion_same
  dsimp only at hset
  split at hset
  · cases hset
    exact hcleared
  split at hset
  · cases hset
    exact hcleared
  split at hset
  · cases hset
    exact hcleared
  · rename_i client hclient
    split at hset
    · cases hset
      exact (hcleared.recorded client).congr ⟨rfl, rfl, rfl, rfl, .inl rfl⟩
    · obtain ⟨⟨b, v⟩, hvideo, heq⟩ := Option.map_eq_some_iff.mp hset
      cases heq
      refine (reshaped ?_ hvideo).congr ⟨rfl, rfl, rfl, rfl, .inl rfl⟩
      have hrecorded := hcleared.recorded client
      have hnew : Fitted { ({ s.clearLastRegion with clientBacking := .zero } :
          Surface).recordClientBacking client with
            lastRegion := some rgn
            framebufferIndex := args.framebufferIndex % 2 ^ 32 } := by
        refine ⟨hrecorded.format, hrecorded.depth, hrecorded.width, hrecorded.height,
          hrecorded.covered, hrecorded.byteSize, ?_⟩
        rintro r ⟨⟩
        exact hbounded
      split
      · rename_i hbit
        obtain ⟨hwID', hbytes', hscreen', hclient'⟩ := recordClientBacking_shape
          { s.clearLastRegion with clientBacking := .zero } client
        refine hnew.identityScale ((hshape hbit).recorded h.depth ?_ (hwID'.trans hwID)
          (hbytes'.trans hbytes) (hscreen'.trans hscreen) hclient')
        rw [← newClientBacking_congr (s := s) hbytes]
        exact hclient
      · exact hnew

/-- **A call** that sets a geometry in order keeps it so. -/
theorem apply {op : SurfaceOp} (h : s.Fitted) (hsets : s.setsFitting a op)
    (hcontext : ∀ {vmware : ℕ} {apple : PixelFormat} {env : Start3DEnv},
      op = .contextSetSurface vmware apple env →
        s.haveID = true ∧ (vmware = 0 ∨ vmware = fourccUyvy ∨ vmware = fourccYuy2))
    (happly : s.apply a op = some o) : o.surface.Fitted := by
  cases op with
  | setIdMode wID mode screen => exact h.setIdMode hsets happly
  | setScale scaling =>
      cases happly
      exact h.setScale hsets
  | setShape args => exact h.setShape hsets happly
  | close => exact h.congr (clientClose_look happly)
  | contextSetSurface vmware apple env =>
      obtain ⟨hid, hvideo⟩ := hcontext rfl
      exact h.contextSetSurface hid hvideo hsets happly
  | contextScale fixedSource width height =>
      cases happly
      exact h.contextScale hsets
  | _ => exact h.congr (apply_served happly rfl).look

/-- A new surface has no geometry. -/
theorem init : Fitted .init := by
  refine ⟨fun hid => (by cases hid), by decide, le_rfl, le_rfl, fun hw => ?_, by decide, ?_⟩
  · cases hw
  · rintro r ⟨⟩

end Fitted

end Surface

/-- An action whose call sets a geometry in order keeps those of all surfaces so. -/
theorem World.fitted_step {w w' : World} {act : Action} (h : ∀ i, (w.surfaces i).Fitted)
    (hsets : w.SetsFitting act) (hstep : w.step act = some w') :
    ∀ i, (w'.surfaces i).Fitted := by
  refine local_rule hstep h (fun hcalled hs happly => ?_) ?_
  · refine hs.apply (hsets _ hcalled) ?_ happly
    rintro vmware apple env rfl
    exact (called_setSurface hcalled).2
  · intro i screenInfo env o hs hstart
    obtain ⟨⟨b, t⟩, hstart3D, heq⟩ := Option.map_eq_some_iff.mp hstart
    cases heq
    have hopen : Surface.Fitted { w.surfaces i with provider := true, screenInfo := screenInfo } :=
      hs.congr ⟨rfl, rfl, rfl, rfl, .inl rfl⟩
    exact hopen.congr (Surface.start3D_refronted hstart3D).look

/-! ### Transfers -/

/-- The box lies in a buffer of this size. -/
structure GuestBox.LiesIn (box : GuestBox) (w h : ℤ) : Prop where
  left : 0 ≤ box.x
  top : 0 ≤ box.y
  right : box.x + box.w ≤ w
  bottom : box.y + box.h ≤ h

namespace Surface

variable {a : Accel} {s : Surface} {r : IOAccelDeviceRegion}

/-- The rectangles of a region lie in its bounds, seen from their corner. -/
theorem screenBoxes_inside (hbounded : r.Bounded) :
    ∀ box ∈ screenBoxes r, box.LiesIn r.bounds.w.toInt r.bounds.h.toInt := by
  intro box hbox
  obtain ⟨b, hb, rfl⟩ := List.mem_map.mp hbox
  obtain ⟨⟨hleft, -, hright⟩, htop, -, hbottom⟩ := hbounded b hb
  constructor <;> dsimp only <;> omega

/-- The boxes of a transfer lie in the bounds of the region, seen from their corner. -/
theorem dmaBoxes_inside (hbounded : r.Bounded) :
    ∀ box ∈ dmaBoxes r, box.LiesIn r.bounds.w.toInt r.bounds.h.toInt := by
  intro box hbox
  obtain ⟨b, hb, rfl⟩ := List.mem_map.mp hbox
  obtain ⟨⟨hleft, hw, hright⟩, htop, hh, hbottom⟩ := hbounded b hb
  have hwlt := (int16_bounds r.bounds.w).2
  have hhlt := (int16_bounds r.bounds.h).2
  have hx := toU32_of_nonneg (z := b.x.toInt - r.bounds.x.toInt) (by omega) (by omega)
  have hy := toU32_of_nonneg (z := b.y.toInt - r.bounds.y.toInt) (by omega) (by omega)
  have hw' := toU32_of_nonneg hw (by omega)
  have hh' := toU32_of_nonneg hh (by omega)
  constructor <;> dsimp only <;> omega

/-- The box of the whole buffer lies in the buffer. -/
theorem bufferBox_inside (h : s.Fitted) :
    s.bufferBox.LiesIn s.scale.buffer.w.toInt s.scale.buffer.h.toInt := by
  have hwlt := (int16_bounds s.scale.buffer.w).2
  have hhlt := (int16_bounds s.scale.buffer.h).2
  have hw := toU32_of_nonneg h.width (by omega)
  have hh := toU32_of_nonneg h.height (by omega)
  refine ⟨le_rfl, le_rfl, ?_, ?_⟩
  · exact ((Int.zero_add _).trans hw).le
  · exact ((Int.zero_add _).trans hh).le

/-- The ways that take the rectangles of the region need a buffer of its size, and two of them
pixels of four bytes. -/
theorem dmaType_needs {kind : DMAType} (h : s.dmaType a r = .ok kind) :
    (kind = .direct ∨ kind = .screenDirect → s.surfaceFormat = .x8r8g8b8) ∧
      (kind = .direct ∨ kind = .copy ∨ kind = .screenDirect →
        s.scale.buffer.w = r.bounds.w ∧ s.scale.buffer.h = r.bounds.h) := by
  have hsize : s.isIdentityScale r = true →
      s.scale.buffer.w = r.bounds.w ∧ s.scale.buffer.h = r.bounds.h := by
    intro hidentity
    rw [isIdentityScale, Bool.and_eq_true, decide_eq_true_eq, decide_eq_true_eq] at hidentity
    exact hidentity
  rw [dmaType] at h
  split_ifs at h <;> cases h <;> simp_all

/-- The boxes of a transfer lie in the buffer, and its pixels are those of the surface. -/
theorem flushed_boxes {kind : DMAType} {t : Transfer} (h : s.Fitted) (hid : s.haveID = true)
    (hregion : s.lastRegion = some r) (hkind : s.dmaType a r = .ok kind)
    (ht : s.flushed r kind = .dma t) :
    ∃ boxes, t = s.transfer s.bytesPerPixel boxes ∧
      ∀ box ∈ boxes, box.LiesIn s.scale.buffer.w.toInt s.scale.buffer.h.toInt := by
  obtain ⟨hfour, hsize⟩ := dmaType_needs hkind
  have hbytes := h.format hid
  have hbounded := h.region r hregion
  have hone : ∀ box ∈ [s.bufferBox],
      box.LiesIn s.scale.buffer.w.toInt s.scale.buffer.h.toInt := by
    intro box hbox
    rw [List.mem_singleton.mp hbox]
    exact bufferBox_inside h
  cases kind with
  | direct =>
      cases ht
      rw [hfour (.inl rfl)] at hbytes
      obtain ⟨hw, hh⟩ := hsize (.inl rfl)
      refine ⟨dmaBoxes r, by rw [← hbytes]; rfl, ?_⟩
      rw [hw, hh]
      exact dmaBoxes_inside hbounded
  | copy =>
      cases ht
      obtain ⟨hw, hh⟩ := hsize (.inr (.inl rfl))
      refine ⟨dmaBoxes r, by rw [hbytes], ?_⟩
      rw [hw, hh]
      exact dmaBoxes_inside hbounded
  | stretch =>
      cases ht
      exact ⟨[s.bufferBox], by rw [hbytes], hone⟩
  | screenDirect =>
      cases ht
      rw [hfour (.inr rfl)] at hbytes
      obtain ⟨hw, hh⟩ := hsize (.inr (.inr rfl))
      refine ⟨screenBoxes r, by rw [← hbytes]; rfl, ?_⟩
      rw [hw, hh]
      exact screenBoxes_inside hbounded
  | screenVia3D =>
      cases ht
      exact ⟨[s.bufferBox], by rw [hbytes], hone⟩
  | gfb => cases ht

/-- A pixel of the buffer lies between the byte offset and the byte size. -/
theorem Covered.pixel (h : s.Covered) {x y : ℤ} (hx : 0 ≤ x) (hxw : x < s.scale.buffer.w.toInt)
    (hy : 0 ≤ y) (hyh : y < s.scale.buffer.h.toInt) :
    0 ≤ y * s.scale.rowBytes + x * s.bytesPerPixel ∧
      s.scale.byteOffset + y * s.scale.rowBytes + (x + 1) * s.bytesPerPixel ≤
        s.scale.byteSize := by
  have hcovered := h (by omega) (by omega)
  have hrows : y * s.scale.rowBytes ≤ (s.scale.buffer.h.toInt - 1) * s.scale.rowBytes :=
    Int.mul_le_mul_of_nonneg_right (by omega) (Int.natCast_nonneg _)
  have hcolumns : (x + 1) * s.bytesPerPixel ≤ s.scale.buffer.w.toInt * s.bytesPerPixel :=
    Int.mul_le_mul_of_nonneg_right (by omega) (Int.natCast_nonneg _)
  have hrow : 0 ≤ y * s.scale.rowBytes := Int.mul_nonneg hy (Int.natCast_nonneg _)
  have hcolumn : 0 ≤ x * s.bytesPerPixel := Int.mul_nonneg hx (Int.natCast_nonneg _)
  exact ⟨by omega, by omega⟩

/-- **A transfer** of boxes in the buffer reads inside the backing, unless the geometry has
outgrown it. -/
theorem transfer_inside (h : s.Fitted) (hid : s.haveID = true)
    (hgrown : s.hasSourceGrown = false)
    (hend : s.backing.offset + s.scale.byteSize ≤ 2 ^ 32) {boxes : List GuestBox}
    (hboxes : ∀ box ∈ boxes, box.LiesIn s.scale.buffer.w.toInt s.scale.buffer.h.toInt) :
    (s.transfer s.bytesPerPixel boxes).ReadsInside s.backing := by
  refine ⟨rfl, fun box hbox x y hx hxw hy hyh => ?_⟩
  obtain ⟨hleft, htop, hright, hbottom⟩ := hboxes box hbox
  obtain ⟨hstart, hpast⟩ := h.covered.pixel (x := x) (y := y) (by omega) (by omega) (by omega)
    (by omega)
  have hle : s.scale.byteSize ≤ s.backing.size := by
    simpa [hasSourceGrown] using hgrown
  have hbytes : 0 < s.bytesPerPixel := by
    rw [← h.format hid]
    cases s.surfaceFormat <;> decide
  have hnext : (x + 1) * s.bytesPerPixel = x * s.bytesPerPixel + s.bytesPerPixel := by ring
  have hoffset : (s.transfer s.bytesPerPixel boxes).offset =
      s.backing.offset + s.scale.byteOffset := by
    change (s.backing.offset + s.scale.byteOffset) % 2 ^ 32 = _
    exact Nat.mod_eq_of_lt (by omega)
  rw [hoffset]
  change (s.backing.offset : ℤ) ≤ (s.backing.offset + s.scale.byteOffset : ℕ) +
      y * s.scale.rowBytes + x * s.bytesPerPixel ∧
    (s.backing.offset + s.scale.byteOffset : ℕ) + y * s.scale.rowBytes +
      (x + 1) * s.bytesPerPixel ≤ s.backing.offset + s.backing.size
  push_cast
  exact ⟨by omega, by omega⟩

end Surface

/-- The bytes of a backing that is large enough are in the first 4 GiB. -/
theorem World.FlushInv.backing_end {maxGmrIds i : ℕ} {w : World} (h : w.FlushInv maxGmrIds)
    (hfitted : (w.surfaces i).Fitted) (hvalid : (w.surfaces i).isBackingValid = true)
    (hgrown : (w.surfaces i).hasSourceGrown = false) :
    (w.surfaces i).backing.offset + (w.surfaces i).scale.byteSize ≤ 2 ^ 32 := by
  by_cases hself : (w.surfaces i).backing.self = 0
  · have hnear := (h.labels i).near (by simpa [Surface.isBackingValid, hself] using hvalid)
    have hsize := hfitted.byteSize
    omega
  · obtain ⟨lists, hinv⟩ := h.maps.blocks.inv
    have hend := hinv.live_end (h.maps.blocks.sized i hself)
    have hle : (w.surfaces i).scale.byteSize ≤ (w.surfaces i).backing.size := by
      simpa [Surface.hasSourceGrown] using hgrown
    rw [h.maps.blocks.placed i hself]
    omega

/-- **A flush** reads inside the backing, after calls that set geometries in order, and before
the geometry outgrows the backing. -/
theorem flush_reads_backing {z alloc : VMsvga2Allocator} {e : AccelSetup}
    (hsetup : setupAllocator z e.vram = (.success, alloc)) {as : List Action} {w w' : World}
    (h : Run World.step World.SetsFitting (.start (.start e alloc)) as w) {i : ℕ}
    {out present : IOReturn} {o : Outcome}
    (hact : w.SetsFitting (.client i (.flush out present)))
    (hflush : w.result (.client i (.flush out present)) = .ok w' .success (some o))
    {t : Transfer} (ht : o.flushed = some (.dma t)) :
    t.ReadsInside (w.surfaces i).backing := by
  have hinv : w.FlushInv e.maxGmrIds ∧ ∀ j, (w.surfaces j).Fitted := by
    refine h.invariant (I := fun v => v.FlushInv e.maxGmrIds ∧ ∀ j, (v.surfaces j).Fitted) ?_
      ⟨.start hsetup, fun _ => .init⟩
    rintro v act v' ⟨hv, hfitted⟩ hact hstep
    exact ⟨hv.step hstep, World.fitted_step hfitted hact hstep⟩
  have hgrown : (w.surfaces i).hasSourceGrown = false := hact _ (World.called_client hflush)
  obtain ⟨r, kind, hregion, hid, hvalid, -, hkind, hread⟩ :=
    Surface.surfaceFlush_flushed (World.result_client hflush).1 ht
  obtain ⟨boxes, rfl, hboxes⟩ :=
    Surface.flushed_boxes (hinv.2 i) hid hregion hkind hread.symm
  exact Surface.transfer_inside (hinv.2 i) hid hgrown
    (hinv.1.backing_end (hinv.2 i) hvalid hgrown) hboxes

/-- A window is drawn. -/
def drawnSession : List Action := windowSession 0 ++ [drawLock, .client 0 .writeUnlock]

/-- The flush of a window reads its block of VRAM. -/
theorem flush_reads_backing_session : ∃ w w' o t,
    Run World.step World.SetsFitting smallWorld drawnSession w ∧ w.SetsFitting drawFlush ∧
      w.result drawFlush = .ok w' .success (some o) ∧ o.flushed = some (.dma t) ∧
      t.ReadsInside (w.surfaces 0).backing := by
  have heval : ((drawnSession.foldlM (guarded World.step World.SetsFitting) smallWorld).bind
      fun w => (w.result drawFlush).success.map fun r =>
        (decide (w.SetsFitting drawFlush), r.2.flushed)) =
      some (true, some (.dma ⟨gmrVram, 0, 64, 4, [⟨0, 0, 16, 16⟩]⟩)) := by
    decide +kernel
  obtain ⟨w, hfold, heval⟩ := Option.bind_eq_some_iff.mp heval
  obtain ⟨⟨w', o⟩, hsuccess, heval⟩ := Option.map_eq_some_iff.mp heval
  simp only [Prod.mk.injEq, decide_eq_true_eq] at heval
  obtain ⟨hact, ht⟩ := heval
  have hflush := Result.success_eq hsuccess
  have hrun := run_of_guarded hfold
  exact ⟨w, w', o, _, hrun, hact, hflush, ht,
    flush_reads_backing smallAccel_setup hrun hact hflush ht⟩

/-- A window whose buffer starts four pixels to the left of its source. -/
def leftSession : List Action :=
  lockSession.take 2 ++ [.client 0 (.setShape { windowShape 0 with options := 0 }),
    .client 0 (.setScale (some (⟨-4, 0, 16, 16⟩, 16, 16))), drawLock, .client 0 .writeUnlock]

/-- The flush reads at the end of the 4 GiB of the region, and the backing is its first page. -/
theorem flush_reads_outside : ∃ w w' o t,
    Run World.step Always smallWorld leftSession w ∧
      w.result drawFlush = .ok w' .success (some o) ∧ o.flushed = some (.dma t) ∧
      t = ⟨gmrVram, 2 ^ 32 - 16, 64, 4, [⟨0, 0, 16, 16⟩]⟩ ∧
      (w.surfaces 0).backing.offset = 0 ∧ (w.surfaces 0).backing.size = 4096 ∧
      ¬ t.ReadsInside (w.surfaces 0).backing := by
  have heval : ((leftSession.foldlM World.step smallWorld).bind fun w =>
      (w.result drawFlush).success.map fun r =>
        (r.2.flushed, (w.surfaces 0).backing.offset, (w.surfaces 0).backing.size)) =
      some (some (.dma ⟨gmrVram, 2 ^ 32 - 16, 64, 4, [⟨0, 0, 16, 16⟩]⟩), 0, 4096) := by
    decide +kernel
  obtain ⟨w, hfold, heval⟩ := Option.bind_eq_some_iff.mp heval
  obtain ⟨⟨w', o⟩, hsuccess, heval⟩ := Option.map_eq_some_iff.mp heval
  simp only [Prod.mk.injEq] at heval
  obtain ⟨ht, hoffset, hsize⟩ := heval
  refine ⟨w, w', o, _, run_of_foldlM hfold, Result.success_eq hsuccess, ht, rfl, hoffset, hsize,
    fun hinside => ?_⟩
  -- the first pixel of the only box
  obtain ⟨-, hend⟩ := hinside.bytes _ (List.mem_singleton_self _) 0 0 le_rfl (by decide) le_rfl
    (by decide)
  rw [hoffset, hsize] at hend
  exact absurd hend (by decide)

end DockerMacos
