import DockerMacos.RegionClip
import DockerMacos.SoftwareBlit
import DockerMacos.FlushedMemory

/-!
# Copies Between Surfaces

`copy_surface_region_to_self` (`AC/UC/VMsvga2Surface.cpp`) copies a region of a surface to
another place of a surface, with the software blit. The region is the caller's: the clipping
rewrites its rectangles in place, and a region without rectangles is given its bounds as the
one rectangle.

## Main definitions

* `Surface.copySurfaceRegionToSelf`: what the call accesses of the region and what it copies.
* `SpanFits`: when a span of bytes consists of pixels of a rectangle.
* `Surface.CopyInside`: the region and the place that it is copied to lie inside.

## Main results

* `copySurface_of_copySurfaceRegionToSelf`: the call as the system of surfaces has it.
* `copySurfaceRegionToSelf_within_iff`: when the call stays in the region and in the buffer, row
  by row.
* `copySurfaceRegionToSelf_within`: arguments for which it does.
-/

namespace DockerMacos

/-- A mapping into the kernel's address space. -/
structure KernelMapping where
  address : UInt64
  length : UInt64

/-- `obtainKernelPtrs`: the base and the limit from it, where `kernelMap` is the mapping that
`createMappingInTask` gives. -/
def Surface.obtainKernelPtrs (s : Surface) (kernelMap : Option KernelMapping) :
    Except IOReturn (UInt64 × UInt64) :=
  if s.backing.vtb.md.isSome then
    match kernelMap with
    | none => .error .error
    | some m =>
      let t := UInt64.ofNat (s.backing.offset + s.scale.byteOffset)
      .ok (m.address + t, m.length - t)
  else if s.backing.self ≠ 0 then
    let t := UInt64.ofNat s.scale.byteOffset
    .ok (UInt64.ofNat s.backing.self + t, UInt64.ofNat s.backing.size - t)
  else .error .notReady

/-- An access to the region structure. -/
structure RegionAccess where
  offset : ℕ
  length : ℕ
  deriving DecidableEq

namespace RegionAccess

/-- `num_rects`. -/
def numRects : RegionAccess := ⟨0, 4⟩

/-- `bounds`. -/
def bounds : RegionAccess := ⟨4, 8⟩

/-- `rect[i]`. -/
def rect (i : ℕ) : RegionAccess := ⟨12 + 8 * i, 8⟩

/-- A loop over the first `n` rectangles. -/
def loop (n : ℕ) : List RegionAccess := numRects :: (List.range n).map rect

end RegionAccess

/-- The source of a copy: the surface itself, or another one with the mapping of it. -/
inductive CopySource
  | self
  | other (surface : Surface) (kernelMap : Option KernelMapping)

/-- The source of a copy to `s`. -/
def CopySource.surface (s : Surface) : CopySource → Surface
  | .self => s
  | .other source _ => source

/-- The mapping of the source; a memory descriptor is mapped once in a task. -/
def CopySource.kernelMap (own : Option KernelMapping) : CopySource → Option KernelMapping
  | .self => own
  | .other _ kernelMap => kernelMap

/-- A call of `copy_surface_region_to_self`: what it returns, the surface and the region it
leaves, its accesses to the region and, for every rectangle, what the rows of it have copied. -/
structure RegionCopy where
  ret : IOReturn
  surface : Surface
  region : IOAccelDeviceRegion
  accesses : List RegionAccess
  copies : List (List (Option Memcpy))

namespace Surface

/-- The displacement of a copy to `(destX, destY)`. -/
def copyDelta (region : IOAccelDeviceRegion) (destX destY : Int32) : BlitDelta :=
  ⟨destX - region.bounds.x.toInt32, destY - region.bounds.y.toInt32⟩

/-- The rectangles of a region after the clipping to a copy's destination. -/
def clippedRects (s : Surface) (region : IOAccelDeviceRegion) (delta : BlitDelta) :
    List IOAccelBounds :=
  regionRects (clipRegionToBuffer s.scale.buffer (some region) delta.x delta.y)

/-- The rectangles that the blit is given: the bounds, if there are none. -/
def blitRects (s : Surface) (region : IOAccelDeviceRegion) (delta : BlitDelta) :
    List IOAccelBounds :=
  match s.clippedRects region delta with
  | [] => [region.bounds]
  | rects => rects

/-- One side of the blit between two surfaces. -/
def blitSide (s : Surface) (ptrs : UInt64 × UInt64) (delta : BlitDelta) : BlitSide :=
  ⟨ptrs.1, ⟨ptrs.2.toUInt32, UInt32.ofNat s.scale.rowBytes⟩, delta⟩

/-- `static_cast<uint8_t>(m_bytes_per_pixel)`. -/
def blitBytes (s : Surface) : UInt8 := UInt8.ofNat s.bytesPerPixel

/-- The part of `copy_surface_region_to_self` behind `allocBacking`. -/
def copyRegionBlit (s source : Surface) (region : IOAccelDeviceRegion) (destX destY : Int32)
    (kernelMap sourceMap : Option KernelMapping) : RegionCopy :=
  let delta := copyDelta region destX destY
  let clipped := s.clippedRects region delta
  let accesses := RegionAccess.numRects :: RegionAccess.bounds ::
    RegionAccess.loop region.rect.length
  match s.obtainKernelPtrs kernelMap, source.obtainKernelPtrs sourceMap with
  | .error e, _ => ⟨e, s, ⟨region.bounds, clipped⟩, accesses, []⟩
  | .ok _, .error e => ⟨e, s, ⟨region.bounds, clipped⟩, accesses, []⟩
  | .ok dst, .ok src =>
    let rects := s.blitRects region delta
    let filled := if clipped = [] then
      [.numRects, .bounds, .rect 0, .numRects] else [RegionAccess.numRects]
    let copied := blit (s.blitSide dst delta) (source.blitSide src ⟨0, 0⟩)
      (some ⟨region.bounds, rects⟩) s.blitBytes
    ⟨copied.1, s, ⟨region.bounds, rects⟩, accesses ++ filled ++ RegionAccess.loop rects.length,
      copied.2⟩

/-- `copy_surface_region_to_self`: the checks and the backing as in `copySurface`, then the
copy. -/
def copySurfaceRegionToSelf (s : Surface) (a : Accel) (source : CopySource)
    (region : IOAccelDeviceRegion) (regionSize : ℕ) (env : BackingEnv) (destX destY : Int32)
    (kernelMap : Option KernelMapping) : Option RegionCopy :=
  match s.copySurface a (source.surface s) (some region) regionSize env .success with
  | none => none
  | some o =>
    if o.ret = .success then
      some (o.surface.copyRegionBlit (source.surface o.surface) region destX destY kernelMap
        (source.kernelMap kernelMap))
    else
      some ⟨o.ret, o.surface, region, [.numRects], []⟩

end Surface

section Call

variable {s : Surface} {a : Accel} {source : CopySource} {region : IOAccelDeviceRegion}
  {regionSize : ℕ} {env : BackingEnv} {destX destY : Int32} {kernelMap : Option KernelMapping}

/-- What the call returns and leaves is what `copySurface` says for a blit that returns it. -/
theorem copySurface_of_copySurfaceRegionToSelf {call : RegionCopy}
    (h : s.copySurfaceRegionToSelf a source region regionSize env destX destY kernelMap =
      some call) :
    ∃ o, s.copySurface a (source.surface s) (some region) regionSize env call.ret = some o ∧
      o.ret = call.ret ∧ o.surface = call.surface := by
  have hblit : ∀ t : Surface, (t.copyRegionBlit (source.surface t) region destX destY kernelMap
      (source.kernelMap kernelMap)).surface = t := by
    intro t
    rw [Surface.copyRegionBlit]
    split <;> rfl
  rw [Surface.copySurfaceRegionToSelf, Surface.copySurface] at h
  rw [Surface.copySurface]
  split_ifs at h ⊢ with hsize hready hsource hformat
  -- the checks that turn the call away
  iterate 4
    · simp only [reduceCtorEq, if_false, Option.some.injEq] at h
      subst h
      exact ⟨_, rfl, rfl, rfl⟩
  · cases halloc : s.allocBacking a env with
    | none => simp [halloc] at h
    | some r =>
      obtain ⟨ok, b, t⟩ := r
      cases ok with
      | false =>
        simp only [halloc, reduceCtorEq, if_false, Option.some.injEq] at h
        subst h
        exact ⟨_, rfl, rfl, rfl⟩
      | true =>
        simp only [halloc, if_true, Option.some.injEq] at h
        subst h
        exact ⟨_, rfl, rfl, (hblit t).symm⟩

end Call

/-! ### Spans of pixels -/

/-- The span of `len` bytes at `o` belongs to `height` rows of `width` bytes, `pitch` apart:
to one of them, or to all of them where they leave no gap. -/
def SpanFits (o len pitch width height : ℕ) : Prop :=
  if width < pitch then
    o / pitch < height ∧ o % pitch + len ≤ width
  else
    0 < height ∧ o + len ≤ (height - 1) * pitch + width

/-- A span fits exactly when each of its bytes is in a row of the buffer. -/
theorem spanFits_iff {o len pitch width height : ℕ} (hlen : 0 < len) :
    SpanFits o len pitch width height ↔
      ∀ k < len, ∃ y < height, ∃ x < width, o + k = y * pitch + x := by
  rw [SpanFits]
  split
  · next hgap =>
    have hdiv := Nat.div_add_mod' o pitch
    constructor
    · rintro ⟨hy, hx⟩ k hk
      exact ⟨o / pitch, hy, o % pitch + k, by omega, by omega⟩
    · intro hall
      -- The first byte gives the row; the byte behind the row's last would leave it.
      have hrow : ∀ k < len, ∃ y < height, y = (o + k) / pitch ∧ (o + k) % pitch < width := by
        intro k hk
        obtain ⟨y, hy, x, hx, heq⟩ := hall k hk
        have hmod : (o + k) % pitch = x := by
          rw [heq, Nat.mul_add_mod', Nat.mod_eq_of_lt (by omega)]
        refine ⟨y, hy, ?_, hmod ▸ hx⟩
        rw [heq, Nat.mul_comm, Nat.mul_add_div (by omega), Nat.div_eq_of_lt (by omega), add_zero]
      obtain ⟨y, hy, hydiv, hx⟩ := hrow 0 hlen
      rw [add_zero] at hydiv hx
      refine ⟨hydiv ▸ hy, ?_⟩
      by_contra hlong
      obtain ⟨-, -, -, hmod⟩ := hrow (width - o % pitch) (by omega)
      have hshift : o + (width - o % pitch) = o / pitch * pitch + width := by omega
      rw [hshift, Nat.mul_add_mod', Nat.mod_eq_of_lt hgap] at hmod
      exact lt_irrefl _ hmod
  · constructor
    · rintro ⟨hh, hend⟩ k hk
      by_cases hy : (o + k) / pitch < height
      · rcases Nat.eq_zero_or_pos pitch with rfl | hpos
        · exact ⟨0, hh, o + k, by omega, by omega⟩
        · have hdiv := Nat.div_add_mod' (o + k) pitch
          have hmod := Nat.mod_lt (o + k) hpos
          exact ⟨_, hy, (o + k) % pitch, by omega, hdiv.symm⟩
      · have hle : (height - 1) * pitch ≤ o + k :=
          (Nat.mul_le_mul_right pitch (by omega)).trans (Nat.div_mul_le_self (o + k) pitch)
        exact ⟨height - 1, by omega, o + k - (height - 1) * pitch, by omega, by omega⟩
    · intro hall
      obtain ⟨y, hy, x, hx, heq⟩ := hall (len - 1) (by omega)
      have hle : y * pitch ≤ (height - 1) * pitch := Nat.mul_le_mul_right pitch (by omega)
      exact ⟨by omega, by omega⟩

/-! ### The rows in the buffer -/

namespace Surface

/-- The bytes in a row of the buffer. -/
def bufferWidth (s : Surface) : ℕ := s.scale.buffer.w.toInt.toNat * s.blitBytes.toNat

/-- The rows of the buffer. -/
def bufferHeight (s : Surface) : ℕ := s.scale.buffer.h.toInt.toNat

/-- The byte belongs to a pixel of the buffer whose first pixel is at `base`. -/
def BufferByte (s : Surface) (base addr : UInt64) : Prop :=
  ∃ y < s.bufferHeight, ∃ x < s.bufferWidth,
    addr = base + UInt64.ofNat (y * (UInt32.ofNat s.scale.rowBytes).toNat + x)

end Surface

/-- The offset from the base at which the code copies row `j` of a rectangle. -/
def BlitSide.rowStart (s : BlitSide) (rect : IOAccelBounds) (bytesPerPixel : UInt8) (j : ℕ) : ℤ :=
  s.codeOffset rect bytesPerPixel + j * s.image.pitch.toNat

/-- The limit tests let the row loop copy row `j` of a rectangle. -/
def RowCopied (dst src : BlitSide) (rect : IOAccelBounds) (bytesPerPixel : UInt8) (j : ℕ) : Prop :=
  dst.base ≠ 0 ∧ src.base ≠ 0 ∧ 0 < rect.w.toInt ∧ (j : ℤ) < rect.h.toInt ∧
    ∀ i ≤ j,
      dst.Admits (dst.base.toNat + dst.rowStart rect bytesPerPixel i)
        (rowLength rect bytesPerPixel) ∧
      src.Admits (src.base.toNat + src.rowStart rect bytesPerPixel i)
        (rowLength rect bytesPerPixel)

/-- Row `j` of a rectangle begins and ends in the rows of a buffer. -/
def RowFits (dst : BlitSide) (rect : IOAccelBounds) (bytesPerPixel : UInt8) (width height j : ℕ) :
    Prop :=
  rowLength rect bytesPerPixel = 0 ∨
    (0 ≤ dst.rowStart rect bytesPerPixel j ∧
      SpanFits (dst.rowStart rect bytesPerPixel j).toNat (rowLength rect bytesPerPixel)
        dst.image.pitch.toNat width height)

/-- The copy that the row loop makes of row `j`. -/
def rowMemcpy (dst src : BlitSide) (rect : IOAccelBounds) (bytesPerPixel : UInt8) (j : ℕ) :
    Memcpy :=
  ⟨dst.advance (dst.start rect bytesPerPixel) j, src.advance (src.start rect bytesPerPixel) j,
    rect.w.toInt64.toUInt64 * bytesPerPixel.toUInt64⟩

/-- A blit copies the rows that the limit tests let through, and nothing else. -/
theorem mem_blit_iff {dst src : BlitSide} {region : Option IOAccelDeviceRegion}
    {bytesPerPixel : UInt8} {c : Memcpy} :
    some c ∈ (blit dst src region bytesPerPixel).2.flatten ↔
      ∃ rect ∈ regionRects region, ∃ j, RowCopied dst src rect bytesPerPixel j ∧
        c = rowMemcpy dst src rect bytesPerPixel j := by
  rw [mem_blit]
  constructor
  · rintro ⟨hd, hs, rect, hmem, hw, j, hj, hrow⟩
    obtain ⟨hc, hadm⟩ := (blitRect_getElem? hw hj c).mp hrow
    refine ⟨rect, hmem, j, ⟨hd, hs, hw, hj, fun i hi => ?_⟩, hc⟩
    simpa only [BlitSide.rowStart, add_assoc] using hadm i hi
  · rintro ⟨rect, hmem, j, ⟨hd, hs, hw, hj, hadm⟩, hc⟩
    refine ⟨hd, hs, rect, hmem, hw, j, hj, (blitRect_getElem? hw hj c).mpr ⟨hc, fun i hi => ?_⟩⟩
    simpa only [BlitSide.rowStart, add_assoc] using hadm i hi

/-- The rows start within `2 ^ 48` of the base. -/
theorem rowStart_bounds (s : BlitSide) {rect : IOAccelBounds} (bytesPerPixel : UInt8) {j : ℕ}
    (hj : (j : ℤ) < rect.h.toInt) :
    -2 ^ 31 ≤ s.rowStart rect bytesPerPixel j ∧ s.rowStart rect bytesPerPixel j < 2 ^ 48 := by
  have hcode := s.codeOffset_bounds rect bytesPerPixel
  have hpitch := s.pitch_lt hj
  have hpos : (0 : ℤ) ≤ j * s.image.pitch.toNat :=
    Int.mul_nonneg (Int.natCast_nonneg j) (Int.natCast_nonneg _)
  rw [BlitSide.rowStart]
  omega

/-- Where the bytes of a row are written. -/
theorem rowMemcpy_dst_add (dst src : BlitSide) (rect : IOAccelBounds) (bytesPerPixel : UInt8)
    (j k : ℕ) :
    (((rowMemcpy dst src rect bytesPerPixel j).dst + UInt64.ofNat k).toNat : ℤ) =
      (dst.base.toNat + (dst.rowStart rect bytesPerPixel j + k)) % 2 ^ 64 := by
  have hadd := dst.advance_start_toNat rect bytesPerPixel j
  rw [rowMemcpy, UInt64.toNat_add, UInt64.toNat_ofNat', BlitSide.rowStart]
  push_cast
  rw [hadd]
  omega

/-- A byte at an offset from the base. -/
theorem bufferByte_iff {s : Surface} {base addr : UInt64} {z : ℤ}
    (haddr : (addr.toNat : ℤ) = (base.toNat + z) % 2 ^ 64) (hlow : -2 ^ 33 ≤ z)
    (hhigh : z < 2 ^ 63) :
    s.BufferByte base addr ↔ ∃ y < s.bufferHeight, ∃ x < s.bufferWidth,
      z = (y * (UInt32.ofNat s.scale.rowBytes).toNat + x : ℕ) := by
  refine exists_congr fun y => and_congr_right fun hy => exists_congr fun x =>
    and_congr_right fun hx => ?_
  have hheight : s.bufferHeight < 2 ^ 15 := by
    have := s.scale.buffer.h.toInt_lt
    rw [Surface.bufferHeight]
    omega
  have hwidth : s.bufferWidth < 2 ^ 23 := by
    have hw := s.scale.buffer.w.toInt_lt
    have hb := s.blitBytes.toNat_lt
    calc s.bufferWidth ≤ s.scale.buffer.w.toInt.toNat * 2 ^ 8 := Nat.mul_le_mul_left _ hb.le
      _ < 2 ^ 23 := by omega
  have hplace : y * (UInt32.ofNat s.scale.rowBytes).toNat < 2 ^ 47 :=
    calc y * (UInt32.ofNat s.scale.rowBytes).toNat ≤ y * 2 ^ 32 :=
          Nat.mul_le_mul_left _ (UInt32.toNat_lt _).le
      _ < 2 ^ 47 := by omega
  have hbase := base.toNat_lt
  rw [← UInt64.toNat_inj, UInt64.toNat_add, UInt64.toNat_ofNat']
  omega

/-- Every byte of a copied row is one of the buffer exactly when the row fits into it. -/
theorem rowMemcpy_inBuffer_iff {s : Surface} {dst src : BlitSide} {rect : IOAccelBounds} {j : ℕ}
    (hpitch : dst.image.pitch = UInt32.ofNat s.scale.rowBytes)
    (hcopied : RowCopied dst src rect s.blitBytes j) :
    (∀ k < (rowMemcpy dst src rect s.blitBytes j).len.toNat,
        s.BufferByte dst.base ((rowMemcpy dst src rect s.blitBytes j).dst + UInt64.ofNat k)) ↔
      RowFits dst rect s.blitBytes s.bufferWidth s.bufferHeight j := by
  obtain ⟨-, -, hw, hj, -⟩ := hcopied
  have hbounds := rowStart_bounds dst s.blitBytes hj
  have hlen := rowLength_lt rect s.blitBytes
  have hbyte : ∀ k < rowLength rect s.blitBytes,
      (s.BufferByte dst.base ((rowMemcpy dst src rect s.blitBytes j).dst + UInt64.ofNat k) ↔
        ∃ y < s.bufferHeight, ∃ x < s.bufferWidth,
          dst.rowStart rect s.blitBytes j + k = (y * dst.image.pitch.toNat + x : ℕ)) := by
    intro k hk
    rw [hpitch]
    exact bufferByte_iff (rowMemcpy_dst_add dst src rect s.blitBytes j k) (by omega) (by omega)
  rw [show (rowMemcpy dst src rect s.blitBytes j).len.toNat = rowLength rect s.blitBytes from
    rowLength_toNat hw s.blitBytes, forall₂_congr hbyte, RowFits]
  rcases Nat.eq_zero_or_pos (rowLength rect s.blitBytes) with hzero | hpos
  · simp [hzero]
  · rw [spanFits_iff hpos]
    constructor
    · intro hall
      obtain ⟨y, -, x, -, heq⟩ := hall 0 hpos
      refine .inr ⟨by omega, fun k hk => ?_⟩
      obtain ⟨y, hy, x, hx, heq⟩ := hall k hk
      exact ⟨y, hy, x, hx, by omega⟩
    · rintro (hzero | ⟨hnonneg, hall⟩) k hk
      · omega
      · obtain ⟨y, hy, x, hx, heq⟩ := hall k hk
        exact ⟨y, hy, x, hx, by omega⟩

/-- The offset of a rectangle whose first pixel lies in a buffer is exact if and only if its
first row begins less than 4 GiB behind the first row of the buffer. -/
theorem BlitSide.exact_iff_below {s : BlitSide} {rect : IOAccelBounds} {bytesPerPixel : UInt8}
    (hleft : 0 ≤ rect.x.toInt + s.delta.x.toInt)
    (hright : rect.x.toInt + s.delta.x.toInt < 2 ^ 15)
    (htop : 0 ≤ rect.y.toInt + s.delta.y.toInt)
    (hbottom : rect.y.toInt + s.delta.y.toInt < 2 ^ 15) :
    s.Exact rect bytesPerPixel ↔
      (rect.y.toInt + s.delta.y.toInt) * s.image.pitch.toNat < 2 ^ 32 := by
  obtain ⟨x, hx⟩ := Int.eq_ofNat_of_zero_le hleft
  obtain ⟨y, hy⟩ := Int.eq_ofNat_of_zero_le htop
  have hbytes := bytesPerPixel.toNat_lt
  have hbyte : x * bytesPerPixel.toNat < 2 ^ 23 :=
    calc x * bytesPerPixel.toNat ≤ x * 2 ^ 8 := Nat.mul_le_mul_left x hbytes.le
      _ < 2 ^ 23 := by omega
  have hcolumn : (s.columnOffset rect bytesPerPixel).toInt = (x * bytesPerPixel.toNat : ℕ) := by
    have hsum : (rect.x.toInt32 + s.delta.x).toInt = x := by
      rw [Int32.toInt_add, Int16.toInt_toInt32, hx]
      exact Int.bmod_eq_of_le_mul_two (by norm_num; omega) (by norm_num; omega)
    have hdepth : (Int32.ofNat bytesPerPixel.toNat).toInt = bytesPerPixel.toNat := by
      exact Int32.toInt_ofNat_of_lt (by omega)
    rw [BlitSide.columnOffset, Int32.toInt_mul, hsum, hdepth]
    push_cast
    exact Int.bmod_eq_of_le_mul_two (by norm_num; omega) (by norm_num; omega)
  have hrow : (s.rowOffset rect).toNat = y * s.image.pitch.toNat % 2 ^ 32 := by
    have hsum : (rect.y.toInt32 + s.delta.y).toUInt32.toNat = y := by
      have hadd : (rect.y.toInt32 + s.delta.y).toInt = y := by
        rw [Int32.toInt_add, Int16.toInt_toInt32, hy]
        exact Int.bmod_eq_of_le_mul_two (by norm_num; omega) (by norm_num; omega)
      have hlt := (rect.y.toInt32 + s.delta.y).toBitVec.isLt
      change (rect.y.toInt32 + s.delta.y).toBitVec.toNat = y
      rw [← Int32.toInt_toBitVec, BitVec.toInt_eq_toNat_cond] at hadd
      split_ifs at hadd <;> omega
    rw [BlitSide.rowOffset, UInt32.toNat_mul, hsum]
  rw [BlitSide.Exact, BlitSide.codeOffset, BlitSide.trueOffset, hx, hy, hcolumn, hrow]
  norm_cast
  rw [Nat.add_right_cancel_iff, Nat.mod_eq_iff_lt (by norm_num)]
/-- The rows of a displaced rectangle in the buffer fit, where the offset of the code is exact. -/
theorem rowFits_of_inside {s : Surface} {dst : BlitSide} {rect : IOAccelBounds} {j : ℕ}
    (hexact : dst.Exact rect s.blitBytes) (hleft : 0 ≤ rect.x.toInt + dst.delta.x.toInt)
    (hright : rect.x.toInt + dst.delta.x.toInt + rect.w.toInt ≤ s.scale.buffer.w.toInt)
    (htop : 0 ≤ rect.y.toInt + dst.delta.y.toInt) (hw : 0 < rect.w.toInt)
    (hbottom : rect.y.toInt + dst.delta.y.toInt + j < s.scale.buffer.h.toInt) :
    RowFits dst rect s.blitBytes s.bufferWidth s.bufferHeight j := by
  obtain ⟨x, hx⟩ := Int.eq_ofNat_of_zero_le hleft
  obtain ⟨y, hy⟩ := Int.eq_ofNat_of_zero_le htop
  have hstart : dst.rowStart rect s.blitBytes j =
      ((y + j) * dst.image.pitch.toNat + x * s.blitBytes.toNat : ℕ) := by
    rw [BlitSide.rowStart, hexact, BlitSide.trueOffset, hx, hy]
    push_cast
    ring
  have hwidth : x * s.blitBytes.toNat + rowLength rect s.blitBytes ≤ s.bufferWidth := by
    rw [rowLength, Surface.bufferWidth, ← add_mul]
    exact Nat.mul_le_mul_right _ (by omega)
  have hheight : y + j < s.bufferHeight := by
    rw [Surface.bufferHeight]
    omega
  rcases Nat.eq_zero_or_pos (rowLength rect s.blitBytes) with hzero | hpos
  · exact .inl hzero
  refine .inr ⟨by omega, (spanFits_iff hpos).mpr fun k hk => ?_⟩
  exact ⟨y + j, hheight, x * s.blitBytes.toNat + k, by omega, by omega⟩

/-- What of a displaced rectangle lies in the buffer begins with a row that is less than 4 GiB
behind the first row of the buffer. -/
def Surface.StartsBelow (s : Surface) (rect : IOAccelBounds) (delta : BlitDelta) : Prop :=
  (rect.pixels delta.x delta.y ∩ bufferPixels s.scale.buffer).Nonempty →
    max 0 (rect.y.toInt + delta.y.toInt) * (UInt32.ofNat s.scale.rowBytes).toNat < 2 ^ 32

/-- The rows of a rectangle whose displaced pixels are those of `r` in the buffer fit. -/
theorem rowFits_of_pixels {s : Surface} {dst : BlitSide} {r c : IOAccelBounds} {j : ℕ}
    (hpitch : dst.image.pitch = UInt32.ofNat s.scale.rowBytes)
    (hpixels : ClipsTo s.scale.buffer dst.delta.x dst.delta.y r c)
    (hbelow : s.StartsBelow r dst.delta) (hw : 0 < c.w.toInt) (hj : (j : ℤ) < c.h.toInt) :
    RowFits dst c s.blitBytes s.bufferWidth s.bufferHeight j := by
  rw [ClipsTo] at hpixels
  have hpixel : ∀ x y : ℤ, (x, y) ∈ c.pixels dst.delta.x dst.delta.y ↔
      (c.x.toInt + dst.delta.x.toInt ≤ x ∧ x < c.x.toInt + dst.delta.x.toInt + c.w.toInt) ∧
        c.y.toInt + dst.delta.y.toInt ≤ y ∧ y < c.y.toInt + dst.delta.y.toInt + c.h.toInt :=
    fun _ _ => .rfl
  have hshared : ∀ x y : ℤ,
      (x, y) ∈ r.pixels dst.delta.x dst.delta.y ∩ bufferPixels s.scale.buffer ↔
        ((r.x.toInt + dst.delta.x.toInt ≤ x ∧ x < r.x.toInt + dst.delta.x.toInt + r.w.toInt) ∧
          r.y.toInt + dst.delta.y.toInt ≤ y ∧ y < r.y.toInt + dst.delta.y.toInt + r.h.toInt) ∧
        (0 ≤ x ∧ x < s.scale.buffer.w.toInt) ∧ 0 ≤ y ∧ y < s.scale.buffer.h.toInt :=
    fun _ _ => .rfl
  rw [← hpixels] at hshared
  -- The first pixel of the rectangle, the last of its row `j`, and the first that `r` allows.
  have hfirst := (hshared (c.x.toInt + dst.delta.x.toInt) (c.y.toInt + dst.delta.y.toInt)).mp
    ((hpixel _ _).mpr (by omega))
  have hlast := (hshared (c.x.toInt + dst.delta.x.toInt + (c.w.toInt - 1))
    (c.y.toInt + dst.delta.y.toInt + j)).mp ((hpixel _ _).mpr (by omega))
  have hstart := (hpixel _ _).mp ((hshared (c.x.toInt + dst.delta.x.toInt)
    (max 0 (r.y.toInt + dst.delta.y.toInt))).mpr (by omega))
  have hrow : c.y.toInt + dst.delta.y.toInt = max 0 (r.y.toInt + dst.delta.y.toInt) := by omega
  have hsize := hbelow ⟨_, hpixels ▸ (hpixel (c.x.toInt + dst.delta.x.toInt)
    (c.y.toInt + dst.delta.y.toInt)).mpr (by omega)⟩
  have hwidth := s.scale.buffer.w.toInt_lt
  have hheight := s.scale.buffer.h.toInt_lt
  rw [← hrow, ← hpitch] at hsize
  exact rowFits_of_inside ((BlitSide.exact_iff_below (by omega) (by omega) (by omega)
    (by omega)).mpr hsize) (by omega) (by omega) (by omega) hw (by omega)

/-! ### The call -/

/-- The call writes only pixels of the buffer, and accesses of the region only the `regionSize`
bytes that it was given. -/
structure RegionCopy.Within (call : RegionCopy) (kernelMap : Option KernelMapping)
    (regionSize : ℕ) : Prop where
  writes : ∀ base limit, call.surface.obtainKernelPtrs kernelMap = .ok (base, limit) →
    ∀ c, some c ∈ call.copies.flatten → ∀ k < c.len.toNat,
      call.surface.BufferByte base (c.dst + UInt64.ofNat k)
  accesses : ∀ access ∈ call.accesses, access.offset + access.length ≤ regionSize

/-- The arguments of a copy that stays in the region and in the buffer: a region without
rectangles has room for one, and its displaced bounds lie in the buffer; the rectangles that
there are clip exactly; and no row begins 4 GiB or more behind the first row of the buffer. -/
structure Surface.CopyInside (s : Surface) (region : IOAccelDeviceRegion) (regionSize : ℕ)
    (delta : BlitDelta) : Prop where
  room : region.rect = [] → 20 ≤ regionSize
  bounds : region.rect = [] →
    region.bounds.pixels delta.x delta.y ⊆ bufferPixels s.scale.buffer ∧
      s.StartsBelow region.bounds delta
  rects : ∀ rect ∈ region.rect,
    rect.ClipsExactly delta.x delta.y s.scale.buffer ∧ s.StartsBelow rect delta

/-- A copy that gets as far as the blit, row by row: a region without rectangles has room for
one, and every row that the limit tests let through fits into the rows of the buffer. -/
def Surface.CopyFits (s source : Surface) (region : IOAccelDeviceRegion) (regionSize : ℕ)
    (destX destY : Int32) (kernelMap sourceMap : Option KernelMapping) : Prop :=
  ∀ dst src, s.obtainKernelPtrs kernelMap = .ok dst → source.obtainKernelPtrs sourceMap = .ok src →
    (region.rect = [] → 20 ≤ regionSize) ∧
      ∀ rect ∈ s.blitRects region (copyDelta region destX destY), ∀ j,
        RowCopied (s.blitSide dst (copyDelta region destX destY)) (source.blitSide src ⟨0, 0⟩) rect
          s.blitBytes j →
        RowFits (s.blitSide dst (copyDelta region destX destY)) rect s.blitBytes s.bufferWidth
          s.bufferHeight j

section Blit

variable {s source : Surface} {region : IOAccelDeviceRegion} {regionSize : ℕ}
  {destX destY : Int32} {kernelMap sourceMap : Option KernelMapping}

/-- The loops over the rectangles there are stay in the region. -/
theorem loop_within {n : ℕ} (h : 12 + 8 * n ≤ regionSize) :
    ∀ access ∈ RegionAccess.loop n, access.offset + access.length ≤ regionSize := by
  intro access hmem
  rw [RegionAccess.loop, List.mem_cons, List.mem_map] at hmem
  rcases hmem with rfl | ⟨i, hi, rfl⟩
  · simp only [RegionAccess.numRects]
    omega
  · rw [List.mem_range] at hi
    simp only [RegionAccess.rect]
    omega

/-- The clipping keeps all rectangles, some of them empty. -/
theorem clippedRects_length (s : Surface) (region : IOAccelDeviceRegion) (delta : BlitDelta) :
    (s.clippedRects region delta).length = region.rect.length :=
  List.length_map _

/-- So there are none only where there were none. -/
theorem clippedRects_eq_nil_iff (s : Surface) (region : IOAccelDeviceRegion) (delta : BlitDelta) :
    s.clippedRects region delta = [] ↔ region.rect = [] := by
  rw [← List.length_eq_zero_iff, clippedRects_length, List.length_eq_zero_iff]

/-- The accesses of a call that gets as far as the blit. -/
theorem blitAccesses_within (hsize : region.size ≤ regionSize) (delta : BlitDelta) :
    (∀ access ∈ RegionAccess.numRects :: RegionAccess.bounds ::
        RegionAccess.loop region.rect.length ++
        (if s.clippedRects region delta = [] then
          [.numRects, .bounds, .rect 0, .numRects] else [RegionAccess.numRects]) ++
        RegionAccess.loop (s.blitRects region delta).length,
      access.offset + access.length ≤ regionSize) ↔ (region.rect = [] → 20 ≤ regionSize) := by
  rw [IOAccelDeviceRegion.size] at hsize
  constructor
  · intro h hempty
    have hrect := h (.rect 0) (by
      simp [(clippedRects_eq_nil_iff s region delta).mpr hempty])
    simpa [RegionAccess.rect] using hrect
  · intro h access hmem
    have hloop := loop_within hsize
    simp only [List.mem_append, List.mem_cons] at hmem
    rcases hmem with ((rfl | rfl | hmem) | hmem) | hmem
    · exact hloop _ List.mem_cons_self
    · simp only [RegionAccess.bounds]
      omega
    · exact hloop access hmem
    · split_ifs at hmem with hnil
      · have hroom := h ((clippedRects_eq_nil_iff s region delta).mp hnil)
        simp only [List.mem_cons, List.not_mem_nil, or_false] at hmem
        rcases hmem with rfl | rfl | rfl | rfl <;>
          simp only [RegionAccess.numRects, RegionAccess.bounds, RegionAccess.rect] <;> omega
      · rw [List.mem_singleton] at hmem
        subst hmem
        exact hloop _ List.mem_cons_self
    · refine loop_within ?_ access hmem
      have hlength := clippedRects_length s region delta
      rw [Surface.blitRects]
      split
      · next hnil =>
        exact h ((clippedRects_eq_nil_iff s region delta).mp hnil)
      · rw [hlength]
        exact hsize

/-- Of the surface, only the geometry matters. -/
theorem Surface.CopyInside.of_scale {t : Surface} {delta : BlitDelta}
    (h : s.CopyInside region regionSize delta) (hscale : t.scale = s.scale) :
    t.CopyInside region regionSize delta := by
  have hstarts : ∀ rect, s.StartsBelow rect delta → t.StartsBelow rect delta := by
    intro rect hbelow
    rwa [StartsBelow, hscale]
  refine ⟨h.room, fun hnil => ?_, fun rect hmem => ?_⟩
  · exact ⟨hscale ▸ (h.bounds hnil).1, hstarts _ (h.bounds hnil).2⟩
  · exact ⟨hscale ▸ (h.rects rect hmem).1, hstarts _ (h.rects rect hmem).2⟩

/-- A copy whose arguments lie inside fits: each rectangle that the blit is given has the pixels
that one of the region's has in the buffer. -/
theorem Surface.CopyInside.copyFits
    (h : s.CopyInside region regionSize (Surface.copyDelta region destX destY)) :
    s.CopyFits source region regionSize destX destY kernelMap sourceMap := by
  intro dst src _ _
  refine ⟨h.room, fun rect hmem j hcopied => ?_⟩
  obtain ⟨-, -, hw, hj, -⟩ := hcopied
  rw [blitRects] at hmem
  split at hmem
  · next hnil =>
    rw [List.mem_singleton] at hmem
    subst hmem
    obtain ⟨hsub, hbelow⟩ := h.bounds ((clippedRects_eq_nil_iff s region _).mp hnil)
    exact rowFits_of_pixels rfl (Set.inter_eq_left.mpr hsub).symm hbelow hw hj
  · obtain ⟨r, hr, rfl⟩ := List.mem_map.mp hmem
    obtain ⟨hclips, hbelow⟩ := h.rects r hr
    exact rowFits_of_pixels rfl ((clipRect_exact_iff _ _ _ r).mpr hclips) hbelow hw hj

/-- The part behind `allocBacking` stays within its bounds exactly when the copy fits. -/
theorem copyRegionBlit_within_iff (hsize : region.size ≤ regionSize) :
    (s.copyRegionBlit source region destX destY kernelMap sourceMap).Within kernelMap regionSize ↔
      s.CopyFits source region regionSize destX destY kernelMap sourceMap := by
  have hstart : ∀ access ∈ RegionAccess.numRects :: RegionAccess.bounds ::
      RegionAccess.loop region.rect.length, access.offset + access.length ≤ regionSize := by
    rw [IOAccelDeviceRegion.size] at hsize
    intro access hmem
    rw [List.mem_cons, List.mem_cons] at hmem
    rcases hmem with rfl | rfl | hmem
    · exact loop_within hsize _ List.mem_cons_self
    · simp only [RegionAccess.bounds]
      omega
    · exact loop_within hsize access hmem
  cases hdst : s.obtainKernelPtrs kernelMap with
  | error e =>
    refine iff_of_true ?_ fun dst src hd => by rw [hdst] at hd; cases hd
    simp only [Surface.copyRegionBlit, hdst]
    exact ⟨fun _ _ _ c hc => by simp at hc, hstart⟩
  | ok dst =>
    cases hsrc : source.obtainKernelPtrs sourceMap with
    | error e =>
      refine iff_of_true ?_ fun dst src _ hs => by rw [hsrc] at hs; cases hs
      simp only [Surface.copyRegionBlit, hdst, hsrc]
      exact ⟨fun _ _ _ c hc => by simp at hc, hstart⟩
    | ok src =>
      have hrows : ∀ rect j, RowCopied (s.blitSide dst (Surface.copyDelta region destX destY))
          (source.blitSide src ⟨0, 0⟩) rect s.blitBytes j → _ :=
        fun rect j hcopied => rowMemcpy_inBuffer_iff rfl hcopied
      constructor
      · rintro ⟨hwrites, haccesses⟩ dst' src' hd hs
        rw [hdst, Except.ok.injEq] at hd
        rw [hsrc, Except.ok.injEq] at hs
        subst hd hs
        simp only [Surface.copyRegionBlit, hdst, hsrc] at hwrites haccesses
        refine ⟨(blitAccesses_within hsize _).mp haccesses, fun rect hmem j hcopied => ?_⟩
        refine (hrows rect j hcopied).mp (hwrites dst.1 dst.2 rfl _ ?_)
        exact mem_blit_iff.mpr ⟨rect, hmem, j, hcopied, rfl⟩
      · intro hfits
        obtain ⟨hroom, hrect⟩ := hfits dst src hdst hsrc
        simp only [Surface.copyRegionBlit, hdst, hsrc]
        refine ⟨fun base limit hbase c hc => ?_, (blitAccesses_within hsize _).mpr hroom⟩
        obtain ⟨rect, hmem, j, hcopied, rfl⟩ := mem_blit_iff.mp hc
        rw [hdst, Except.ok.injEq] at hbase
        subst hbase
        exact (hrows rect j hcopied).mpr (hrect rect hmem j hcopied)

end Blit

/-- The call stays in the region and in the buffer exactly when the copy that gets as far as the
blit fits row by row. -/
theorem copySurfaceRegionToSelf_within_iff {s : Surface} {a : Accel} {source : CopySource}
    {region : IOAccelDeviceRegion} {regionSize : ℕ} {env : BackingEnv} {destX destY : Int32}
    {kernelMap : Option KernelMapping} (hsize : region.size ≤ regionSize) :
    (∀ call, s.copySurfaceRegionToSelf a source region regionSize env destX destY kernelMap =
        some call → call.Within kernelMap regionSize) ↔
      ∀ o, s.copySurface a (source.surface s) (some region) regionSize env .success = some o →
        o.ret = .success →
        o.surface.CopyFits (source.surface o.surface) region regionSize destX destY kernelMap
          (source.kernelMap kernelMap) := by
  have hcall : ∀ o, s.copySurface a (source.surface s) (some region) regionSize env .success =
      some o → s.copySurfaceRegionToSelf a source region regionSize env destX destY kernelMap =
        if o.ret = .success then
          some (o.surface.copyRegionBlit (source.surface o.surface) region destX destY kernelMap
            (source.kernelMap kernelMap))
        else some ⟨o.ret, o.surface, region, [.numRects], []⟩ := by
    intro o ho
    rw [Surface.copySurfaceRegionToSelf, ho]
  constructor
  · intro hwithin o ho hsuccess
    have hsome := hcall o ho
    rw [if_pos hsuccess] at hsome
    exact (copyRegionBlit_within_iff hsize).mp (hwithin _ hsome)
  · intro hfits call h
    cases ho : s.copySurface a (source.surface s) (some region) regionSize env .success with
    | none =>
      rw [Surface.copySurfaceRegionToSelf, ho] at h
      cases h
    | some o =>
      rw [hcall o ho] at h
      split_ifs at h with hsuccess
      · obtain rfl := Option.some.inj h
        exact (copyRegionBlit_within_iff hsize).mpr (hfits o ho hsuccess)
      · obtain rfl := Option.some.inj h
        refine ⟨fun _ _ _ c hc => by simp at hc, fun access hmem => ?_⟩
        obtain rfl := List.mem_singleton.mp hmem
        rw [IOAccelDeviceRegion.size] at hsize
        simp only [RegionAccess.numRects]
        omega

/-- A copy that is made leaves the geometry of the destination alone. -/
theorem copySurface_scale {s : Surface} {a : Accel} {source : Surface}
    {region : Option IOAccelDeviceRegion} {regionSize : ℕ} {env : BackingEnv} {o : Outcome}
    (h : s.copySurface a source region regionSize env .success = some o)
    (hsuccess : o.ret = .success) : o.surface.scale = s.scale := by
  rw [Surface.copySurface] at h
  split_ifs at h
  · cases h
    cases hsuccess
  · cases h
    cases hsuccess
  · cases h
    cases hsuccess
  · cases h
    cases hsuccess
  · split at h
    · cases h
    · cases h
      cases hsuccess
    · rename_i halloc
      cases h
      obtain ⟨-, backing, rfl⟩ := Surface.allocBacking_kept halloc
      rfl

/-- The call gets past its checks, and finds both images. -/
def Surface.CopyMade (s : Surface) (a : Accel) (source : CopySource)
    (region : IOAccelDeviceRegion) (regionSize : ℕ) (env : BackingEnv)
    (kernelMap : Option KernelMapping) : Prop :=
  ∃ o dst src,
    s.copySurface a (source.surface s) (some region) regionSize env .success = some o ∧
      o.ret = .success ∧ o.surface.obtainKernelPtrs kernelMap = .ok dst ∧
      (source.surface o.surface).obtainKernelPtrs (source.kernelMap kernelMap) = .ok src

/-- **A copy between surfaces** writes only pixels of the destination's buffer and accesses only
the bytes of the region that it was given, if its arguments lie inside where it is made at all.
The room in a region without rectangles is needed, too. -/
theorem copySurfaceRegionToSelf_within {s : Surface} {a : Accel} {source : CopySource}
    {region : IOAccelDeviceRegion} {regionSize : ℕ} {env : BackingEnv} {destX destY : Int32}
    {kernelMap : Option KernelMapping} (hsize : region.size ≤ regionSize) :
    ((s.CopyMade a source region regionSize env kernelMap →
        s.CopyInside region regionSize (Surface.copyDelta region destX destY)) →
      ∀ call, s.copySurfaceRegionToSelf a source region regionSize env destX destY kernelMap =
        some call → call.Within kernelMap regionSize) ∧
    ((∀ call, s.copySurfaceRegionToSelf a source region regionSize env destX destY kernelMap =
        some call → call.Within kernelMap regionSize) →
      s.CopyMade a source region regionSize env kernelMap → region.rect = [] →
        20 ≤ regionSize) := by
  rw [copySurfaceRegionToSelf_within_iff hsize]
  constructor
  · intro hinside o ho hsuccess dst src hdst hsrc
    have h := hinside ⟨o, dst, src, ho, hsuccess, hdst, hsrc⟩
    exact (h.of_scale (copySurface_scale ho hsuccess)).copyFits dst src hdst hsrc
  · rintro hfits ⟨o, dst, src, ho, hsuccess, hdst, hsrc⟩
    exact (hfits o ho hsuccess dst src hdst hsrc).1

/-- A region with a rectangle of 8 by 8 pixels. -/
def squareRegion : IOAccelDeviceRegion := ⟨⟨0, 0, 8, 8⟩, [⟨0, 0, 8, 8⟩]⟩

/-- A square that is copied to the right and cut at the edge of the window stays inside; a region
without rectangles that comes in 12 bytes does not. -/
theorem copySurfaceRegionToSelf_within_square : ∃ w call,
    Run World.step Always smallWorld (windowSession 0 ++ [drawLock]) w ∧
    (w.surfaces 0).copySurfaceRegionToSelf w.accel .self squareRegion 20 willing 12 0 none =
      some call ∧ call.ret = .success ∧ call.Within none 20 ∧
    ¬∀ call, (w.surfaces 0).copySurfaceRegionToSelf w.accel .self ⟨⟨0, 0, 16, 16⟩, []⟩ 12 willing
      0 0 none = some call → call.Within none 12 := by
  have heval : (((windowSession 0 ++ [drawLock]).foldlM World.step smallWorld).bind fun w =>
      ((w.surfaces 0).copySurfaceRegionToSelf w.accel .self squareRegion 20 willing 12 0
          none).bind fun call =>
        ((w.surfaces 0).copySurface w.accel (w.surfaces 0) (some ⟨⟨0, 0, 16, 16⟩, []⟩) 12 willing
          .success).bind fun o =>
        (o.surface.obtainKernelPtrs none).toOption.map fun ptrs =>
          (call.ret, (w.surfaces 0).scale, o.ret, ptrs)) =
      some (.success, ⟨⟨0, 0, 16, 16⟩, 16, 16, 4096, 64, 0⟩, .success, 0x100000, 4096) := by
    decide +kernel
  obtain ⟨w, hfold, heval⟩ := Option.bind_eq_some_iff.mp heval
  obtain ⟨call, hcall, heval⟩ := Option.bind_eq_some_iff.mp heval
  obtain ⟨o, ho, heval⟩ := Option.bind_eq_some_iff.mp heval
  obtain ⟨ptrs, hptrs, heval⟩ := Option.map_eq_some_iff.mp heval
  simp only [Prod.mk.injEq] at heval
  obtain ⟨hret, hscale, hmade, -⟩ := heval
  have hok : o.surface.obtainKernelPtrs none = .ok ptrs := by
    cases hres : o.surface.obtainKernelPtrs none with
    | error e => rw [hres] at hptrs; cases hptrs
    | ok p => rw [hres] at hptrs; cases hptrs; rfl
  refine ⟨w, call, run_of_foldlM hfold, hcall, hret,
    (copySurfaceRegionToSelf_within (by decide)).1 (fun _ => ?_) call hcall, fun hwithin => ?_⟩
  · refine ⟨by decide, fun hnil => absurd hnil (by decide), fun rect hmem => ?_⟩
    obtain rfl := List.mem_singleton.mp hmem
    rw [Surface.StartsBelow, hscale]
    exact ⟨by decide, fun _ => by decide⟩
  · have hroom := (copySurfaceRegionToSelf_within (by decide)).2 hwithin
      ⟨o, ptrs, ptrs, ho, hmade, hok, hok⟩ rfl
    exact absurd hroom (by decide)

/-- A region without rectangles is passed with the 12 bytes that it has; the call writes the
8 bytes behind them. -/
theorem copySurfaceRegionToSelf_empty_region : ∃ w call,
    Run World.step Always smallWorld (windowSession 0 ++ [drawLock]) w ∧
    (w.surfaces 0).copySurfaceRegionToSelf w.accel .self ⟨⟨0, 0, 16, 16⟩, []⟩ 12 willing 4 0 none =
      some call ∧ call.ret = .success ∧ .rect 0 ∈ call.accesses ∧ ¬call.Within none 12 := by
  have heval : (((windowSession 0 ++ [drawLock]).foldlM World.step smallWorld).bind fun w =>
      ((w.surfaces 0).copySurfaceRegionToSelf w.accel .self ⟨⟨0, 0, 16, 16⟩, []⟩ 12 willing 4 0
        none).map fun call => (call.ret, call.accesses.contains (.rect 0))) =
      some (.success, true) := by
    decide +kernel
  obtain ⟨w, hfold, heval⟩ := Option.bind_eq_some_iff.mp heval
  obtain ⟨call, hcall, heval⟩ := Option.map_eq_some_iff.mp heval
  simp only [Prod.mk.injEq, List.contains_iff_mem] at heval
  refine ⟨w, call, run_of_foldlM hfold, hcall, heval.1, heval.2, fun hwithin => ?_⟩
  exact absurd (hwithin.accesses _ heval.2) (by decide)

end DockerMacos
