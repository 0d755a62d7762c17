import DockerMacos.FlushBounds

/-!
# The Sizes of the Scale

`calculateScaleParameters` keeps the size of the source, rounded up to whole pages, and its
pitch, both in 32 bits (`AC/UC/VMsvga2Surface.cpp`). It takes them from one of three places.

## Three sources

* For the screen's own window (`bFromGFB`) they are those of the framebuffer, also where the
  client has passed memory of its own with the shape.
* For other windows with such memory they are the client's. The row bytes and the length are
  64-bit numbers of its own choice there, and are cut off.
* Else the source is packed, one row behind the other, and never comes near 4 GiB.

## What a size should be

The size is counted from the page in which the source begins, as the memory of a client need not
begin at one. It is right if it is a whole number of pages that hold the source. For the screen's
own window the client's memory, if there is any, has to have the rows of the screen and no more
pages than the framebuffer.

## Main results

* `roundUpToPage_cut_iff`: when a size survives the cut and the rounding.
* `sizesExact_iff`: when the stored sizes are those of the source, wherever they come from.
-/

namespace DockerMacos

/-- A size is held by what is stored of it exactly when its rounding does not overflow. -/
theorem roundUpToPage_cut_iff {n : ℕ} (hpos : 0 < n) :
    n ≤ roundUpToPage (n % 2 ^ 32) ↔ n + pageSize ≤ 2 ^ 32 := by
  constructor
  · intro h
    by_contra hlarge
    have hle := roundUpToPage_le (n % 2 ^ 32)
    by_cases hcut : n < 2 ^ 32
    · -- the rounding wraps to zero
      rw [Nat.mod_eq_of_lt hcut] at h
      simp only [roundUpToPage, pageSize] at h hlarge
      omega
    · omega
  · intro h
    have hlt : n < 2 ^ 32 := by simp only [pageSize] at h; omega
    rw [Nat.mod_eq_of_lt hlt]
    exact le_roundUpToPage h

namespace Surface

/-- The stored size is a number of whole pages that hold the source, and the stored pitch is
that of the source: of the client's memory, of the screen, or of rows that follow each
other. -/
structure SizesExact (s : Surface) (fromGFB : Bool) : Prop where
  pages : pageSize ∣ s.scale.byteSize
  client : s.isClientBackingValid = true →
    pageResidue s.clientBacking.addr + s.clientBacking.size ≤ s.scale.byteSize ∧
      s.scale.rowBytes = s.clientBacking.rowbytes
  screen : s.isClientBackingValid = false → fromGFB = true →
    s.screenInfo.y ≤ s.scale.byteSize ∧ s.scale.rowBytes = s.screenInfo.clientRowBytes
  packed : s.isClientBackingValid = false → fromGFB = false →
    s.scale.sourceH.toInt * s.scale.rowBytes ≤ s.scale.byteSize ∧
      (s.scale.rowBytes : ℤ) = s.scale.sourceW.toInt * s.bytesPerPixel

/-- The pages that `n` bytes take. -/
def pageCount (n : ℕ) : ℕ := (n + (pageSize - 1)) / pageSize

/-- The client's memory has rows shorter than 4 GiB and ends a page before 4 GiB, counted from
the page that it begins in. -/
def ClientFits32 (s : Surface) : Prop :=
  s.clientBacking.rowbytes < 2 ^ 32 ∧
    pageResidue s.clientBacking.addr + s.clientBacking.size + pageSize ≤ 2 ^ 32

/-- The client's memory has the rows of the screen, and takes no more pages than the
framebuffer. -/
def ClientFitsScreen (s : Surface) : Prop :=
  s.clientBacking.rowbytes = s.screenInfo.clientRowBytes ∧
    (pageResidue s.clientBacking.addr + s.clientBacking.size = 0 ∨
      s.screenInfo.y + pageSize ≤ 2 ^ 32 ∧
        pageCount (pageResidue s.clientBacking.addr + s.clientBacking.size) ≤
          pageCount s.screenInfo.y)

/-- The client's memory, if there is any, fits; and the framebuffer of the screen, if that is
the source, ends a page before 4 GiB. -/
def SizesFit (s : Surface) (fromGFB : Bool) : Prop :=
  (s.isClientBackingValid = true → if fromGFB then s.ClientFitsScreen else s.ClientFits32) ∧
    (s.isClientBackingValid = false → fromGFB = true → s.screenInfo.y + pageSize ≤ 2 ^ 32)

variable {s : Surface}

/-- Sizes in bytes and in pages. -/
theorem le_roundUpToPage_iff {n y : ℕ} (hy : y < 2 ^ 32) :
    n ≤ roundUpToPage y ↔ n = 0 ∨ y + pageSize ≤ 2 ^ 32 ∧ pageCount n ≤ pageCount y := by
  simp only [roundUpToPage, pageCount, pageSize] at *
  by_cases hfits : y + 4096 ≤ 2 ^ 32
  · rw [Nat.mod_eq_of_lt (by omega)]
    omega
  · -- the rounding wraps to zero
    omega

/-- The client's memory has its sizes stored exactly when they fit. -/
theorem client_exact_iff (hclient : s.isClientBackingValid = true) :
    (pageResidue s.clientBacking.addr + s.clientBacking.size ≤
        (s.calculateScaleParameters false).scale.byteSize ∧
      (s.calculateScaleParameters false).scale.rowBytes = s.clientBacking.rowbytes) ↔
    s.ClientFits32 := by
  have hrow : s.clientBacking.rowbytes % 2 ^ 32 = s.clientBacking.rowbytes ↔
      s.clientBacking.rowbytes < 2 ^ 32 := by omega
  simp only [calculateScaleParameters, hclient, if_true, Bool.false_eq_true, if_false]
  rw [ClientFits32, hrow, and_comm, Nat.add_comm s.clientBacking.size]
  refine and_congr_right fun _ => ?_
  rcases Nat.eq_zero_or_pos (pageResidue s.clientBacking.addr + s.clientBacking.size) with
    hzero | hpos
  · rw [hzero]
    exact iff_of_true (Nat.zero_le _) (by decide)
  · exact roundUpToPage_cut_iff hpos

/-- The client's memory behind the screen's own window has its sizes stored exactly when they
are those of the screen. -/
theorem client_screen_iff (hy : s.screenInfo.y < 2 ^ 32) :
    (pageResidue s.clientBacking.addr + s.clientBacking.size ≤
        (s.calculateScaleParameters true).scale.byteSize ∧
      (s.calculateScaleParameters true).scale.rowBytes = s.clientBacking.rowbytes) ↔
    s.ClientFitsScreen := by
  simp only [calculateScaleParameters, if_true]
  rw [ClientFitsScreen, Nat.mod_eq_of_lt hy, le_roundUpToPage_iff hy, and_comm,
    eq_comm (a := s.screenInfo.clientRowBytes)]

/-- The screen has its sizes stored exactly when its framebuffer ends before the last page. -/
theorem screen_exact_iff :
    (s.screenInfo.y ≤ (s.calculateScaleParameters true).scale.byteSize ∧
      (s.calculateScaleParameters true).scale.rowBytes = s.screenInfo.clientRowBytes) ↔
    s.screenInfo.y + pageSize ≤ 2 ^ 32 := by
  simp only [calculateScaleParameters, if_true, and_true]
  rcases Nat.eq_zero_or_pos s.screenInfo.y with hzero | hpos
  · rw [hzero]
    exact iff_of_true (Nat.zero_le _) (by decide)
  · exact roundUpToPage_cut_iff hpos

/-- A packed source has its sizes stored. -/
theorem packed_exact (hw : 0 < s.scale.sourceW.toInt) (hh : 0 < s.scale.sourceH.toInt)
    (hdepth : s.bytesPerPixel ≤ 4) (hclient : s.isClientBackingValid = false) :
    s.scale.sourceH.toInt * (s.calculateScaleParameters false).scale.rowBytes ≤
        (s.calculateScaleParameters false).scale.byteSize ∧
      ((s.calculateScaleParameters false).scale.rowBytes : ℤ) =
        s.scale.sourceW.toInt * s.bytesPerPixel := by
  obtain ⟨hsize, hfits⟩ := packedSize_eq (packedRow_le hdepth hw.le) hh.le
  simp only [calculateScaleParameters, hclient, Bool.false_eq_true, if_false]
  refine ⟨?_, packedRow_eq hdepth hw.le⟩
  rw [← hsize]
  exact_mod_cast le_roundUpToPage hfits

/-- **The stored sizes** of a positive source are right exactly when the client's memory, if
there is any, fits into 32 bits, or for the screen's own window is as long as the screen. -/
theorem sizesExact_iff (hw : 0 < s.scale.sourceW.toInt) (hh : 0 < s.scale.sourceH.toInt)
    (hdepth : s.bytesPerPixel = 2 ∨ s.bytesPerPixel = 4) (hy : s.screenInfo.y < 2 ^ 32)
    (fromGFB : Bool) :
    (s.calculateScaleParameters fromGFB).SizesExact fromGFB ↔ s.SizesFit fromGFB := by
  have hdepth4 : s.bytesPerPixel ≤ 4 := by omega
  cases fromGFB with
  | false =>
      constructor
      · exact fun h => ⟨fun hclient => (client_exact_iff hclient).mp (h.client hclient),
          fun _ => by rintro ⟨⟩⟩
      · exact fun h => ⟨Dvd.intro_left _ rfl,
          fun hclient => (client_exact_iff hclient).mpr (h.1 hclient), fun _ => by rintro ⟨⟩,
          fun hclient _ => packed_exact hw hh hdepth4 hclient⟩
  | true =>
      constructor
      · exact fun h => ⟨fun hclient => (client_screen_iff hy).mp (h.client hclient),
          fun hclient _ => screen_exact_iff.mp (h.screen hclient rfl)⟩
      · exact fun h => ⟨Dvd.intro_left _ rfl,
          fun hclient => (client_screen_iff hy).mpr (h.1 hclient),
          fun hclient _ => screen_exact_iff.mpr (h.2 hclient rfl), fun _ => by rintro ⟨⟩⟩

/-- A source of 32767 by 32767 pixels of four bytes, in memory of the client that is one page
shorter than 4 GiB. -/
def largestSource : Surface :=
  { Surface.init with
    bytesPerPixel := 4
    clientBacking := ⟨0x1000, 131068, 2 ^ 32 - 4096⟩
    scale := { Scale.zero with sourceW := 32767, sourceH := 32767 } }

/-- It has its sizes stored. -/
theorem sizesExact_iff_largest :
    largestSource.SizesFit false ∧
      (largestSource.calculateScaleParameters false).SizesExact false := by
  have hfits : largestSource.SizesFit false :=
    ⟨fun _ => show largestSource.ClientFits32 from ⟨by decide, by decide⟩,
      fun hclient => absurd hclient (by decide)⟩
  exact ⟨hfits, (sizesExact_iff (by decide) (by decide) (.inr rfl) (by decide) false).mpr hfits⟩

end Surface

/-- A window takes memory of 4 GiB, and is left with a size of zero. -/
theorem setShape_cuts_size : ∃ w o, Run World.step Always smallWorld (windowSession 0) w ∧
    (w.surfaces 0).setShape w.accel { windowShape 0x50000 with backingLength := 2 ^ 32 } = some o ∧
      o.ret = .success ∧ o.surface.clientBacking = ⟨0x50000, 64, 2 ^ 32⟩ ∧
      o.surface.scale.byteSize = 0 ∧ ¬ o.surface.SizesExact false := by
  have heval : ((windowSession 0).foldlM World.step smallWorld).bind (fun w =>
      ((w.surfaces 0).setShape w.accel { windowShape 0x50000 with backingLength := 2 ^ 32 }).map
        fun o => (o.ret, o.surface.clientBacking, o.surface.scale.byteSize)) =
      some (.success, ⟨0x50000, 64, 2 ^ 32⟩, 0) := by
    decide +kernel
  obtain ⟨w, hfold, heval⟩ := Option.bind_eq_some_iff.mp heval
  obtain ⟨o, hset, heval⟩ := Option.map_eq_some_iff.mp heval
  obtain ⟨hret, hclient, hsize⟩ : o.ret = .success ∧
      o.surface.clientBacking = ⟨0x50000, 64, 2 ^ 32⟩ ∧ o.surface.scale.byteSize = 0 := by
    simpa only [Prod.mk.injEq] using heval
  refine ⟨w, o, run_of_foldlM hfold, hset, hret, hclient, hsize, fun h => ?_⟩
  have hvalid : o.surface.isClientBackingValid = true := by
    rw [Surface.isClientBackingValid, hclient]
    decide
  have hheld := (h.client hvalid).1
  rw [hclient, hsize] at hheld
  exact absurd hheld (by decide)

end DockerMacos
