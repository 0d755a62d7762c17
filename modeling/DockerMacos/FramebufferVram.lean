import Mathlib.Order.CompletePartialOrder
import Mathlib.Order.Interval.Set.Disjoint
import DockerMacos.DisplayMode
import DockerMacos.Vram

/-!
# The Framebuffer and the VRAM Blocks

On a device without a front buffer the visible framebuffer lies in VRAM, at the offset that
the device reports. The allocator keeps out of the largest traceable framebuffer, 16 MiB,
whereas the modes are only kept within the device's greatest width and height.

## Two systems side by side

The display driver and the allocator know nothing of each other: `FbVram` has the state of
both, and a step is one of either. What ties them together is the geometry that the device
reports for the mode that is programmed, and the reserve that `setupAllocator` leaves at the
start of VRAM.

## The condition

`ModeFits` is a condition on the steps that program a mode: the framebuffer of the mode fits in
the reserve. Every mode of the list does; a custom mode need not, as its size is only kept
between 800 by 600 and the device's maximum.

## Main results

* `framebuffer_disjoint`: as long as every mode that is programmed fits in the reserve, the
  framebuffer and the live VRAM blocks are disjoint.
* `framebuffer_overlap`: a custom mode above 16 MiB overlaps a block.
* `modeList_fits`: every listed mode fits.
-/

namespace DockerMacos

/-- The display driver beside the VRAM of the accelerator. -/
structure FbVram where
  fb : FbRun
  vram : AllocRun

/-- The steps of the display driver, and the calls of the VRAM allocator. -/
inductive FbVramAction
  | fb (a : FbAction)
  | vramMalloc (bytes : ℕ)
  | vramRealloc (ptr bytes : ℕ)
  | vramFree (ptr : ℕ)

/-- The step function. -/
def fbVramStep (s : FbVram) : FbVramAction → Option FbVram
  | .fb a => (fbStep s.fb a).map fun fb => { s with fb := fb }
  | .vramMalloc bytes => (allocStep s.vram (.malloc bytes)).map fun vram => { s with vram := vram }
  | .vramRealloc ptr bytes =>
      (allocStep s.vram (.realloc ptr bytes)).map fun vram => { s with vram := vram }
  | .vramFree ptr => (allocStep s.vram (.free ptr)).map fun vram => { s with vram := vram }

/-- A successful allocation. -/
theorem fbVramStep_malloc {s : FbVram} {a : VMsvga2Allocator} {bytes p : ℕ}
    (h : s.vram.alloc.malloc bytes = (.success, a, some p)) :
    fbVramStep s (.vramMalloc bytes) = some { s with
      vram := { s.vram with
        alloc := a, live := Function.update s.vram.live p (some bytes), ret := .success } } := by
  simp only [fbVramStep, allocStep, h]
  rfl

/-- The bytes of VRAM that the current mode shows. -/
def SVGAMode.framebufferRange (s : SVGAMode) : Set ℕ := Set.Ico s.fbOffset (s.fbOffset + s.fbSize)

/-- The bytes of VRAM of the block at a live pointer. -/
def AllocRun.blockRange (r : AllocRun) (p bytes : ℕ) : Set ℕ :=
  Set.Ico (p - r.alloc.poolStart) (p - r.alloc.poolStart + 2 ^ (minBits + blockBits bytes))

/-- The framebuffer overlaps no live block. -/
def FramebufferDisjoint (s : FbVram) : Prop :=
  ∀ p bytes, s.vram.live p = some bytes →
    Disjoint s.fb.fb.svga.framebufferRange (s.vram.blockRange p bytes)

/-- The mode that the step programs into the device, if it does, fits in the reserve. -/
def ModeFits (s : FbVram) : FbVramAction → Prop
  | .fb (.setDisplayMode displayMode depth) =>
      ∀ dme, s.fb.fb.programmed displayMode depth = some dme →
        s.fb.fb.svga.reportedSize dme.width dme.height ≤ svgaFbMaxTraceableSize
  | _ => True

/-- Every listed mode fits in the reserve. -/
theorem modeList_fits : ∀ m ∈ modeList, m.width * m.height * 4 ≤ svgaFbMaxTraceableSize := by
  decide

/-- Calls other than `Release` release nothing. -/
theorem allocStep_released {r t : AllocRun} {a : AllocAction}
    (ha : ∀ first past, a ≠ .release first past) (h : allocStep r a = some t) :
    t.released = r.released := by
  cases a with
  | release first past => exact absurd rfl (ha first past)
  | malloc bytes =>
      cases h
      rfl
  | realloc ptr size =>
      simp only [allocStep] at h
      split at h <;> cases h
      rfl
  | free ptr =>
      simp only [allocStep] at h
      split at h <;> cases h
      rfl
  | write ptr i v =>
      simp only [allocStep] at h
      split at h
      · split at h <;> cases h
        rfl
      · cases h

/-- No live block reaches below the reserve when nothing below it was released. -/
theorem AllocInv.reserve_le {r : AllocRun} {lists : ℕ → List ℕ} (h : AllocInv r lists)
    (hreleased : ∀ n < reserveBlocks, r.released n = false) {p bytes : ℕ}
    (hp : r.live p = some bytes) : svgaFbMaxTraceableSize ≤ p - r.alloc.poolStart := by
  obtain ⟨b, hb, rfl, -⟩ := h.exists_live hp
  have hlow : reserveBlocks ≤ b.off := by
    by_contra hlt
    have hpast := h.rep.past_le (h.rep.live_mem hb)
    exact h.rep.tiling.avoid b (.inl hb) b.off b.off_mem
      (.inl ⟨lt_of_lt_of_le b.off_lt_past hpast, hreleased _ (not_le.mp hlt)⟩)
  rw [VMsvga2Allocator.addr, Nat.add_sub_cancel_left]
  calc svgaFbMaxTraceableSize = reserveBlocks * 2 ^ minBits := by decide
    _ ≤ b.off * 2 ^ minBits := Nat.mul_le_mul_right _ hlow

/-- The invariant: nothing below the reserve is released, and the framebuffer fits in it. -/
structure FbVramInv (s : FbVram) : Prop where
  vram : ∃ lists, AllocInv s.vram lists
  released : ∀ n < reserveBlocks, s.vram.released n = false
  fbOffset : s.fb.fb.svga.fbOffset = 0
  fbSize : s.fb.fb.svga.fbSize ≤ svgaFbMaxTraceableSize

namespace FbVramInv

variable {s t : FbVram}

/-- Blocks outside the reserved part lie beyond the framebuffer. -/
theorem disjoint (h : FbVramInv s) : FramebufferDisjoint s := by
  intro p bytes hp
  obtain ⟨lists, hinv⟩ := h.vram
  have hlow := hinv.reserve_le h.released hp
  rw [SVGAMode.framebufferRange, AllocRun.blockRange, Set.Ico_disjoint_Ico]
  refine le_trans (min_le_left _ _) (le_trans ?_ (le_max_right _ _))
  rw [h.fbOffset, Nat.zero_add]
  exact h.fbSize.trans hlow

/-- A call of the allocator. -/
theorem alloc (h : FbVramInv s) {a : AllocAction} (ha : ∀ first past, a ≠ .release first past)
    {vram : AllocRun} (hstep : allocStep s.vram a = some vram) :
    FbVramInv { s with vram := vram } := by
  obtain ⟨lists, hinv⟩ := h.vram
  obtain ⟨lists', hinv', -⟩ := hinv.step hstep
  refine ⟨⟨lists', hinv'⟩, fun n hn => ?_, h.fbOffset, h.fbSize⟩
  rw [allocStep_released ha hstep]
  exact h.released n hn

/-- **Step lemma.** -/
theorem step (h : FbVramInv s) {a : FbVramAction} (ha : ModeFits s a)
    (hstep : fbVramStep s a = some t) : FbVramInv t := by
  cases a with
  | fb a =>
      simp only [fbVramStep, Option.map_eq_some_iff] at hstep
      obtain ⟨fb, hfb, rfl⟩ := hstep
      rcases fbStep_svga hfb with hsvga | ⟨displayMode, depth, dme, rfl, hmode, hsvga⟩
      · refine ⟨h.vram, h.released, ?_, ?_⟩
        · rw [hsvga]
          exact h.fbOffset
        · rw [hsvga]
          exact h.fbSize
      · refine ⟨h.vram, h.released, ?_, ?_⟩
        · rw [hsvga]
          exact h.fbOffset
        · rw [hsvga]
          exact ha dme hmode
  | vramMalloc bytes =>
      simp only [fbVramStep, Option.map_eq_some_iff] at hstep
      obtain ⟨vram, hvram, rfl⟩ := hstep
      exact h.alloc (fun _ _ hne => by cases hne) hvram
  | vramRealloc ptr bytes =>
      simp only [fbVramStep, Option.map_eq_some_iff] at hstep
      obtain ⟨vram, hvram, rfl⟩ := hstep
      exact h.alloc (fun _ _ hne => by cases hne) hvram
  | vramFree ptr =>
      simp only [fbVramStep, Option.map_eq_some_iff] at hstep
      obtain ⟨vram, hvram, rfl⟩ := hstep
      exact h.alloc (fun _ _ hne => by cases hne) hvram

end FbVramInv

/-- The start of a run: the display driver has started on a device in the mode `svga` and
the allocator has been set up. -/
def fbVramStart (f : Framebuffer) (e : VramSetup) (a : VMsvga2Allocator) : FbVram where
  fb := fbStart f
  vram := setupStart e a

/-- **The framebuffer and the live VRAM blocks are disjoint** in every run on a device without
a front buffer, with its framebuffer at the start of VRAM, that starts with a mode in the
reserve and programs only such modes. -/
theorem framebuffer_disjoint {z a : VMsvga2Allocator} {e : VramSetup} {svga : SVGAMode}
    {restoreCall : Bool} {versionMajor : ℕ} {f : Framebuffer}
    (hsetup : setupAllocator z e = (.success, a)) (hfront : e.haveFrontBuffer = false)
    (hstart : Framebuffer.start svga restoreCall versionMajor = some f)
    (hoffset : svga.fbOffset = 0) (hsize : svga.fbSize ≤ svgaFbMaxTraceableSize)
    {as : List FbVramAction} {t : FbVram}
    (hrun : Run fbVramStep ModeFits (fbVramStart f e a) as t) : FramebufferDisjoint t := by
  have hsvga : f.svga = svga := by
    rw [Framebuffer.start] at hstart
    split at hstart <;> cases hstart
    rfl
  have hinit : FbVramInv (fbVramStart f e a) := by
    obtain ⟨lists, hinv, -⟩ := setupAllocator_inv hsetup
    refine ⟨⟨lists, hinv⟩, fun n hn => ?_, hsvga ▸ hoffset, hsvga ▸ hsize⟩
    simp only [fbVramStart, setupStart, hfront, Bool.false_or, Bool.and_eq_false_iff,
      decide_eq_false_iff_not]
    exact .inr (not_le.mpr hn)
  exact (hrun.invariant (fun _ _ _ h ha hstep => h.step ha hstep) hinit).disjoint

/-- 32 MiB of VRAM on a device without a front buffer. -/
def plainVram : VramSetup where
  vramLength := 0x2000000
  vramSize := 0x2000000
  kernelMap := some 0x100000
  haveFrontBuffer := false
  mapAllocated := true
  mem := fun _ => 0

/-- A device with modes up to 3840 by 2160, in the mode 1024 by 768. -/
def plainDevice : SVGAMode where
  maxWidth := 3840
  maxHeight := 2160
  fbOffset := 0
  fbSize := 1024 * 768 * 4
  width := 1024
  height := 768
  reportedSize := fun width height => width * height * 4

/-- The display driver on that device. -/
def plainFramebuffer : Framebuffer where
  svga := plainDevice
  customMode := ⟨800, 600, displayModeValidSafe⟩
  modes := Framebuffer.activeModes plainDevice
  displayMode := 3
  depthMode := 0
  customSwitch := 0
  customModeSwitched := false
  restoreCall := true
  versionMajor := 12

/-- The framebuffer starts on the device. -/
theorem plainFramebuffer_start : Framebuffer.start plainDevice true 12 = some plainFramebuffer := by
  rw [Framebuffer.start, if_neg (by decide)]
  rfl

/-- The allocator after the set-up. -/
def plainAllocator : VMsvga2Allocator := (setupAllocator freshAllocator plainVram).2

/-- The allocator is set up on its VRAM. -/
theorem plainVram_setup :
    setupAllocator freshAllocator plainVram = (.success, plainAllocator) := by
  have hcode : (setupAllocator freshAllocator plainVram).1 = .success := by decide +kernel
  rw [← hcode, plainAllocator]

/-- The display driver and the VRAM of that device. -/
def plainStart : FbVram :=
  fbVramStart plainFramebuffer plainVram plainAllocator

/-- A listed mode and an allocation keep apart. -/
theorem framebuffer_disjoint_listed : ∃ t,
    Run fbVramStep ModeFits plainStart [.fb (.setDisplayMode 26 0), .vramMalloc 4096] t ∧
      FramebufferDisjoint t := by
  have hfits : ModeFits plainStart (.fb (.setDisplayMode 26 0)) := by
    intro dme hmode
    cases hmode
    decide
  have hrun : ∃ t,
      Run fbVramStep ModeFits plainStart [.fb (.setDisplayMode 26 0), .vramMalloc 4096] t :=
    ⟨_, Run.cons hfits rfl (Run.single trivial rfl)⟩
  obtain ⟨t, hrun⟩ := hrun
  exact ⟨t, hrun, framebuffer_disjoint plainVram_setup rfl plainFramebuffer_start rfl
    (by decide) hrun⟩

/-- A request for a custom mode of 3840 by 2160. -/
def largeCustomMode : Framebuffer.CustomModeArgs where
  inData := some ⟨1, 3840, 2160⟩
  inSize := Framebuffer.customModeDataSize
  outData := true
  outSize := some Framebuffer.customModeDataSize

/-- **The framebuffer of a custom mode overlaps a live VRAM block**: 3840 by 2160 takes more
than the 16 MiB of the reserve, and the first block allocated starts right above it. -/
theorem framebuffer_overlap : ∃ a f t,
    setupAllocator freshAllocator plainVram = (.success, a) ∧
    Framebuffer.start plainDevice true 12 = some f ∧
    plainVram.haveFrontBuffer = false ∧ plainDevice.fbOffset = 0 ∧
    (∀ width height, width ≤ plainDevice.maxWidth → height ≤ plainDevice.maxHeight →
      width * height * 4 ≤ plainDevice.reportedSize width height) ∧
    Run fbVramStep Always (fbVramStart f plainVram a)
      [.fb (.customMode largeCustomMode), .fb (.setDisplayMode 1 0), .vramMalloc 4096] t ∧
    ¬ FramebufferDisjoint t := by
  obtain ⟨a, hmalloc, hstart⟩ : ∃ a : VMsvga2Allocator,
      plainAllocator.malloc 4096 = (.success, a, some 0x1100000) ∧
      a.poolStart = 0x100000 := by
    have hcode : (plainAllocator.malloc 4096).1 = .success ∧
        (plainAllocator.malloc 4096).2.2 = some 0x1100000 ∧
        (plainAllocator.malloc 4096).2.1.poolStart = 0x100000 := by
      decide +kernel
    refine ⟨_, ?_, hcode.2.2⟩
    rw [← hcode.1, ← hcode.2.1]
  have hmodes : ∃ fb : FbRun, Run fbVramStep Always plainStart
      [.fb (.customMode largeCustomMode), .fb (.setDisplayMode 1 0)] { plainStart with fb := fb } ∧
      fb.fb.svga = plainDevice.setMode 3840 2160 :=
    ⟨_, Run.cons trivial rfl (Run.single trivial rfl), rfl⟩
  obtain ⟨fb, hmodes, hsvga⟩ := hmodes
  have halloc : plainStart.vram.alloc = plainAllocator := by
    simp only [plainStart, fbVramStart, setupStart, allocStart]
  rw [← halloc] at hmalloc
  have hstep := fbVramStep_malloc (s := { plainStart with fb := fb }) hmalloc
  refine ⟨_, _, _, plainVram_setup, plainFramebuffer_start, rfl, rfl, fun _ _ _ _ => le_rfl,
    hmodes.append (Run.single trivial hstep), fun hdisjoint => ?_⟩
  have hlive : Function.update plainStart.vram.live 0x1100000 (some 4096) 0x1100000 =
      some 4096 := Function.update_self _ _ _
  have hp := hdisjoint 0x1100000 4096 hlive
  rw [hsvga, AllocRun.blockRange, hstart] at hp
  have hshown : svgaFbMaxTraceableSize ∈ (plainDevice.setMode 3840 2160).framebufferRange :=
    ⟨Nat.zero_le _, by decide⟩
  exact Set.disjoint_left.mp hp hshown ⟨le_rfl, Nat.lt_add_of_pos_right (Nat.two_pow_pos _)⟩

end DockerMacos
