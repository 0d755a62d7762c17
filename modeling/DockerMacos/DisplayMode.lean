import Mathlib.Data.Int.Notation
import Mathlib.Data.List.Basic
import DockerMacos.IOReturn

/-!
# Display Modes

The framebuffer driver (`FB/VMsvga2.cpp`) offers a list of fixed modes and one custom mode,
whose size a user client sets with `CustomMode`.

## A request for a custom size

A request takes several steps: the driver stores the size, announces a change of the connection
and waits until the window server has switched to the custom mode and released its capture; on
the older systems a timer then swaps another mode into the first slot of the list
(`RestoreAllModes`), so that the window server sees a change again.

## Atomic steps

The steps are atomic here, and any number of requests may be waiting. What is done about
the refresh timer and the change announcement leaves this state alone and is left out. Where a
step of the source can be cut in two by another, a later module has it in pieces.

## Main results

* `Framebuffer.customModeBegin_custom`: a custom size stays between 800 by 600 and the device's
  maximum (`Framebuffer.Fits`).
* `fbStep_svga`: only `setDisplayMode` programs the device, with the size of its mode.
-/

namespace DockerMacos

/-- `DisplayModeEntry`. -/
structure DisplayModeEntry where
  width : ℕ
  height : ℕ
  flags : ℕ
  deriving DecidableEq

/-- `CustomModeData`. -/
structure CustomModeData where
  flags : ℕ
  width : ℕ
  height : ℕ
  deriving DecidableEq

/-- `NUM_DISPLAY_MODES`. -/
def numDisplayModes : ℕ := 26

/-- `CUSTOM_MODE_ID`. -/
def customModeId : ℤ := 1

/-- `kDisplayModeDefaultFlag`. -/
def displayModeDefaultFlag : ℕ := 4

/-- `kDisplayModeValidFlag | kDisplayModeSafeFlag`. -/
def displayModeValidSafe : ℕ := 3

/-- `modeList`. The first entry is kept for the custom mode. -/
def modeList : List DisplayModeEntry :=
  [⟨800, 600, displayModeValidSafe⟩, ⟨800, 600, displayModeValidSafe⟩,
    ⟨1024, 768, displayModeValidSafe + displayModeDefaultFlag⟩,
    ⟨1152, 720, displayModeValidSafe⟩, ⟨1152, 864, displayModeValidSafe⟩,
    ⟨1152, 900, displayModeValidSafe⟩, ⟨1280, 720, displayModeValidSafe⟩,
    ⟨1280, 768, displayModeValidSafe⟩, ⟨1280, 800, displayModeValidSafe⟩,
    ⟨1280, 960, displayModeValidSafe⟩, ⟨1280, 1024, displayModeValidSafe⟩,
    ⟨1366, 768, displayModeValidSafe⟩, ⟨1376, 1032, displayModeValidSafe⟩,
    ⟨1400, 1050, displayModeValidSafe⟩, ⟨1440, 900, displayModeValidSafe⟩,
    ⟨1600, 900, displayModeValidSafe⟩, ⟨1600, 1200, displayModeValidSafe⟩,
    ⟨1680, 1050, displayModeValidSafe⟩, ⟨1920, 1080, displayModeValidSafe⟩,
    ⟨1920, 1200, displayModeValidSafe⟩, ⟨1920, 1440, displayModeValidSafe⟩,
    ⟨2048, 1152, displayModeValidSafe⟩, ⟨2048, 1536, displayModeValidSafe⟩,
    ⟨2360, 1770, displayModeValidSafe⟩, ⟨2560, 1440, displayModeValidSafe⟩,
    ⟨2560, 1600, displayModeValidSafe⟩]

/-- The display registers of `SVGADevice`. -/
structure SVGAMode where
  maxWidth : ℕ
  maxHeight : ℕ
  fbOffset : ℕ
  fbSize : ℕ
  width : ℕ
  height : ℕ
  /-- What the device reports in `SVGA_REG_FB_SIZE` after a mode of this width and height
  has been set. -/
  reportedSize : ℕ → ℕ → ℕ

/-- `SVGADevice::SetMode`. -/
def SVGAMode.setMode (s : SVGAMode) (width height : ℕ) : SVGAMode :=
  { s with fbSize := s.reportedSize width height, width := width, height := height }

/-- The display state of `VMsvga2`. -/
structure Framebuffer where
  svga : SVGAMode
  customMode : DisplayModeEntry
  /-- The first `m_num_active_modes` entries of `m_modes`. -/
  modes : List ℤ
  displayMode : ℤ
  depthMode : ℤ
  customSwitch : ℕ
  customModeSwitched : Bool
  /-- Whether `m_restore_call` could be allocated. -/
  restoreCall : Bool
  /-- `version_major` of the kernel. -/
  versionMajor : ℕ

namespace Framebuffer

/-- `GetDisplayMode`. -/
def getDisplayMode (f : Framebuffer) (displayMode : ℤ) : Option DisplayModeEntry :=
  if displayMode = customModeId then some f.customMode
  else if displayMode ≥ 1 ∧ displayMode ≤ numDisplayModes then
    modeList[(displayMode - 1).toNat]?
  else none

/-- `getDisplayModeCount`. -/
def getDisplayModeCount (f : Framebuffer) : ℕ :=
  if f.customSwitch ≠ 0 then 1 else f.modes.length

/-- `getDisplayModes`: the ids it writes. -/
def getDisplayModes (f : Framebuffer) : List ℤ :=
  if f.customSwitch ≠ 0 then [customModeId] else f.modes

/-- `setDisplayMode`. -/
def setDisplayMode (f : Framebuffer) (displayMode depth : ℤ) : IOReturn × Framebuffer :=
  if depth ≠ 0 then (.badArgument, f)
  else
    match f.getDisplayMode displayMode with
    | none => (.badArgument, f)
    | some dme =>
        if f.customModeSwitched then
          -- the mode is not set in the virtual hardware
          (.success, { f with
            customModeSwitched :=
              !(f.customMode.width == dme.width && f.customMode.height == dme.height)
            displayMode := displayMode
            depthMode := 0 })
        else
          (.success, { f with
            svga := f.svga.setMode dme.width dme.height
            displayMode := displayMode
            depthMode := 0 })

/-- `CustomSwitchStepSet`. -/
def customSwitchStepSet (f : Framebuffer) (value : ℕ) : Framebuffer :=
  { f with customSwitch := value }

/-- `setAttribute`; `captured` tells whether the attribute is `kIOCapturedAttribute`. -/
def setAttribute (f : Framebuffer) (captured : Bool) (value : ℕ) : Framebuffer :=
  if captured ∧ value = 0 ∧ f.customSwitch = 1 ∧ f.displayMode = customModeId then
    f.customSwitchStepSet (if f.versionMajor ≥ 13 then 0 else 2)
  else f

/-- The slots 0 and `i` of the mode list swapped. -/
def swapFirst (modes : List ℤ) (i : ℕ) : List ℤ :=
  (modes.set 0 (modes.getD i 0)).set i (modes.getD 0 0)

/-- The test of the search of `RestoreAllModes`: a mode of another size than `dme1`. -/
def otherSize (f : Framebuffer) (dme1 : DisplayModeEntry) (id : ℤ) : Bool :=
  match f.getDisplayMode id with
  | none => false
  | some dme2 => dme2.width != dme1.width || dme2.height != dme1.height

/-- `RestoreAllModes`. -/
def restoreAllModes (f : Framebuffer) : Framebuffer :=
  if f.customSwitch ≠ 2 then f
  else
    match f.getDisplayMode customModeId with
    | none => f
    | some dme1 =>
        match f.modes.findIdx? (f.otherSize dme1) with
        | none => f
        | some i =>
            { f with
              modes := swapFirst f.modes i
              customModeSwitched := true }.customSwitchStepSet 0

/-! ### Custom modes -/

/-- The arguments of `CustomMode`; `outData` tells whether the pointer is there. -/
structure CustomModeArgs where
  inData : Option CustomModeData
  inSize : ℕ
  outData : Bool
  outSize : Option ℕ

/-- Where `CustomMode` has come to: it returns, or waits for a value of the switch. -/
inductive CustomModeStep
  | done (ret : IOReturn) (out : Option CustomModeData)
  | wait (value flags : ℕ)

/-- A size of a custom mode, brought between the least size and the device's greatest. -/
def clampSize (least greatest n : ℕ) : ℕ :=
  if n < least then least else if n > greatest then greatest else n

/-- The end of `CustomMode` (`finish_up`). -/
def customModeFinish (f : Framebuffer) (flags : ℕ) : IOReturn × Option CustomModeData :=
  match f.getDisplayMode f.displayMode with
  | none => (.unsupported, none)
  | some dme1 => (.success, some ⟨flags, dme1.width, dme1.height⟩)

/-- `sizeof(CustomModeData)`. -/
def customModeDataSize : ℕ := 12

/-- `CustomMode` at its end without a wait. -/
def customModeDone (f : Framebuffer) (flags : ℕ) : CustomModeStep :=
  .done (f.customModeFinish flags).1 (f.customModeFinish flags).2

/-- The part of `CustomMode` that sets a size other than that of the current mode `dme1`. -/
def customModeRequest (f : Framebuffer) (dme1 : DisplayModeEntry) (inData : CustomModeData) :
    Framebuffer × CustomModeStep :=
  let w := clampSize 800 f.svga.maxWidth inData.width
  let h := clampSize 600 f.svga.maxHeight inData.height
  if w = dme1.width ∧ h = dme1.height then (f, f.customModeDone inData.flags)
  else
    ({ f with customMode := { f.customMode with width := w, height := h } }.customSwitchStepSet 1,
      .wait (if f.versionMajor ≥ 13 then 0 else 2) inData.flags)

/-- `CustomMode` up to its wait, or to its end when it does not wait. -/
def customModeBegin (f : Framebuffer) (args : CustomModeArgs) : Framebuffer × CustomModeStep :=
  if !f.restoreCall then (f, .done .unsupported none)
  else
    match args.inData with
    | none => (f, .done .badArgument none)
    | some inData =>
        if args.inSize < customModeDataSize then (f, .done .badArgument none)
        else if !args.outData then (f, .done .badArgument none)
        else if args.outSize.all (· < customModeDataSize) then (f, .done .badArgument none)
        else
          match f.getDisplayMode f.displayMode with
          | none => (f, .done .unsupported none)
          | some dme1 =>
              if inData.flags.testBit 0 then f.customModeRequest dme1 inData
              else (f, f.customModeDone inData.flags)

/-! ### Setting up -/

/-- `TryDetectCurrentDisplayMode`. -/
def tryDetectCurrentDisplayMode (svga : SVGAMode) (defaultMode : ℤ) : ℤ :=
  let same (m : DisplayModeEntry) : Bool := svga.width == m.width && svga.height == m.height
  match (modeList.drop 1).findIdx? same with
  | some i => i + 2
  | none =>
      match (modeList.drop 1).reverse.findIdx? (·.flags.testBit 2) with
      | some i => numDisplayModes - i
      | none => defaultMode

/-- The active modes that `start` finds: the listed modes that fit the device. -/
def activeModes (svga : SVGAMode) : List ℤ :=
  (List.range numDisplayModes).filterMap fun i =>
    match modeList[i]? with
    | some m => if m.width ≤ svga.maxWidth ∧ m.height ≤ svga.maxHeight then some (i + 1) else none
    | none => none

/-- The display state that `start` leaves, on a device in the mode `svga`. With two active
modes or less it fails. -/
def start (svga : SVGAMode) (restoreCall : Bool) (versionMajor : ℕ) : Option Framebuffer :=
  if (activeModes svga).length ≤ 2 then none
  else some {
    svga := svga
    customMode := modeList.headD ⟨0, 0, 0⟩
    modes := activeModes svga
    displayMode := tryDetectCurrentDisplayMode svga 3
    depthMode := 0
    customSwitch := 0
    customModeSwitched := false
    restoreCall := restoreCall
    versionMajor := versionMajor }

/-- A clamped size is no larger than the greatest. -/
theorem clampSize_le {least greatest n : ℕ} (h : least ≤ greatest) :
    clampSize least greatest n ≤ greatest := by
  rw [clampSize]
  split
  · exact h
  · split <;> omega

/-- Nor is it smaller than the least. -/
theorem le_clampSize {least greatest n : ℕ} (h : least ≤ greatest) :
    least ≤ clampSize least greatest n := by
  rw [clampSize]
  split
  · omega
  · split <;> omega

/-- `CustomMode` leaves the display state as it is, or makes a request. -/
theorem customModeBegin_eq (f : Framebuffer) (args : CustomModeArgs) :
    (f.customModeBegin args).1 = f ∨
      ∃ dme1 inData, f.customModeBegin args = f.customModeRequest dme1 inData := by
  rw [customModeBegin]
  split
  · exact .inl rfl
  split
  · exact .inl rfl
  rename_i inData _
  split
  · exact .inl rfl
  split
  · exact .inl rfl
  split
  · exact .inl rfl
  split
  · exact .inl rfl
  rename_i dme1 _
  split
  · exact .inr ⟨dme1, inData, rfl⟩
  · exact .inl rfl

/-- A request does not program the device. -/
theorem customModeRequest_svga (f : Framebuffer) (dme1 : DisplayModeEntry)
    (inData : CustomModeData) : (f.customModeRequest dme1 inData).1.svga = f.svga := by
  simp only [customModeRequest]
  split <;> rfl

/-- Beginning a custom mode does not touch the device. -/
theorem customModeBegin_svga (f : Framebuffer) (args : CustomModeArgs) :
    (f.customModeBegin args).1.svga = f.svga := by
  rcases f.customModeBegin_eq args with h | ⟨dme1, inData, h⟩
  · rw [h]
  · rw [h, customModeRequest_svga]

/-- A mode between 800 by 600 and the device's greatest size. -/
def Fits (svga : SVGAMode) (m : DisplayModeEntry) : Prop :=
  800 ≤ m.width ∧ m.width ≤ svga.maxWidth ∧ 600 ≤ m.height ∧ m.height ≤ svga.maxHeight

/-- **A custom size** stays between 800 by 600 and the device's greatest size. -/
theorem customModeBegin_custom (f : Framebuffer) (args : CustomModeArgs)
    (hw : 800 ≤ f.svga.maxWidth) (hh : 600 ≤ f.svga.maxHeight) (h : Fits f.svga f.customMode) :
    Fits f.svga (f.customModeBegin args).1.customMode := by
  rcases f.customModeBegin_eq args with heq | ⟨dme1, inData, heq⟩
  · rw [heq]
    exact h
  · rw [heq]
    simp only [customModeRequest]
    split
    · exact h
    · exact ⟨le_clampSize hw, clampSize_le hw, le_clampSize hh, clampSize_le hh⟩

end Framebuffer

/-! ### The transition system -/

/-- A moment of a run of the display driver. -/
structure FbRun where
  fb : Framebuffer
  /-- The waiting `CustomMode` calls: the value they wait for and their flags. -/
  waiting : List (ℕ × ℕ)
  /-- Whether the timer for `RestoreAllModes` is set. -/
  timer : Bool
  /-- What the last call returned. -/
  ret : IOReturn
  out : Option CustomModeData

/-- The steps of the window server, of the clients and of the timer. -/
inductive FbAction
  | setDisplayMode (displayMode depth : ℤ)
  | setAttribute (captured : Bool) (value : ℕ)
  | customMode (args : Framebuffer.CustomModeArgs)
  /-- The waiting call number `k` finds the value it waits for. -/
  | customModeResume (k : ℕ)
  | restoreAllModes

/-- The step function. -/
def fbStep (r : FbRun) : FbAction → Option FbRun
  | .setDisplayMode displayMode depth =>
      let (ret, fb) := r.fb.setDisplayMode displayMode depth
      some { r with fb := fb, ret := ret }
  | .setAttribute captured value => some { r with fb := r.fb.setAttribute captured value }
  | .customMode args =>
      match r.fb.customModeBegin args with
      | (fb, .done ret out) => some { r with fb := fb, ret := ret, out := out }
      | (fb, .wait value flags) =>
          some { r with fb := fb, waiting := r.waiting ++ [(value, flags)] }
  | .customModeResume k =>
      match r.waiting[k]? with
      | none => none
      | some (value, flags) =>
          if r.fb.customSwitch = value then
            let (ret, out) := r.fb.customModeFinish flags
            some { r with
              waiting := r.waiting.eraseIdx k
              timer := r.timer || value == 2
              ret := ret
              out := out }
          else none
  | .restoreAllModes =>
      if r.timer then some { r with fb := r.fb.restoreAllModes, timer := false } else none

/-- The start of a run, after `start` has left the display state `f`. -/
def fbStart (f : Framebuffer) : FbRun where
  fb := f
  waiting := []
  timer := false
  ret := .success
  out := none

/-- The mode that `setDisplayMode` programs into the device, if it does. -/
def Framebuffer.programmed (f : Framebuffer) (displayMode depth : ℤ) : Option DisplayModeEntry :=
  if depth = 0 ∧ f.customModeSwitched = false then f.getDisplayMode displayMode else none

/-- `setDisplayMode` programs the device with the size of a mode that it finds. -/
theorem Framebuffer.setDisplayMode_svga (f : Framebuffer) (displayMode depth : ℤ) :
    (f.setDisplayMode displayMode depth).2.svga =
      match f.programmed displayMode depth with
      | some dme => f.svga.setMode dme.width dme.height
      | none => f.svga := by
  rw [Framebuffer.setDisplayMode, Framebuffer.programmed]
  by_cases hdepth : depth = 0
  · rw [if_neg (not_not.mpr hdepth)]
    cases hmode : f.getDisplayMode displayMode with
    | none => simp
    | some dme =>
        cases hswitched : f.customModeSwitched with
        | true => simp
        | false => simp [hdepth]
  · rw [if_pos hdepth, if_neg fun h => hdepth h.1]

/-- `RestoreAllModes` does not program the device. -/
theorem Framebuffer.restoreAllModes_svga (f : Framebuffer) : f.restoreAllModes.svga = f.svga := by
  rw [Framebuffer.restoreAllModes]
  split
  · rfl
  split
  · rfl
  split <;> rfl

/-- Nor does `setAttribute`. -/
theorem Framebuffer.setAttribute_svga (f : Framebuffer) (captured : Bool) (value : ℕ) :
    (f.setAttribute captured value).svga = f.svga := by
  rw [Framebuffer.setAttribute]
  split <;> rfl

/-- **Only `setDisplayMode` programs the device.** -/
theorem fbStep_svga {r t : FbRun} {a : FbAction} (h : fbStep r a = some t) :
    t.fb.svga = r.fb.svga ∨ ∃ displayMode depth dme, a = .setDisplayMode displayMode depth ∧
      r.fb.programmed displayMode depth = some dme ∧
      t.fb.svga = r.fb.svga.setMode dme.width dme.height := by
  cases a with
  | setDisplayMode displayMode depth =>
      cases h
      have hsvga := r.fb.setDisplayMode_svga displayMode depth
      cases hmode : r.fb.programmed displayMode depth with
      | none =>
          rw [hmode] at hsvga
          exact .inl hsvga
      | some dme =>
          rw [hmode] at hsvga
          exact .inr ⟨displayMode, depth, dme, rfl, hmode, hsvga⟩
  | setAttribute captured value =>
      cases h
      exact .inl (r.fb.setAttribute_svga captured value)
  | customMode args =>
      have hsvga := r.fb.customModeBegin_svga args
      simp only [fbStep] at h
      split at h <;> rename_i heq <;> cases h <;> rw [heq] at hsvga <;> exact .inl hsvga
  | customModeResume k =>
      simp only [fbStep] at h
      split at h
      · cases h
      split at h <;> cases h
      exact .inl rfl
  | restoreAllModes =>
      simp only [fbStep] at h
      split at h <;> cases h
      exact .inl r.fb.restoreAllModes_svga

end DockerMacos
