import DockerMacos.IOReturn
import Mathlib.Data.List.Nodup

/-!
# The Display Patcher

`QEMUDisplayPatcher` (`QEMUDisplayPatcher/src/patcher.cpp`) replaces methods of
`IONDRVFramebuffer`. What the replacements say about the display comes from the table `modes`
and, for `getApertureRange`, from the size that `setDisplayMode` has stored last.

## Replacements

A pointer argument is `none` for a null pointer, else what it points to before the call; the
result has what is stored through it. A replacement that calls the method it replaces gets that
one as an argument. The counters and the lines that the replacements write are left out here.

## Agreement

The system asks one method for the modes and others for a mode's pixels, timing and flags. All
of them look the mode up in the same table (`Described`), so that what they say is of one entry
of it, and a mode that is not there is refused or left to the method that is replaced.

## Main results

* `findMode_isSome_iff`: which modes there are.
* `Described.success`: the methods agree about them.
* `fbSize_eq_rows`: the framebuffer of a mode is as large as its rows say.
-/

namespace DockerMacos

namespace DisplayPatcher

/-! ### The table -/

/-- `struct ModeInfo` -/
structure ModeInfo where
  id : UInt32
  width : UInt32
  height : UInt32
  /-- In 16.16 fixed point. -/
  refreshRate : UInt32
  deriving DecidableEq

/-- 60 Hz, in 16.16 fixed point. -/
def sixtyHertz : UInt32 := (60 : UInt32) <<< 16

/-- `modes` -/
def modes : List ModeInfo :=
  [⟨1, 1920, 1080, sixtyHertz⟩, ⟨2, 2560, 1440, sixtyHertz⟩, ⟨3, 5120, 2880, sixtyHertz⟩,
    ⟨4, 3840, 2160, sixtyHertz⟩, ⟨5, 3008, 1692, sixtyHertz⟩, ⟨6, 2048, 1152, sixtyHertz⟩,
    ⟨7, 1680, 945, sixtyHertz⟩, ⟨8, 1280, 720, sixtyHertz⟩]

/-- The loop over `modes`: the index of the mode, and the mode. -/
def findMode (mode : Int32) : Option (ℕ × ModeInfo) :=
  (modes.findIdx? fun m => m.id.toInt32 == mode).bind fun i => modes[i]?.map fun m => (i, m)

/-- `IODisplayModeInformation` -/
structure DisplayModeInformation where
  nominalWidth : UInt32
  nominalHeight : UInt32
  refreshRate : UInt32
  maxDepthIndex : Int32
  flags : UInt32
  deriving DecidableEq

/-- `IOPixelInformation`; `pixelFormat` is the text in it. -/
structure PixelInformation where
  bytesPerRow : UInt32
  bitsPerPixel : UInt32
  pixelType : UInt32
  componentCount : UInt32
  bitsPerComponent : UInt32
  pixelFormat : String
  activeWidth : UInt32
  activeHeight : UInt32
  deriving DecidableEq

/-- `IOTimingInformation`, with the detailed timing of version 2. -/
structure TimingInformation where
  appleTimingID : UInt32
  flags : UInt32
  horizontalActive : UInt32
  verticalActive : UInt32
  pixelClock : UInt64
  deriving DecidableEq

/-- `kDisplayModeValidFlag | kDisplayModeSafeFlag` -/
def validSafe : UInt32 := 3

/-- `kDisplayModeDefaultFlag` -/
def defaultFlag : UInt32 := 4

/-- The flags of the mode with the index. -/
def modeFlags (i : ℕ) : UInt32 := if i = 0 then validSafe ||| defaultFlag else validSafe

/-- `kIORGBDirectPixels` -/
def rgbDirectPixels : UInt32 := 2

/-- `IO32BitDirectPixels` -/
def direct32BitPixels : String := "--------RRRRRRRRGGGGGGGGBBBBBBBB"

/-- `kIODetailedTimingValid` -/
def detailedTimingValid : UInt32 := 1

/-- What `patchedGetInformationForDisplayMode` stores for the mode with the index. -/
def ModeInfo.information (m : ModeInfo) (i : ℕ) : DisplayModeInformation where
  nominalWidth := m.width
  nominalHeight := m.height
  refreshRate := m.refreshRate
  maxDepthIndex := 0
  flags := modeFlags i

/-- What `patchedGetPixelInformation` stores for the mode. -/
def ModeInfo.pixelInformation (m : ModeInfo) : PixelInformation where
  bytesPerRow := m.width * 4
  bitsPerPixel := 32
  pixelType := rgbDirectPixels
  componentCount := 3
  bitsPerComponent := 8
  pixelFormat := direct32BitPixels
  activeWidth := m.width
  activeHeight := m.height

/-- What `patchedGetTimingInfoForDisplayMode` stores for the mode. -/
def ModeInfo.timingInformation (m : ModeInfo) : TimingInformation where
  appleTimingID := 0xFFFFFFFF
  flags := detailedTimingValid
  horizontalActive := m.width
  verticalActive := m.height
  pixelClock := m.width.toUInt64 * m.height.toUInt64 * 60

/-! ### The methods -/

/-- `patchedGetDisplayModeCount` -/
def patchedGetDisplayModeCount : UInt32 := modes.length.toUInt32

/-- `patchedGetDisplayModes`; the array has room for the modes. -/
def patchedGetDisplayModes (allModes : Option (List Int32)) : IOReturn × Option (List Int32) :=
  match allModes with
  | none => (.error, none)
  | some _ => (.success, some (modes.map fun m => m.id.toInt32))

/-- `patchedGetInformationForDisplayMode`, but for the mask of the modes that it is asked for. -/
def patchedGetInformationForDisplayMode (mode : Int32) (info : Option DisplayModeInformation) :
    IOReturn × Option DisplayModeInformation :=
  match info with
  | none => (.error, none)
  | some old =>
      match findMode mode with
      | none => (.badArgument, some old)
      | some (i, m) => (.success, some (m.information i))

/-- `patchedGetPixelInformation` -/
def patchedGetPixelInformation (mode depth : Int32) (info : Option PixelInformation) :
    IOReturn × Option PixelInformation :=
  match info with
  | none => (.error, none)
  | some old =>
      if depth ≠ 0 then (.error, some old)
      else
        match findMode mode with
        | none => (.badArgument, some old)
        | some (_, m) => (.success, some m.pixelInformation)

/-- `patchedGetCurrentDisplayMode`: what is stored through the two pointers. -/
def patchedGetCurrentDisplayMode (mode depth : Option Int32) : Option Int32 × Option Int32 :=
  (mode.map fun _ => 1, depth.map fun _ => 0)

/-- `patchedSetDisplayMode`; `current` is `gCurrentWidth` and `gCurrentHeight`. -/
def patchedSetDisplayMode (current : UInt32 × UInt32) (mode : Int32) :
    IOReturn × (UInt32 × UInt32) :=
  match findMode mode with
  | none => (.badArgument, current)
  | some (_, m) => (.success, (m.width, m.height))

/-- `patchedGetTimingInfoForDisplayMode`, which clears what it is given. -/
def patchedGetTimingInfoForDisplayMode (mode : Int32) (info : Option TimingInformation) :
    IOReturn × Option TimingInformation :=
  match info with
  | none => (.error, none)
  | some _ =>
      match findMode mode with
      | none => (.badArgument, some ⟨0, 0, 0, 0, 0⟩)
      | some (_, m) => (.success, some m.timingInformation)

/-- `patchedConnectFlags`; `org` is the method that it replaces, if that is known. -/
def patchedConnectFlags (org : Option (Int32 → UInt32 → IOReturn × UInt32)) (modeID : Int32)
    (flags : Option UInt32) : IOReturn × Option UInt32 :=
  match flags with
  | none => (.error, none)
  | some old =>
      match findMode modeID with
      | some (i, _) => (.success, some (modeFlags i))
      | none =>
          match org with
          | some org => ((org modeID old).1, some (org modeID old).2)
          | none => (.success, some 0)

/-- The bytes of a framebuffer of the size: `fbSize` of `patchedGetApertureRange`. -/
def fbSize (current : UInt32 × UInt32) : UInt64 :=
  current.1.toUInt64 * current.2.toUInt64 * 4

/-! ### Agreement -/

/-- The mode is in the table, at the index. -/
structure Described (mode : Int32) (i : ℕ) (m : ModeInfo) : Prop where
  get : modes[i]? = some m
  id : m.id.toInt32 = mode

/-- The search finds a mode exactly when the table describes it. -/
theorem findMode_eq_some_iff {mode : Int32} {i : ℕ} {m : ModeInfo} :
    findMode mode = some (i, m) ↔ Described mode i m := by
  have hdistinct : (modes.map fun m => m.id.toInt32).Nodup := by decide
  rw [findMode, Option.bind_eq_some_iff]
  constructor
  · rintro ⟨j, hj, hget⟩
    obtain ⟨m', hm', hpair⟩ := Option.map_eq_some_iff.mp hget
    obtain ⟨rfl, rfl⟩ := Prod.mk.inj hpair
    obtain ⟨hlt, hid, -⟩ := List.findIdx?_eq_some_iff_getElem.mp hj
    obtain ⟨_, rfl⟩ := List.getElem?_eq_some_iff.mp hm'
    exact ⟨hm', beq_iff_eq.mp hid⟩
  · rintro ⟨hget, hid⟩
    obtain ⟨hlt, hm⟩ := List.getElem?_eq_some_iff.mp hget
    refine ⟨i, List.findIdx?_eq_some_iff_getElem.mpr ⟨hlt, ?_, fun j hj hsame => ?_⟩, ?_⟩
    · rw [hm, hid, beq_self_eq_true]
    · have hlt' : j < (modes.map fun m => m.id.toInt32).length := by
        rw [List.length_map]
        omega
      have hgt' : i < (modes.map fun m => m.id.toInt32).length := by rwa [List.length_map]
      have heq : (modes.map fun m => m.id.toInt32)[j] = (modes.map fun m => m.id.toInt32)[i] := by
        rw [List.getElem_map, List.getElem_map, hm, hid]
        exact beq_iff_eq.mp hsame
      have hinj : j = i := hdistinct.getElem_inj_iff.mp heq
      omega
    · rw [hget]
      rfl

/-- A mode that is described is in the table. -/
theorem Described.mem {mode : Int32} {i : ℕ} {m : ModeInfo} (h : Described mode i m) :
    m ∈ modes :=
  List.mem_of_getElem? h.get

/-- Its index is one of eight. -/
theorem Described.lt {mode : Int32} {i : ℕ} {m : ModeInfo} (h : Described mode i m) : i < 8 :=
  (List.getElem?_eq_some_iff.mp h.get).1

/-- The modes are those that `patchedGetDisplayModes` lists. -/
theorem findMode_isSome_iff {mode : Int32} :
    (findMode mode).isSome = true ↔
      ∀ old, mode ∈ (patchedGetDisplayModes (some old)).2.getD [] := by
  rw [Option.isSome_iff_exists]
  constructor
  · rintro ⟨⟨i, m⟩, hfind⟩ old
    have h := findMode_eq_some_iff.mp hfind
    exact List.mem_map.mpr ⟨m, h.mem, h.id⟩
  · intro hlisted
    obtain ⟨m, hm, hid⟩ := List.mem_map.mp (hlisted [])
    obtain ⟨i, hi⟩ := List.mem_iff_getElem?.mp hm
    exact ⟨(i, m), findMode_eq_some_iff.mpr ⟨hi, hid⟩⟩

/-- The methods say the same of a mode that is in the table. -/
theorem Described.success {mode : Int32} {i : ℕ} {m : ModeInfo} (h : Described mode i m)
    (information : DisplayModeInformation) (pixel : PixelInformation)
    (timing : TimingInformation) (org : Option (Int32 → UInt32 → IOReturn × UInt32))
    (flags : UInt32) (current : UInt32 × UInt32) :
    patchedGetInformationForDisplayMode mode (some information) =
        (.success, some (m.information i)) ∧
      patchedGetPixelInformation mode 0 (some pixel) = (.success, some m.pixelInformation) ∧
      patchedGetTimingInfoForDisplayMode mode (some timing) =
        (.success, some m.timingInformation) ∧
      patchedConnectFlags org mode (some flags) = (.success, some (m.information i).flags) ∧
      patchedSetDisplayMode current mode = (.success, (m.width, m.height)) := by
  have hfind := findMode_eq_some_iff.mpr h
  refine ⟨?_, ?_, ?_, ?_, ?_⟩
  · rw [patchedGetInformationForDisplayMode, hfind]
  · rw [patchedGetPixelInformation, hfind]
    rfl
  · rw [patchedGetTimingInfoForDisplayMode, hfind]
  · rw [patchedConnectFlags.eq_def, hfind]
    rfl
  · rw [patchedSetDisplayMode, hfind]

/-- The pixel clock is that of the refresh rate. -/
theorem pixelClock_eq : ∀ m ∈ modes, m.timingInformation.pixelClock.toNat * 65536 =
    m.width.toNat * m.height.toNat * m.refreshRate.toNat := by
  decide

/-- The framebuffer of a mode has its rows, and nothing else. -/
theorem fbSize_eq_rows : ∀ m ∈ modes,
    (fbSize (m.width, m.height)).toNat =
      m.pixelInformation.bytesPerRow.toNat * m.pixelInformation.activeHeight.toNat := by
  decide

/-- The sizes of the framebuffers tell the modes apart. -/
theorem fbSize_injective : ∀ m ∈ modes, ∀ n ∈ modes,
    fbSize (m.width, m.height) = fbSize (n.width, n.height) → m = n := by
  have hdistinct : (modes.map fun m => fbSize (m.width, m.height)).Nodup := by decide +kernel
  exact fun m hm n hn hsame => List.inj_on_of_nodup_map hdistinct hm hn hsame

end DisplayPatcher

end DockerMacos
