import Mathlib.Algebra.Group.Nat.Defs
import Mathlib.Data.List.Perm.Basic
import Mathlib.Tactic.Simps.Basic
import DockerMacos.DisplayMode
import DockerMacos.Run

/-!
# Switching to a Custom Mode, Step by Step

`CustomMode` runs on the thread of a user client, `RestoreAllModes` on a timer's and
`setDisplayMode` on the window server's (`FB/VMsvga2.cpp`), and none of them holds a lock against
the others. What they read and write of the shared state are therefore steps of their own.

* `CustomMode` stores the width, the height and the switch one after the other and then waits.
* `RestoreAllModes` swaps two slots of the mode list by two writes, sets
  `m_custom_mode_switched` and clears the switch.
* `setDisplayMode` looks at `m_custom_mode_switched`. If it is set, it reads the sizes of the
  custom mode and of the mode and clears the flag when they agree; if not, it reads the size of
  the mode and programs it with `SetMode`. Then it stores the mode and returns.
* `setAttribute` looks at the switch and stores it.

An enumeration is two calls, `getDisplayModeCount` and then `getDisplayModes` into a buffer of
that many entries; each of them is one step.

Any number of `CustomMode` calls may be under way. The timer call may be set again while an
earlier one is still running, so there may be several of those too. The calls of
`setDisplayMode` come one after another.

## Main results

* `runsTo_customModeBegin`, `runsTo_restoreAllModes`, `runsTo_setDisplayMode`,
  `runsTo_setAttribute`: without interruption the steps do what the whole methods do.
* `findSlot_lt`: the search of `RestoreAllModes` stays inside the mode list.
-/

namespace DockerMacos

/-- `IODisplayModeInformation`, as far as the driver sets it. -/
structure IODisplayModeInformation where
  nominalWidth : ℕ
  nominalHeight : ℕ
  refreshRate : ℕ
  maxDepthIndex : ℕ
  flags : ℕ
  deriving DecidableEq

namespace Framebuffer

/-- `getInformationForDisplayMode`. -/
def getInformationForDisplayMode (f : Framebuffer) (displayMode : ℤ) :
    IOReturn × Option IODisplayModeInformation :=
  match f.getDisplayMode displayMode with
  | none => (.badArgument, none)
  | some dme => (.success, some ⟨dme.width, dme.height, 60 * 2 ^ 16, 0, dme.flags⟩)

/-! ### The writes of the two methods -/

/-- `customMode.width = w`. -/
@[simps] def setCustomWidth (f : Framebuffer) (w : ℕ) : Framebuffer :=
  { f with customMode := { f.customMode with width := w } }

/-- `customMode.height = h`. -/
@[simps] def setCustomHeight (f : Framebuffer) (h : ℕ) : Framebuffer :=
  { f with customMode := { f.customMode with height := h } }

/-- `m_modes[i] = id`. -/
@[simps] def setMode (f : Framebuffer) (i : ℕ) (id : ℤ) : Framebuffer :=
  { f with modes := f.modes.set i id }

/-- `m_custom_mode_switched = true`. -/
@[simps] def setSwitched (f : Framebuffer) : Framebuffer :=
  { f with customModeSwitched := true }

/-- `m_custom_mode_switched = false`. -/
@[simps] def clearSwitched (f : Framebuffer) : Framebuffer :=
  { f with customModeSwitched := false }

/-- `svga.SetMode(width, height, 32U)`, with `m_iolock` held. -/
@[simps] def programMode (f : Framebuffer) (width height : ℕ) : Framebuffer :=
  { f with svga := f.svga.setMode width height }

/-- `m_display_mode = id`. -/
@[simps] def storeDisplayMode (f : Framebuffer) (id : ℤ) : Framebuffer :=
  { f with displayMode := id }

/-- `m_depth_mode = 0`. -/
@[simps] def storeDepthMode (f : Framebuffer) : Framebuffer :=
  { f with depthMode := 0 }

/-- The test of `setAttribute`, with the value that it lets the method store in the switch. -/
def attributeSwitch (f : Framebuffer) (captured : Bool) (value : ℕ) : Option ℕ :=
  if captured ∧ value = 0 ∧ f.customSwitch = 1 ∧ f.displayMode = customModeId then
    some (if f.versionMajor ≥ 13 then 0 else 2)
  else none

/-- The search of `RestoreAllModes` for a slot. -/
def findSlot (f : Framebuffer) : Option ℕ :=
  match f.getDisplayMode customModeId with
  | none => none
  | some dme1 => f.modes.findIdx? (f.otherSize dme1)

/-- `RestoreAllModes` by its search and its writes. -/
theorem restoreAllModes_eq (f : Framebuffer) : f.restoreAllModes =
    if f.customSwitch ≠ 2 then f
    else
      match f.findSlot with
      | none => f
      | some i =>
          (((f.setMode 0 (f.modes.getD i 0)).setMode i
            (f.modes.getD 0 0)).setSwitched).customSwitchStepSet
            0 := by
  rw [restoreAllModes, findSlot]
  cases f.getDisplayMode customModeId with
  | none => rfl
  | some dme1 => rfl

/-- The writes of a `CustomMode` call that comes to its wait. -/
theorem customModeBegin_wait {f fb : Framebuffer} {args : CustomModeArgs} {value flags : ℕ}
    (h : f.customModeBegin args = (fb, .wait value flags)) :
    ∃ width height, fb = ((f.setCustomWidth width).setCustomHeight height).customSwitchStepSet 1 ∧
      value = if f.versionMajor ≥ 13 then 0 else 2 := by
  rw [customModeBegin] at h
  split at h
  · cases h
  split at h
  · cases h
  rename_i inData _
  split at h
  · cases h
  split at h
  · cases h
  split at h
  · cases h
  split at h
  · cases h
  split at h
  · simp only [customModeRequest] at h
    split at h
    · cases h
    · cases h
      exact ⟨clampSize 800 f.svga.maxWidth inData.width,
        clampSize 600 f.svga.maxHeight inData.height, rfl, rfl⟩
  · cases h

/-- The slot that the search finds is one of the list. -/
theorem findSlot_lt {f : Framebuffer} {i : ℕ} (h : f.findSlot = some i) : i < f.modes.length := by
  rw [findSlot] at h
  split at h
  · cases h
  · exact (List.findIdx?_eq_some_iff_findIdx_eq.mp h).1

end Framebuffer

/-! ### The transition system -/

/-- Where a `CustomMode` call has come to. -/
inductive CustomModePc
  | setWidth (width height flags : ℕ)
  | setHeight (height flags : ℕ)
  | setSwitch (flags : ℕ)
  | wait (value flags : ℕ)
  /-- It has seen the value it waited for. -/
  | woken (value flags : ℕ)
  deriving DecidableEq

/-- Where a `RestoreAllModes` call has come to. -/
inductive RestorePc
  /-- It has found slot `i`. -/
  | found (i : ℕ)
  /-- Slot 0 is written, and `t` is to go into slot `i`. -/
  | swapping (i : ℕ) (t : ℤ)
  | swapped
  | switched
  deriving DecidableEq

/-- Where a `setDisplayMode` call has come to. -/
inductive SetModePc
  /-- It is about to look at `m_custom_mode_switched`. -/
  | test
  /-- The flag was set, and the sizes of the custom mode and of the mode are compared. -/
  | readCustomWidth
  | compareWidth (customWidth : ℕ)
  | readCustomHeight
  | compareHeight (customHeight : ℕ)
  | clearSwitched
  /-- The flag was clear, and the size of the mode is read for `SetMode`. -/
  | readWidth
  | program (width : ℕ)
  /-- The mode is stored, and the call returns. -/
  | storeMode
  | storeDepth
  deriving DecidableEq

/-- A moment of a run of the display driver. -/
structure ModeRun where
  fb : Framebuffer
  /-- The `setDisplayMode` call under way, with its mode. -/
  setting : Option (ℤ × SetModePc)
  /-- What `setAttribute` calls under way are about to store in the switch. -/
  attributes : List ℕ
  /-- The `CustomMode` calls under way. -/
  calls : List CustomModePc
  /-- Whether the timer for `RestoreAllModes` is set. -/
  timer : Bool
  /-- The `RestoreAllModes` calls under way. -/
  restores : List RestorePc
  /-- The buffers of the enumerations under way, by their number of entries. -/
  buffers : List ℕ
  /-- What the last `setDisplayMode` or `CustomMode` returned. -/
  ret : IOReturn
  out : Option CustomModeData

/-- The steps of the window server, of the clients and of the timer. -/
inductive ModeAction
  | setDisplayMode (displayMode depth : ℤ)
  /-- The `setDisplayMode` call goes on. -/
  | setDisplayModeStep
  | setAttribute (captured : Bool) (value : ℕ)
  /-- `setAttribute` call number `k` stores the switch. -/
  | setAttributeStore (k : ℕ)
  | getDisplayModeCount
  /-- The ids are written into buffer number `k`. -/
  | getDisplayModes (k : ℕ)
  | customMode (args : Framebuffer.CustomModeArgs)
  /-- `CustomMode` call number `k` goes on. -/
  | customModeStep (k : ℕ)
  | timerFires
  /-- `RestoreAllModes` call number `k` goes on. -/
  | restoreStep (k : ℕ)

namespace ModeRun

/-- The start of a run, after `start` has left the display state `f`. -/
def start (f : Framebuffer) : ModeRun where
  fb := f
  setting := none
  attributes := []
  calls := []
  timer := false
  restores := []
  buffers := []
  ret := .success
  out := none

/-- `setDisplayMode` up to its first look at the shared state, or to its end when its arguments
are bad. -/
def setDisplayMode (r : ModeRun) (displayMode depth : ℤ) : ModeRun :=
  if depth ≠ 0 then { r with ret := .badArgument }
  else
    match r.fb.getDisplayMode displayMode with
    | none => { r with ret := .badArgument }
    | some _ => { r with setting := some (displayMode, .test) }

/-- What the `setDisplayMode` call does next; `dme` is the entry of its mode as it is now. -/
def setDisplayModeStep (r : ModeRun) (displayMode : ℤ) (dme : DisplayModeEntry) :
    SetModePc → ModeRun
  | .test =>
      if r.fb.customModeSwitched then { r with setting := some (displayMode, .readCustomWidth) }
      else { r with setting := some (displayMode, .readWidth) }
  | .readCustomWidth =>
      { r with setting := some (displayMode, .compareWidth r.fb.customMode.width) }
  | .compareWidth customWidth =>
      if customWidth = dme.width then { r with setting := some (displayMode, .readCustomHeight) }
      else { r with setting := some (displayMode, .storeMode) }
  | .readCustomHeight =>
      { r with setting := some (displayMode, .compareHeight r.fb.customMode.height) }
  | .compareHeight customHeight =>
      if customHeight = dme.height then { r with setting := some (displayMode, .clearSwitched) }
      else { r with setting := some (displayMode, .storeMode) }
  | .clearSwitched => { r with
      fb := r.fb.clearSwitched
      setting := some (displayMode, .storeMode) }
  | .readWidth => { r with setting := some (displayMode, .program dme.width) }
  | .program width => { r with
      fb := r.fb.programMode width dme.height
      setting := some (displayMode, .storeMode) }
  | .storeMode => { r with
      fb := r.fb.storeDisplayMode displayMode
      setting := some (displayMode, .storeDepth) }
  | .storeDepth => { r with
      fb := r.fb.storeDepthMode
      setting := none
      ret := .success }

/-- `setAttribute` up to its store. -/
def setAttribute (r : ModeRun) (captured : Bool) (value : ℕ) : ModeRun :=
  { r with attributes := r.attributes ++ (r.fb.attributeSwitch captured value).toList }

/-- `CustomMode` up to its first write, or to its end when it makes none. -/
def customMode (r : ModeRun) (args : Framebuffer.CustomModeArgs) : ModeRun :=
  match r.fb.customModeBegin args with
  | (_, .done ret out) => { r with ret := ret, out := out }
  | (fb, .wait _ flags) =>
      { r with calls := r.calls ++ [.setWidth fb.customMode.width fb.customMode.height flags] }

/-- What call number `k` of `CustomMode` does next. -/
def customModeStep (r : ModeRun) (k : ℕ) : CustomModePc → Option ModeRun
  | .setWidth width height flags => some { r with
      fb := r.fb.setCustomWidth width
      calls := r.calls.set k (.setHeight height flags) }
  | .setHeight height flags => some { r with
      fb := r.fb.setCustomHeight height
      calls := r.calls.set k (.setSwitch flags) }
  | .setSwitch flags => some { r with
      fb := r.fb.customSwitchStepSet 1
      calls := r.calls.set k (.wait (if r.fb.versionMajor ≥ 13 then 0 else 2) flags) }
  | .wait value flags =>
      if r.fb.customSwitch = value then
        some { r with calls := r.calls.set k (.woken value flags) }
      else none
  | .woken value flags => some { r with
      calls := r.calls.eraseIdx k
      timer := r.timer || value == 2
      ret := (r.fb.customModeFinish flags).1
      out := (r.fb.customModeFinish flags).2 }

/-- `RestoreAllModes` up to its first write. -/
def restoreBegin (r : ModeRun) : ModeRun :=
  if r.fb.customSwitch ≠ 2 then r
  else
    match r.fb.findSlot with
    | none => r
    | some i => { r with restores := r.restores ++ [.found i] }

/-- What call number `k` of `RestoreAllModes` does next. -/
def restoreStep (r : ModeRun) (k : ℕ) : RestorePc → ModeRun
  | .found i => { r with
      fb := r.fb.setMode 0 (r.fb.modes.getD i 0)
      restores := r.restores.set k (.swapping i (r.fb.modes.getD 0 0)) }
  | .swapping i t => { r with
      fb := r.fb.setMode i t
      restores := r.restores.set k .swapped }
  | .swapped => { r with
      fb := r.fb.setSwitched
      restores := r.restores.set k .switched }
  | .switched => { r with
      fb := r.fb.customSwitchStepSet 0
      restores := r.restores.eraseIdx k }

/-- The step function. -/
def step (r : ModeRun) : ModeAction → Option ModeRun
  | .setDisplayMode displayMode depth =>
      if r.setting.isSome then none else some (r.setDisplayMode displayMode depth)
  | .setDisplayModeStep => r.setting.bind fun p =>
      (r.fb.getDisplayMode p.1).map fun dme => r.setDisplayModeStep p.1 dme p.2
  | .setAttribute captured value => some (r.setAttribute captured value)
  | .setAttributeStore k => r.attributes[k]?.map fun value => { r with
      fb := r.fb.customSwitchStepSet value
      attributes := r.attributes.eraseIdx k }
  | .getDisplayModeCount => some { r with buffers := r.buffers ++ [r.fb.getDisplayModeCount] }
  | .getDisplayModes k =>
      if k < r.buffers.length then some { r with buffers := r.buffers.eraseIdx k } else none
  | .customMode args => some (r.customMode args)
  | .customModeStep k => r.calls[k]?.bind (r.customModeStep k)
  | .timerFires => if r.timer then some { r with timer := false }.restoreBegin else none
  | .restoreStep k => r.restores[k]?.map (r.restoreStep k)

/-! ### The whole methods -/

/-- Without interruption the first steps of `CustomMode` do what `customModeBegin` does. -/
theorem runsTo_customModeBegin (r : ModeRun) (args : Framebuffer.CustomModeArgs)
    {fb : Framebuffer} {value flags : ℕ}
    (h : r.fb.customModeBegin args = (fb, .wait value flags)) :
    [.customMode args, .customModeStep r.calls.length, .customModeStep r.calls.length,
      .customModeStep r.calls.length].foldlM step r =
      some { r with fb := fb, calls := r.calls ++ [.wait value flags] } := by
  have hbegin : r.customMode args = { r with
      calls := r.calls ++ [.setWidth fb.customMode.width fb.customMode.height flags] } := by
    rw [customMode, h]
  obtain ⟨width, height, rfl, rfl⟩ := Framebuffer.customModeBegin_wait h
  simp only [List.foldlM_cons, List.foldlM_nil, step, hbegin]
  simp [customModeStep, Framebuffer.customSwitchStepSet]

/-- Without interruption the steps of `RestoreAllModes` do what the method does. -/
theorem runsTo_restoreAllModes (r : ModeRun) (h : r.timer = true) :
    ∃ as : List ModeAction,
      as.foldlM step r = some { r with fb := r.fb.restoreAllModes, timer := false } := by
  by_cases hswitch : r.fb.customSwitch = 2
  · cases hslot : r.fb.findSlot with
    | none =>
        refine ⟨[.timerFires], ?_⟩
        simp [step, h, restoreBegin, hswitch, hslot, r.fb.restoreAllModes_eq]
    | some i =>
        refine ⟨.timerFires :: List.replicate 4 (.restoreStep r.restores.length), ?_⟩
        simp [step, h, restoreBegin, hswitch, hslot, restoreStep, r.fb.restoreAllModes_eq,
          List.eraseIdx_append_of_length_le]
  · refine ⟨[.timerFires], ?_⟩
    simp [step, h, restoreBegin, hswitch, r.fb.restoreAllModes_eq]

/-- Without interruption the steps of `setDisplayMode` do what the method does. -/
theorem runsTo_setDisplayMode (r : ModeRun) (hidle : r.setting = none) (displayMode depth : ℤ) :
    ∃ as : List ModeAction, as.foldlM step r = some { r with
      fb := (r.fb.setDisplayMode displayMode depth).2
      ret := (r.fb.setDisplayMode displayMode depth).1 } := by
  by_cases hdepth : depth = 0
  · cases hmode : r.fb.getDisplayMode displayMode with
    | none =>
        refine ⟨[.setDisplayMode displayMode depth], ?_⟩
        simp [step, hidle, setDisplayMode, Framebuffer.setDisplayMode, hdepth, hmode]
    | some dme =>
        have hbegin : r.step (.setDisplayMode displayMode depth) =
            some { r with setting := some (displayMode, .test) } := by
          simp [step, hidle, setDisplayMode, hdepth, hmode]
        -- the entry of the mode stays what it is
        have hnext : ∀ fb pc attributes calls timer restores buffers ret out,
            fb.customMode = r.fb.customMode →
            step ⟨fb, some (displayMode, pc), attributes, calls, timer, restores, buffers, ret,
              out⟩ .setDisplayModeStep = some (setDisplayModeStep ⟨fb, some (displayMode, pc),
              attributes, calls, timer, restores, buffers, ret, out⟩ displayMode dme pc) := by
          intro fb pc attributes calls timer restores buffers ret out hcustom
          have hentry : fb.getDisplayMode displayMode = some dme := by
            rw [← hmode, Framebuffer.getDisplayMode, Framebuffer.getDisplayMode, hcustom]
          simp [step, hentry]
        have hsteps : ∃ n, (ModeAction.setDisplayMode displayMode depth ::
            List.replicate n .setDisplayModeStep).foldlM step r = some { r with
              fb := (r.fb.setDisplayMode displayMode depth).2
              ret := (r.fb.setDisplayMode displayMode depth).1 } := by
          simp only [List.foldlM_cons, hbegin, Option.bind_eq_bind, Option.bind_some]
          by_cases hswitched : r.fb.customModeSwitched = true
          · by_cases hwidth : r.fb.customMode.width = dme.width
            · by_cases hheight : r.fb.customMode.height = dme.height
              · refine ⟨8, ?_⟩
                simp [List.replicate, hnext, setDisplayModeStep, Framebuffer.setDisplayMode,
                  Framebuffer.clearSwitched, Framebuffer.storeDisplayMode,
                  Framebuffer.storeDepthMode, hdepth, hmode, hswitched, hwidth, hheight, hidle]
              · refine ⟨7, ?_⟩
                simp [List.replicate, hnext, setDisplayModeStep, Framebuffer.setDisplayMode,
                  Framebuffer.storeDisplayMode,
                  Framebuffer.storeDepthMode, hdepth, hmode, hswitched, hwidth, hheight, hidle]
            · refine ⟨5, ?_⟩
              simp [List.replicate, hnext, setDisplayModeStep, Framebuffer.setDisplayMode,
                Framebuffer.storeDisplayMode, Framebuffer.storeDepthMode, hdepth, hmode,
                hswitched, hwidth, hidle]
          · refine ⟨5, ?_⟩
            simp [List.replicate, hnext, setDisplayModeStep, Framebuffer.setDisplayMode,
              Framebuffer.programMode, Framebuffer.storeDisplayMode, Framebuffer.storeDepthMode,
              hdepth, hmode, hswitched, hidle]
        obtain ⟨n, hn⟩ := hsteps
        exact ⟨_, hn⟩
  · refine ⟨[.setDisplayMode displayMode depth], ?_⟩
    simp [step, hidle, setDisplayMode, Framebuffer.setDisplayMode, hdepth]

/-- Without interruption the steps of `setAttribute` do what the method does. -/
theorem runsTo_setAttribute (r : ModeRun) (captured : Bool) (value : ℕ) :
    ∃ as : List ModeAction, as.foldlM step r =
      some { r with fb := r.fb.setAttribute captured value } := by
  rw [Framebuffer.setAttribute]
  split
  · rename_i htest
    refine ⟨[.setAttribute captured value, .setAttributeStore r.attributes.length], ?_⟩
    simp [step, ModeRun.setAttribute, Framebuffer.attributeSwitch, htest,
      List.eraseIdx_append_of_length_le]
  · rename_i htest
    refine ⟨[.setAttribute captured value], ?_⟩
    simp [step, ModeRun.setAttribute, Framebuffer.attributeSwitch, htest]

end ModeRun

/-! ### A device -/

/-- A device of at most 1600 by 1200. -/
def uxgaDevice : SVGAMode where
  maxWidth := 1600
  maxHeight := 1200
  fbOffset := 0
  fbSize := 0x1000000
  width := 1024
  height := 768
  reportedSize := fun width height => width * height * 4

/-- The display state on that device, under a kernel of the given version. -/
def uxgaFramebuffer (versionMajor : ℕ) : Framebuffer where
  svga := uxgaDevice
  customMode := ⟨800, 600, displayModeValidSafe⟩
  modes := Framebuffer.activeModes uxgaDevice
  displayMode := 3
  depthMode := 0
  customSwitch := 0
  customModeSwitched := false
  restoreCall := true
  versionMajor := versionMajor

/-- The framebuffer starts on the device. -/
theorem uxgaFramebuffer_start (versionMajor : ℕ) :
    Framebuffer.start uxgaDevice true versionMajor = some (uxgaFramebuffer versionMajor) := by
  rw [Framebuffer.start, if_neg (by decide)]
  rfl

/-- A request for a custom mode. -/
def customModeOf (width height : ℕ) : Framebuffer.CustomModeArgs where
  inData := some ⟨1, width, height⟩
  inSize := Framebuffer.customModeDataSize
  outData := true
  outSize := some Framebuffer.customModeDataSize

end DockerMacos
