import DockerMacos.ModeEnumeration

/-!
# The Initial Mode

`start` lists the modes that fit the device, and then looks for its current mode on its own:
`TryDetectCurrentDisplayMode` searches the table for the current size, and falls back on the
entry flagged as the default. It searches the whole table, not the list.

## The condition

So the mode that is selected need not be in the list. A current size that the table has is
selected whether or not it fits the device's maximum, and the default of 1024 by 768 is, too.
`SelectsFitting` says on the device's registers alone that the size which is selected fits.

## Main definitions

* `InitialModeRight`: what the selected mode should be.
* `SelectsFitting`: the condition for this.

## Main results

* `tryDetect_size`: a current size of the table is detected.
* `initialMode_iff`: when the mode that `start` selects is one of its list.
-/

namespace DockerMacos

namespace Framebuffer

/-- The size `m` fits the device. -/
def FitsMax (svga : SVGAMode) (m : DisplayModeEntry) : Prop :=
  m.width ≤ svga.maxWidth ∧ m.height ≤ svga.maxHeight

instance (svga : SVGAMode) (m : DisplayModeEntry) : Decidable (FitsMax svga m) :=
  inferInstanceAs (Decidable (_ ∧ _))

/-- `m` has the size of the device's current mode. -/
def IsCurrentSize (svga : SVGAMode) (m : DisplayModeEntry) : Prop :=
  m.width = svga.width ∧ m.height = svga.height

instance (svga : SVGAMode) (m : DisplayModeEntry) : Decidable (IsCurrentSize svga m) :=
  inferInstanceAs (Decidable (_ ∧ _))

/-- The selected mode is one of the active modes, and has the current size when an active mode
has it. -/
structure InitialModeRight (f : Framebuffer) : Prop where
  active : f.displayMode ∈ f.modes
  size : (∃ id ∈ f.modes, ∃ m, f.getDisplayMode id = some m ∧ IsCurrentSize f.svga m) →
    ∃ m, f.getDisplayMode f.displayMode = some m ∧ IsCurrentSize f.svga m

/-- The size that `start` selects fits the device: a current size that the table lists, and
else the default of 1024 by 768. -/
def SelectsFitting (svga : SVGAMode) : Prop :=
  if ∃ m ∈ modeList, IsCurrentSize svga m then
    svga.width ≤ svga.maxWidth ∧ svga.height ≤ svga.maxHeight
  else 1024 ≤ svga.maxWidth ∧ 768 ≤ svga.maxHeight

/-! ### The list and the search -/

/-- The active modes are the entries of the table that fit. -/
theorem mem_activeModes_iff {svga : SVGAMode} {i : ℕ} {m : DisplayModeEntry}
    (hm : modeList[i]? = some m) : (i + 1 : ℤ) ∈ activeModes svga ↔ FitsMax svga m := by
  have hi : i < numDisplayModes := (List.getElem?_eq_some_iff.mp hm).1
  rw [activeModes, List.mem_filterMap]
  constructor
  · rintro ⟨j, -, hj⟩
    split at hj
    · next n hn =>
      split at hj
      · next hfits =>
        obtain rfl : j = i := by
          have := Option.some.inj hj
          omega
        obtain rfl : n = m := Option.some.inj (hn.symm.trans hm)
        exact hfits
      · cases hj
    · cases hj
  · intro hfits
    exact ⟨i, List.mem_range.mpr hi, by rw [hm]; exact if_pos hfits⟩

/-- The first entry of the table stands in its second place too. -/
theorem modeList_first_size (svga : SVGAMode) :
    (∃ m ∈ modeList, IsCurrentSize svga m) ↔ ∃ m ∈ modeList.drop 1, IsCurrentSize svga m := by
  constructor
  · rintro ⟨m, hm, hsize⟩
    rw [modeList, List.mem_cons] at hm
    rcases hm with rfl | hm
    · exact ⟨_, List.mem_cons_self, hsize⟩
    · exact ⟨m, hm, hsize⟩
  · rintro ⟨m, hm, hsize⟩
    exact ⟨m, List.mem_of_mem_drop hm, hsize⟩

/-- A current size of the table is detected: the mode found has this size. -/
theorem tryDetect_size {svga : SVGAMode} (h : ∃ m ∈ modeList, IsCurrentSize svga m)
    (defaultMode : ℤ) : ∃ (i : ℕ) (m : DisplayModeEntry),
      tryDetectCurrentDisplayMode svga defaultMode = i + 2 ∧
      modeList[i + 1]? = some m ∧ IsCurrentSize svga m := by
  rw [tryDetectCurrentDisplayMode]
  split
  · next i hi =>
    obtain ⟨hlt, hsame, -⟩ := List.findIdx?_eq_some_iff_getElem.mp hi
    rw [Bool.and_eq_true, beq_iff_eq, beq_iff_eq, List.getElem_drop] at hsame
    refine ⟨i, _, rfl, ?_, hsame.1.symm, hsame.2.symm⟩
    rw [Nat.add_comm i 1]
    exact List.getElem?_eq_getElem _
  · next hnone =>
    obtain ⟨m, hm, hsize⟩ := (modeList_first_size svga).mp h
    have := List.findIdx?_eq_none_iff.mp hnone m hm
    simp [hsize.1, hsize.2] at this

/-- A current size that the table does not list is taken for the default mode. -/
theorem tryDetect_default {svga : SVGAMode} (h : ¬∃ m ∈ modeList, IsCurrentSize svga m)
    (defaultMode : ℤ) : tryDetectCurrentDisplayMode svga defaultMode = 3 := by
  have hnone : (modeList.drop 1).findIdx? (fun m => svga.width == m.width &&
      svga.height == m.height) = none := by
    rw [List.findIdx?_eq_none_iff]
    intro m hm
    by_contra hsame
    rw [Bool.not_eq_false, Bool.and_eq_true, beq_iff_eq, beq_iff_eq] at hsame
    exact h ⟨m, List.mem_of_mem_drop hm, hsame.1.symm, hsame.2.symm⟩
  have hflag : (modeList.drop 1).reverse.findIdx? (·.flags.testBit 2) = some 23 := by decide
  simp only [tryDetectCurrentDisplayMode, hnone, hflag]
  decide

/-! ### The selected mode -/

/-- What `start` selects, and where it looks for it. -/
theorem start_eq {svga : SVGAMode} {restoreCall : Bool} {versionMajor : ℕ} {f : Framebuffer}
    (h : start svga restoreCall versionMajor = some f) :
    f.svga = svga ∧ f.customMode = ⟨800, 600, displayModeValidSafe⟩ ∧
      f.modes = activeModes svga ∧ f.displayMode = tryDetectCurrentDisplayMode svga 3 := by
  rw [start] at h
  split at h
  · cases h
  · cases h
    exact ⟨rfl, rfl, rfl, rfl⟩

/-- The entry of a listed mode. -/
theorem getDisplayMode_listed {f : Framebuffer} {i : ℕ} {m : DisplayModeEntry}
    (hm : modeList[i]? = some m) (hi : 0 < i) : f.getDisplayMode (i + 1) = some m := by
  have hlt : i < numDisplayModes := (List.getElem?_eq_some_iff.mp hm).1
  rw [getDisplayMode, if_neg (by rw [customModeId]; omega), if_pos (by omega)]
  rw [show ((i : ℤ) + 1 - 1).toNat = i by omega, hm]

/-- Every mode has a size of the table, right after `start`. -/
theorem getDisplayMode_mem {f : Framebuffer} (h : f.customMode = ⟨800, 600, displayModeValidSafe⟩)
    {id : ℤ} {m : DisplayModeEntry} (hm : f.getDisplayMode id = some m) : m ∈ modeList := by
  rw [getDisplayMode] at hm
  split at hm
  · rw [h] at hm
    cases hm
    exact List.mem_cons_self
  · split at hm
    · exact List.mem_of_getElem? hm
    · cases hm

/-- **The initial mode.** When `start` succeeds, the mode it selects is active, and has the
current size when an active mode has it, exactly when the size it selects fits the device. -/
theorem initialMode_iff {svga : SVGAMode} {restoreCall : Bool} {versionMajor : ℕ}
    {f : Framebuffer} (h : start svga restoreCall versionMajor = some f) :
    f.InitialModeRight ↔ SelectsFitting svga := by
  obtain ⟨hsvga, hcustom, hmodes, hmode⟩ := start_eq h
  rw [SelectsFitting]
  split
  · next hlisted =>
    obtain ⟨i, m, hi, hm, hsize⟩ := tryDetect_size hlisted 3
    have hid : f.displayMode = ((i + 1 : ℕ) : ℤ) + 1 := by rw [hmode, hi]; omega
    have hactive : f.displayMode ∈ f.modes ↔
        svga.width ≤ svga.maxWidth ∧ svga.height ≤ svga.maxHeight := by
      rw [hmodes, hid, mem_activeModes_iff hm, FitsMax, hsize.1, hsize.2]
    rw [← hactive]
    refine ⟨fun hright => hright.active, fun hact => ⟨hact, fun _ => ⟨m, ?_, hsvga ▸ hsize⟩⟩⟩
    rw [hid, getDisplayMode_listed hm (Nat.succ_pos i)]
  · next hunlisted =>
    have hid : f.displayMode = ((2 : ℕ) : ℤ) + 1 := by
      rw [hmode, tryDetect_default hunlisted]
      rfl
    have hactive : f.displayMode ∈ f.modes ↔ 1024 ≤ svga.maxWidth ∧ 768 ≤ svga.maxHeight := by
      rw [hmodes, hid, mem_activeModes_iff (m := ⟨1024, 768, _⟩) rfl, FitsMax]
    rw [← hactive]
    refine ⟨fun hright => hright.active, fun hact => ⟨hact, ?_⟩⟩
    rintro ⟨id, -, m, hm, hsize⟩
    exact absurd ⟨m, getDisplayMode_mem hcustom hm, hsvga ▸ hsize⟩ hunlisted

/-- A device of 1152 by 720 in a mode of 640 by 480. -/
def wideDevice : SVGAMode where
  maxWidth := 1152
  maxHeight := 720
  fbOffset := 0
  fbSize := 0
  width := 640
  height := 480
  reportedSize := fun _ _ => 0

/-- In a mode of its table the device keeps it. -/
theorem initialMode_iff_current : ∃ f,
    start { wideDevice with width := 800, height := 600 } true 10 = some f ∧
      f.InitialModeRight := by
  have hstart : start { wideDevice with width := 800, height := 600 } true 10 = some _ := rfl
  refine ⟨_, rfl, (initialMode_iff hstart).mpr ?_⟩
  rw [SelectsFitting, if_pos ⟨⟨800, 600, displayModeValidSafe⟩, List.mem_cons_self, rfl, rfl⟩]
  decide

/-- In a mode outside the table it gets one that it does not fit. -/
theorem initialMode_inactive : ∃ f,
    start wideDevice true 10 = some f ∧ ¬f.InitialModeRight :=
  ⟨_, rfl, fun h => absurd h.active (by decide)⟩

end Framebuffer

end DockerMacos
