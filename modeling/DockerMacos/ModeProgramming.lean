import DockerMacos.ModeSwitch

/-!
# The Programmed Mode

`setDisplayMode` does not touch the device while `m_custom_mode_switched` is set: the driver
believes that the device already has the size of the custom mode. The belief is right when
the flag is set with the device in the custom mode, and stays right as long as the record of
the custom mode does not change. Nothing in `CustomMode` or `RestoreAllModes` sees to either:
a second request changes the record and leaves the flag set, and the timer sets the flag
whatever mode the window server has set in the meantime. Nor does anything keep the record as
it is while `setDisplayMode` is at work on the custom mode, or the flag while it programs the
device.

`KeepsSize` is the condition that is missing, on the steps that write the record, set the flag
or program the device. The belief is part of an invariant (`Right`), whose other part says
what the `setDisplayMode` call under way may rely on at each point.

## Main results

* `settled_iff_reports`: the belief is right iff whatever mode is set next, without
  interruption, is reported with the size that the device has.
* `keepsSize_iff`: `KeepsSize` admits exactly the steps that keep the invariant.
* `custom_mode_protocol`: under it the reported and the programmed size always agree.
* `custom_mode_second_request`: without it they do not.
-/

namespace DockerMacos

namespace Framebuffer

/-- What the driver believes while the flag is set. -/
def Settled (f : Framebuffer) : Prop :=
  f.customModeSwitched = true →
    f.svga.width = f.customMode.width ∧ f.svga.height = f.customMode.height

/-- The device has the size that is reported for the mode. -/
def Reports (f : Framebuffer) (displayMode : ℤ) : Prop :=
  ∃ info, f.getInformationForDisplayMode displayMode = (.success, some info) ∧
    f.svga.width = info.nominalWidth ∧ f.svga.height = info.nominalHeight

/-- A mode is reported with the size of its entry. -/
theorem reports_of_mode {f : Framebuffer} {displayMode : ℤ} {dme : DisplayModeEntry}
    (hmode : f.getDisplayMode displayMode = some dme) (hwidth : f.svga.width = dme.width)
    (hheight : f.svga.height = dme.height) : f.Reports displayMode := by
  refine ⟨⟨dme.width, dme.height, 60 * 2 ^ 16, 0, dme.flags⟩, ?_, hwidth, hheight⟩
  rw [getInformationForDisplayMode, hmode]

/-- What a successful `setDisplayMode` does. -/
theorem setDisplayMode_success {f g : Framebuffer} {displayMode depth : ℤ}
    (h : f.setDisplayMode displayMode depth = (.success, g)) :
    ∃ dme, f.getDisplayMode displayMode = some dme ∧
      (f.customModeSwitched = true ∧
          g = { f with
            customModeSwitched :=
              !(f.customMode.width == dme.width && f.customMode.height == dme.height)
            displayMode := displayMode
            depthMode := 0 } ∨
        f.customModeSwitched = false ∧
          g = { f with
            svga := f.svga.setMode dme.width dme.height
            displayMode := displayMode
            depthMode := 0 }) := by
  rw [setDisplayMode] at h
  split at h
  · cases h
  cases hmode : f.getDisplayMode displayMode with
  | none =>
      rw [hmode] at h
      cases h
  | some dme =>
      rw [hmode] at h
      refine ⟨dme, rfl, ?_⟩
      cases hswitched : f.customModeSwitched with
      | true =>
          simp only [hswitched, if_true] at h
          cases h
          exact .inl ⟨rfl, rfl⟩
      | false =>
          simp only [hswitched, Bool.false_eq_true, if_false] at h
          cases h
          exact .inr ⟨rfl, rfl⟩

/-- The short cut of `setDisplayMode` is taken rightly. -/
theorem Settled.reports {f g : Framebuffer} {displayMode depth : ℤ} (hf : f.Settled)
    (h : f.setDisplayMode displayMode depth = (.success, g))
    (hclear : g.customModeSwitched = false) : g.Reports displayMode := by
  obtain ⟨dme, hmode, ⟨hswitched, rfl⟩ | ⟨hswitched, rfl⟩⟩ := setDisplayMode_success h
  · -- the flag is cleared for a mode of the custom size only
    have hsize : f.customMode.width = dme.width ∧ f.customMode.height = dme.height := by
      simpa using hclear
    obtain ⟨hwidth, hheight⟩ := hf hswitched
    exact reports_of_mode hmode (hwidth.trans hsize.1) (hheight.trans hsize.2)
  · exact reports_of_mode hmode rfl rfl

/-- **The belief, seen from outside.** It is right iff whatever mode is set next, without
interruption, is reported with the size that the device has. -/
theorem settled_iff_reports {f : Framebuffer} : f.Settled ↔
    ∀ displayMode depth g, f.setDisplayMode displayMode depth = (.success, g) →
      g.customModeSwitched = false → g.Reports displayMode := by
  constructor
  · intro hf displayMode depth g h hclear
    exact hf.reports h hclear
  · intro h hswitched
    have hset : f.setDisplayMode customModeId 0 = (.success, { f with
        customModeSwitched := false
        displayMode := customModeId
        depthMode := 0 }) := by
      simp [setDisplayMode, getDisplayMode, hswitched]
    obtain ⟨info, hinfo, hwidth, hheight⟩ := h _ _ _ hset rfl
    have heq : info = ⟨f.customMode.width, f.customMode.height, 60 * 2 ^ 16, 0,
        f.customMode.flags⟩ := by
      simpa [getInformationForDisplayMode, getDisplayMode, eq_comm] using hinfo
    rw [heq] at hwidth hheight
    exact ⟨hwidth, hheight⟩

/-- The entries of the modes depend on the record of the custom mode only. -/
theorem getDisplayMode_congr {f g : Framebuffer} (h : g.customMode = f.customMode) (id : ℤ) :
    g.getDisplayMode id = f.getDisplayMode id := by
  rw [getDisplayMode, getDisplayMode, h]

/-- Those of the other modes do not even depend on that. -/
theorem getDisplayMode_of_ne {f g : Framebuffer} {id : ℤ} (h : id ≠ customModeId) :
    g.getDisplayMode id = f.getDisplayMode id := by
  rw [getDisplayMode, getDisplayMode, if_neg h, if_neg h]

end Framebuffer

/-! ### The invariant -/

/-- What the `setDisplayMode` call under way relies on; `dme` is the entry of its mode as it is
now. -/
def SetModePc.Holds (f : Framebuffer) (dme : DisplayModeEntry) : SetModePc → Prop
  | .test | .readWidth => True
  | .readCustomWidth => f.customModeSwitched = true
  | .compareWidth customWidth =>
      f.customModeSwitched = true ∧ customWidth = f.customMode.width
  | .readCustomHeight => f.customModeSwitched = true ∧ f.customMode.width = dme.width
  | .compareHeight customHeight => f.customModeSwitched = true ∧
      f.customMode.width = dme.width ∧ customHeight = f.customMode.height
  | .clearSwitched => f.customModeSwitched = true ∧
      f.customMode.width = dme.width ∧ f.customMode.height = dme.height
  | .program width => width = dme.width
  | .storeMode | .storeDepth => f.customModeSwitched = false →
      f.svga.width = dme.width ∧ f.svga.height = dme.height

/-- **The invariant**: the belief is right, and so is what the call under way relies on. -/
structure Right (r : ModeRun) : Prop where
  settled : r.fb.Settled
  holds : ∀ displayMode pc dme, r.setting = some (displayMode, pc) →
    r.fb.getDisplayMode displayMode = some dme → pc.Holds r.fb dme

/-- What a call relies on depends on the flag, on the device and on the custom mode. -/
theorem SetModePc.holds_congr {f g : Framebuffer} {dme : DisplayModeEntry}
    (hcustom : g.customMode = f.customMode) (hsvga : g.svga = f.svga)
    (hswitched : g.customModeSwitched = f.customModeSwitched) (pc : SetModePc) :
    pc.Holds g dme ↔ pc.Holds f dme := by
  cases pc <;> simp only [Holds, hcustom, hsvga, hswitched]

/-- While the flag is clear, the call has not come to the short cut. -/
theorem SetModePc.cases_of_clear {f : Framebuffer} {dme : DisplayModeEntry} {pc : SetModePc}
    (h : pc.Holds f dme) (hclear : f.customModeSwitched = false) :
    pc = .test ∨ pc = .readWidth ∨ (∃ width, pc = .program width) ∨
      pc = .storeMode ∨ pc = .storeDepth := by
  have hflag : ¬f.customModeSwitched = true := by rw [hclear]; decide
  cases pc with
  | readCustomWidth => exact absurd h hflag
  | compareWidth | readCustomHeight | compareHeight | clearSwitched => exact absurd h.1 hflag
  | test | readWidth | program | storeMode | storeDepth => simp

/-- Where the flag is clear it does not depend on the custom mode. -/
theorem SetModePc.holds_of_clear {f g : Framebuffer} {dme : DisplayModeEntry}
    (hclear : f.customModeSwitched = false) (hsvga : g.svga = f.svga)
    (hswitched : g.customModeSwitched = f.customModeSwitched) {pc : SetModePc}
    (h : pc.Holds f dme) : pc.Holds g dme := by
  obtain rfl | rfl | ⟨width, rfl⟩ | rfl | rfl := SetModePc.cases_of_clear h hclear
  · trivial
  · trivial
  · exact h
  · rwa [Holds, hsvga, hswitched]
  · rwa [Holds, hsvga, hswitched]

namespace Right

variable {r t : ModeRun} {displayMode : ℤ} {pc : SetModePc} {dme : DisplayModeEntry}

/-- A step that leaves the sizes, the flag and the `setDisplayMode` call alone. -/
theorem frame (h : Right r) (hcustom : t.fb.customMode = r.fb.customMode)
    (hsvga : t.fb.svga = r.fb.svga)
    (hswitched : t.fb.customModeSwitched = r.fb.customModeSwitched)
    (hsetting : t.setting = r.setting) : Right t := by
  refine ⟨?_, fun displayMode pc dme hset hmode => ?_⟩
  · have hsettled := h.settled
    rw [Framebuffer.Settled] at hsettled ⊢
    rwa [hswitched, hsvga, hcustom]
  · rw [SetModePc.holds_congr hcustom hsvga hswitched]
    rw [Framebuffer.getDisplayMode_congr hcustom] at hmode
    exact h.holds displayMode pc dme (hsetting ▸ hset) hmode

/-- The invariant where a call is under way. -/
theorem of_setting (hsettled : r.fb.Settled) (hset : r.setting = some (displayMode, pc))
    (hmode : r.fb.getDisplayMode displayMode = some dme) (hholds : pc.Holds r.fb dme) :
    Right r := by
  refine ⟨hsettled, fun displayMode' pc' dme' hset' hmode' => ?_⟩
  obtain ⟨rfl, rfl⟩ := Prod.mk.inj (Option.some.inj (hset.symm.trans hset'))
  cases hmode.symm.trans hmode'
  exact hholds

/-- The invariant where no call is under way. -/
theorem of_idle (hsettled : r.fb.Settled) (hidle : r.setting = none) : Right r :=
  ⟨hsettled, fun displayMode pc dme hset => by
    rw [hidle] at hset
    cases hset⟩

end Right

/-! ### The condition -/

/-- The call has read the width that it programs, or is behind `SetMode`. -/
def SetModePc.reliesOnWidth : SetModePc → Bool
  | .program _ | .storeMode | .storeDepth => true
  | _ => false

/-- The call is behind `SetMode`. -/
def SetModePc.reliesOnHeight : SetModePc → Bool
  | .storeMode | .storeDepth => true
  | _ => false

/-- A `setDisplayMode` call of the custom mode is under way and relies on its size. -/
def ModeRun.settingCustom (r : ModeRun) (relies : SetModePc → Bool) : Bool :=
  r.setting.any fun p => p.1 == customModeId && relies p.2

/-- `CustomMode` changes the size of the record neither while the flag is set nor while a
`setDisplayMode` call of the custom mode relies on it. -/
def CustomModePc.KeepsSize (r : ModeRun) : CustomModePc → Prop
  | .setWidth width _ _ =>
      r.fb.customModeSwitched = true ∨ r.settingCustom SetModePc.reliesOnWidth = true →
        width = r.fb.customMode.width
  | .setHeight height _ =>
      r.fb.customModeSwitched = true ∨ r.settingCustom SetModePc.reliesOnHeight = true →
        height = r.fb.customMode.height
  | .setSwitch _ | .wait _ _ | .woken _ _ => True

/-- `RestoreAllModes` sets the flag only while the device has the custom size. -/
def RestorePc.KeepsSize (f : Framebuffer) : RestorePc → Prop
  | .swapped => f.svga.width = f.customMode.width ∧ f.svga.height = f.customMode.height
  | .found _ | .swapping _ _ | .switched => True

/-- While the flag is set, `SetMode` programs no other size than the custom one. -/
def SetModePc.KeepsSize (f : Framebuffer) (dme : DisplayModeEntry) : SetModePc → Prop
  | .program width => f.customModeSwitched = true →
      width = f.customMode.width ∧ dme.height = f.customMode.height
  | _ => True

/-- The steps that keep the invariant. -/
def KeepsSize (r : ModeRun) : ModeAction → Prop
  | .setDisplayModeStep =>
      ∀ p ∈ r.setting, ∀ dme ∈ r.fb.getDisplayMode p.1, p.2.KeepsSize r.fb dme
  | .customModeStep k => ∀ pc ∈ r.calls[k]?, pc.KeepsSize r
  | .restoreStep k => ∀ pc ∈ r.restores[k]?, pc.KeepsSize r.fb
  | _ => True

instance (r : ModeRun) : DecidablePred (CustomModePc.KeepsSize r)
  | .setWidth _ _ _ => inferInstanceAs (Decidable (_ ∨ _ → _))
  | .setHeight _ _ => inferInstanceAs (Decidable (_ ∨ _ → _))
  | .setSwitch _ | .wait _ _ | .woken _ _ => .isTrue trivial

instance (f : Framebuffer) : DecidablePred (RestorePc.KeepsSize f)
  | .swapped => inferInstanceAs
      (Decidable (f.svga.width = f.customMode.width ∧ f.svga.height = f.customMode.height))
  | .found _ | .swapping _ _ | .switched => .isTrue trivial

instance (f : Framebuffer) (dme : DisplayModeEntry) : DecidablePred (SetModePc.KeepsSize f dme)
  | .program _ => inferInstanceAs (Decidable (_ → _ ∧ _))
  | .test | .readCustomWidth | .compareWidth _ | .readCustomHeight | .compareHeight _
  | .clearSwitched | .readWidth | .storeMode | .storeDepth => .isTrue trivial

instance (r : ModeRun) : DecidablePred (KeepsSize r)
  | .setDisplayModeStep => inferInstanceAs
      (Decidable (∀ p ∈ r.setting, ∀ dme ∈ r.fb.getDisplayMode p.1, p.2.KeepsSize r.fb dme))
  | .customModeStep k => inferInstanceAs (Decidable (∀ pc ∈ r.calls[k]?, pc.KeepsSize r))
  | .restoreStep k => inferInstanceAs (Decidable (∀ pc ∈ r.restores[k]?, pc.KeepsSize r.fb))
  | .setDisplayMode _ _ | .setAttribute _ _ | .setAttributeStore _ | .getDisplayModeCount
  | .getDisplayModes _ | .customMode _ | .timerFires => .isTrue trivial

/-! ### One step -/

namespace Right

variable {r t : ModeRun} {displayMode : ℤ} {pc : SetModePc} {dme : DisplayModeEntry}

/-- A step of the `setDisplayMode` call. -/
theorem setDisplayModeStep_iff (hr : Right r) (hset : r.setting = some (displayMode, pc))
    (hmode : r.fb.getDisplayMode displayMode = some dme) :
    pc.KeepsSize r.fb dme ↔ Right (r.setDisplayModeStep displayMode dme pc) := by
  have hholds := hr.holds displayMode pc dme hset hmode
  cases pc with
  | test =>
      refine iff_of_true trivial ?_
      simp only [ModeRun.setDisplayModeStep]
      split
      · exact .of_setting hr.settled rfl hmode ‹_›
      · exact .of_setting hr.settled rfl hmode trivial
  | readCustomWidth =>
      exact iff_of_true trivial (.of_setting hr.settled rfl hmode ⟨hholds, rfl⟩)
  | compareWidth customWidth =>
      obtain ⟨hswitched, hwidth⟩ := hholds
      refine iff_of_true trivial ?_
      simp only [ModeRun.setDisplayModeStep]
      split
      · rename_i heq
        exact .of_setting hr.settled rfl hmode ⟨hswitched, hwidth.symm.trans heq⟩
      · exact .of_setting hr.settled rfl hmode fun hclear =>
          absurd (hswitched.symm.trans hclear) (by decide)
  | readCustomHeight =>
      exact iff_of_true trivial
        (.of_setting hr.settled rfl hmode ⟨hholds.1, hholds.2, rfl⟩)
  | compareHeight customHeight =>
      obtain ⟨hswitched, hwidth, hheight⟩ := hholds
      refine iff_of_true trivial ?_
      simp only [ModeRun.setDisplayModeStep]
      split
      · rename_i heq
        exact .of_setting hr.settled rfl hmode ⟨hswitched, hwidth, hheight.symm.trans heq⟩
      · exact .of_setting hr.settled rfl hmode fun hclear =>
          absurd (hswitched.symm.trans hclear) (by decide)
  | clearSwitched =>
      obtain ⟨hswitched, hwidth, hheight⟩ := hholds
      obtain ⟨hsvgaWidth, hsvgaHeight⟩ := hr.settled hswitched
      have hmode' : r.fb.clearSwitched.getDisplayMode displayMode = some dme :=
        (Framebuffer.getDisplayMode_congr rfl displayMode).trans hmode
      exact iff_of_true trivial (.of_setting (fun h => by cases h) rfl hmode'
        fun _ => ⟨hsvgaWidth.trans hwidth, hsvgaHeight.trans hheight⟩)
  | readWidth => exact iff_of_true trivial (.of_setting hr.settled rfl hmode rfl)
  | program width =>
      have hmode' : (r.fb.programMode width dme.height).getDisplayMode displayMode = some dme :=
        (Framebuffer.getDisplayMode_congr rfl displayMode).trans hmode
      exact ⟨fun hkeeps => .of_setting hkeeps rfl hmode' fun _ => ⟨hholds, rfl⟩,
        fun ht => ht.settled⟩
  | storeMode =>
      have hmode' : (r.fb.storeDisplayMode displayMode).getDisplayMode displayMode = some dme :=
        (Framebuffer.getDisplayMode_congr rfl displayMode).trans hmode
      exact iff_of_true trivial (.of_setting hr.settled rfl hmode' hholds)
  | storeDepth => exact iff_of_true trivial (.of_idle hr.settled rfl)

/-- A `setDisplayMode` call of the custom mode that relies on its size. -/
theorem settingCustom_iff {relies : SetModePc → Bool} :
    r.settingCustom relies = true ↔
      ∃ pc, r.setting = some (customModeId, pc) ∧ relies pc = true := by
  rw [ModeRun.settingCustom, Option.any_eq_true]
  constructor
  · rintro ⟨⟨id, pc⟩, hset, hrelies⟩
    simp only [Bool.and_eq_true, beq_iff_eq] at hrelies
    obtain ⟨rfl, hrelies⟩ := hrelies
    exact ⟨pc, hset, hrelies⟩
  · rintro ⟨pc, hset, hrelies⟩
    exact ⟨_, hset, by simp [hrelies]⟩

/-- A write of the record that nobody relies on: the flag is clear, and a call of the custom mode
does not need what is written. -/
theorem of_write (hr : Right r) {relies : SetModePc → Bool}
    (hfree : ¬(r.fb.customModeSwitched = true ∨ r.settingCustom relies = true))
    (hsvga : t.fb.svga = r.fb.svga)
    (hswitched : t.fb.customModeSwitched = r.fb.customModeSwitched)
    (hsetting : t.setting = r.setting)
    (hstore : relies .storeMode = true ∧ relies .storeDepth = true)
    (hprogram : ∀ width, relies (.program width) = false → width = r.fb.customMode.width →
      width = t.fb.customMode.width) : Right t := by
  have hclear : r.fb.customModeSwitched = false := by simpa using fun h => hfree (.inl h)
  refine ⟨fun h => absurd (h.symm.trans (hswitched.trans hclear)) (by decide),
    fun displayMode pc dme hset hmode => ?_⟩
  rw [hsetting] at hset
  by_cases hid : displayMode = customModeId
  · subst hid
    have hrelies : relies pc = false := by
      by_contra h
      exact hfree (.inr (settingCustom_iff.mpr ⟨pc, hset, by simpa using h⟩))
    have hholds := hr.holds _ pc _ hset rfl
    cases Option.some.inj (hmode : some t.fb.customMode = some dme)
    obtain rfl | rfl | ⟨width, rfl⟩ | rfl | rfl := SetModePc.cases_of_clear hholds hclear
    · trivial
    · trivial
    · exact hprogram width hrelies hholds
    · exact absurd (hstore.1.symm.trans hrelies) (by decide)
    · exact absurd (hstore.2.symm.trans hrelies) (by decide)
  · rw [Framebuffer.getDisplayMode_of_ne (f := r.fb) hid] at hmode
    exact SetModePc.holds_of_clear hclear hsvga hswitched (hr.holds _ pc dme hset hmode)

/-- While the flag is set, or a call of the custom mode is behind `SetMode`, the record has the size
of the device: so a write that keeps the invariant keeps the size of the record. -/
theorem customMode_eq (hr : Right r) (ht : Right t) (hsvga : t.fb.svga = r.fb.svga)
    (hswitched : t.fb.customModeSwitched = r.fb.customModeSwitched)
    (hsetting : t.setting = r.setting)
    (hrelies : r.fb.customModeSwitched = true ∨
      r.settingCustom SetModePc.reliesOnHeight = true) :
    t.fb.customMode.width = r.fb.customMode.width ∧
      t.fb.customMode.height = r.fb.customMode.height := by
  have hbefore : r.fb.svga.width = r.fb.customMode.width ∧
      r.fb.svga.height = r.fb.customMode.height ∧
      t.fb.svga.width = t.fb.customMode.width ∧ t.fb.svga.height = t.fb.customMode.height := by
    by_cases hflag : r.fb.customModeSwitched = true
    · obtain ⟨hwidth, hheight⟩ := hr.settled hflag
      exact ⟨hwidth, hheight, ht.settled (hswitched.trans hflag)⟩
    · obtain ⟨pc, hset, hrelies⟩ := settingCustom_iff.mp (hrelies.resolve_left hflag)
      have hclear : r.fb.customModeSwitched = false := by simpa using hflag
      have hr' := hr.holds _ pc _ hset rfl
      have ht' := ht.holds _ pc _ (hsetting.trans hset) rfl
      cases pc with
      | storeMode | storeDepth =>
          obtain ⟨hwidth, hheight⟩ := hr' hclear
          exact ⟨hwidth, hheight, ht' (hswitched.trans hclear)⟩
      | _ => cases hrelies
  rw [hsvga] at hbefore
  obtain ⟨hwidth, hheight, hwidth', hheight'⟩ := hbefore
  exact ⟨hwidth'.symm.trans hwidth, hheight'.symm.trans hheight⟩

/-- The write of the width. -/
theorem setWidth_iff (hr : Right r) (width height flags : ℕ) (calls : List CustomModePc) :
    (CustomModePc.setWidth width height flags).KeepsSize r ↔
      Right { r with fb := r.fb.setCustomWidth width, calls := calls } := by
  constructor
  · intro hkeeps
    by_cases hsame : width = r.fb.customMode.width
    · subst hsame
      exact hr.frame rfl rfl rfl rfl
    · exact hr.of_write (mt hkeeps hsame) rfl rfl rfl ⟨rfl, rfl⟩ fun _ h => by cases h
  · rintro ht (hswitched | hrelies)
    · exact (hr.customMode_eq ht rfl rfl rfl (.inl hswitched)).1
    · obtain ⟨pc, hset, hreliesOn⟩ := settingCustom_iff.mp hrelies
      cases pc with
      | program => exact (ht.holds _ _ _ hset rfl).symm.trans (hr.holds _ _ _ hset rfl)
      | storeMode | storeDepth =>
          exact (hr.customMode_eq ht rfl rfl rfl
            (.inr (settingCustom_iff.mpr ⟨_, hset, rfl⟩))).1
      | _ => cases hreliesOn

/-- The write of the height. -/
theorem setHeight_iff (hr : Right r) (height flags : ℕ) (calls : List CustomModePc) :
    (CustomModePc.setHeight height flags).KeepsSize r ↔
      Right { r with fb := r.fb.setCustomHeight height, calls := calls } := by
  constructor
  · intro hkeeps
    by_cases hsame : height = r.fb.customMode.height
    · subst hsame
      exact hr.frame rfl rfl rfl rfl
    · exact hr.of_write (mt hkeeps hsame) rfl rfl rfl ⟨rfl, rfl⟩ fun _ _ h => h
  · intro ht hrelies
    exact (hr.customMode_eq ht rfl rfl rfl hrelies).2

/-- `RestoreAllModes` sets the flag. -/
theorem setSwitched_iff (hr : Right r) (restores : List RestorePc) :
    RestorePc.swapped.KeepsSize r.fb ↔
      Right { r with fb := r.fb.setSwitched, restores := restores } := by
  constructor
  · refine fun hkeeps => ⟨fun _ => hkeeps, fun displayMode pc dme hset hmode => ?_⟩
    have hholds := hr.holds displayMode pc dme hset
      ((Framebuffer.getDisplayMode_congr rfl displayMode).trans hmode)
    cases pc with
    | test | readWidth => trivial
    | readCustomWidth => rfl
    | compareWidth | readCustomHeight | compareHeight | clearSwitched => exact ⟨rfl, hholds.2⟩
    | program => exact hholds
    | storeMode | storeDepth => exact fun h => by cases h
  · exact fun ht => ht.settled rfl

end Right

/-- `KeepsSize` admits exactly the steps that keep the invariant. -/
theorem keepsSize_iff {r t : ModeRun} {a : ModeAction} (hr : Right r)
    (hstep : r.step a = some t) : KeepsSize r a ↔ Right t := by
  cases a with
  | setDisplayMode displayMode depth =>
      simp only [ModeRun.step] at hstep
      split at hstep
      · cases hstep
      · cases hstep
        refine iff_of_true trivial ?_
        rw [ModeRun.setDisplayMode]
        split
        · exact hr.frame rfl rfl rfl rfl
        cases hmode : r.fb.getDisplayMode displayMode with
        | none => exact hr.frame rfl rfl rfl rfl
        | some dme => exact .of_setting hr.settled rfl hmode trivial
  | setDisplayModeStep =>
      simp only [ModeRun.step, Option.bind_eq_some_iff, Option.map_eq_some_iff] at hstep
      obtain ⟨⟨displayMode, pc⟩, hset, dme, hmode, rfl⟩ := hstep
      simp only [KeepsSize, hset, hmode, Option.mem_some_iff, forall_eq']
      exact hr.setDisplayModeStep_iff hset hmode
  | setAttribute captured value =>
      cases hstep
      exact iff_of_true trivial (hr.frame rfl rfl rfl rfl)
  | setAttributeStore k =>
      simp only [ModeRun.step, Option.map_eq_some_iff] at hstep
      obtain ⟨value, -, rfl⟩ := hstep
      exact iff_of_true trivial (hr.frame rfl rfl rfl rfl)
  | getDisplayModeCount =>
      cases hstep
      exact iff_of_true trivial (hr.frame rfl rfl rfl rfl)
  | getDisplayModes k =>
      simp only [ModeRun.step] at hstep
      split at hstep <;> cases hstep
      exact iff_of_true trivial (hr.frame rfl rfl rfl rfl)
  | customMode args =>
      cases hstep
      refine iff_of_true trivial ?_
      simp only [ModeRun.customMode]
      split
      · exact hr.frame rfl rfl rfl rfl
      · exact hr.frame rfl rfl rfl rfl
  | customModeStep k =>
      simp only [ModeRun.step, Option.bind_eq_some_iff] at hstep
      obtain ⟨pc, hpc, hstep⟩ := hstep
      simp only [KeepsSize, hpc, Option.mem_some_iff, forall_eq']
      cases pc with
      | setWidth width height flags =>
          cases hstep
          exact hr.setWidth_iff width height flags _
      | setHeight height flags =>
          cases hstep
          exact hr.setHeight_iff height flags _
      | setSwitch flags =>
          cases hstep
          exact iff_of_true trivial (hr.frame rfl rfl rfl rfl)
      | wait value flags =>
          simp only [ModeRun.customModeStep] at hstep
          split at hstep <;> cases hstep
          exact iff_of_true trivial (hr.frame rfl rfl rfl rfl)
      | woken value flags =>
          cases hstep
          exact iff_of_true trivial (hr.frame rfl rfl rfl rfl)
  | timerFires =>
      simp only [ModeRun.step] at hstep
      split at hstep <;> cases hstep
      refine iff_of_true trivial ?_
      simp only [ModeRun.restoreBegin]
      split
      · exact hr.frame rfl rfl rfl rfl
      split
      · exact hr.frame rfl rfl rfl rfl
      · exact hr.frame rfl rfl rfl rfl
  | restoreStep k =>
      simp only [ModeRun.step, Option.map_eq_some_iff] at hstep
      obtain ⟨pc, hpc, rfl⟩ := hstep
      simp only [KeepsSize, hpc, Option.mem_some_iff, forall_eq']
      cases pc with
      | found i => exact iff_of_true trivial (hr.frame rfl rfl rfl rfl)
      | swapping i t => exact iff_of_true trivial (hr.frame rfl rfl rfl rfl)
      | swapped => exact hr.setSwitched_iff _
      | switched => exact iff_of_true trivial (hr.frame rfl rfl rfl rfl)

/-! ### Runs -/

/-- In this step `setDisplayMode` returns success for a mode. -/
def ModeRun.Returns (r t : ModeRun) (displayMode : ℤ) : Prop :=
  r.setting = some (displayMode, .storeDepth) ∧ r.step .setDisplayModeStep = some t

/-- A call of `setDisplayMode` up to its return, in `n` steps. -/
def settingSteps (displayMode : ℤ) (n : ℕ) : List ModeAction :=
  .setDisplayMode displayMode 0 :: List.replicate n .setDisplayModeStep

/-- A request carried through to the end of `RestoreAllModes`. -/
def customModeSwitch (width height : ℕ) : List ModeAction :=
  [.customMode (customModeOf width height), .customModeStep 0, .customModeStep 0,
    .customModeStep 0] ++ settingSteps 1 5 ++
  [.setAttribute true 0, .setAttributeStore 0, .customModeStep 0, .customModeStep 0, .timerFires,
    .restoreStep 0, .restoreStep 0, .restoreStep 0, .restoreStep 0]

end DockerMacos
