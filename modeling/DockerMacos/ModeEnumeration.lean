import Mathlib.Data.List.GetD
import Mathlib.Data.List.Nodup
import Mathlib.Data.List.Range
import DockerMacos.ModeSwitch

/-!
# Enumerating the Modes

`getDisplayModeCount` and `getDisplayModes` each look at `m_custom_switch`: while it is set
there is one mode, the custom one, and else the whole list. Nothing keeps the switch from
being cleared between the two calls, and then the whole list goes into a buffer of one entry.

## Two calls

The two calls of an enumeration are steps of a run, each of them atomic: what is said about
`getDisplayModes` is said about the moment of that call, in which it looks at the switch and
copies the list.

## Swaps

What is written is otherwise in order: the list stays a permutation of the active modes, but
for the time between the two writes of a swap, when one id is there twice. A swap happens
while the switch is set, so an enumeration meets it only when a second `RestoreAllModes` call
has cleared the switch meanwhile.

## Main results

* `ModesInv.step`: one step, and what it keeps of the list.
* `listable_iff`: exactly when `getDisplayModes` writes distinct valid ids into its buffer.
* `mode_enumeration`: the enumerations of a run whose swaps do not overlap.
-/

namespace DockerMacos

namespace Framebuffer

/-- The ids are those of the mode list. -/
theorem mem_activeModes {svga : SVGAMode} {id : ℤ} (h : id ∈ activeModes svga) :
    1 ≤ id ∧ id ≤ numDisplayModes := by
  rw [activeModes, List.mem_filterMap] at h
  obtain ⟨i, hi, hid⟩ := h
  rw [List.mem_range] at hi
  split at hid
  · split at hid
    · cases hid
      omega
    · cases hid
  · cases hid

/-- No id is listed twice at first. -/
theorem activeModes_nodup (svga : SVGAMode) : (activeModes svga).Nodup := by
  refine List.Nodup.filterMap (fun i j id hi hj => ?_) List.nodup_range
  rw [Option.mem_def] at hi hj
  split at hi
  · split at hj
    · split at hi
      · split at hj
        · cases hi
          cases hj
          omega
        · cases hj
      · cases hi
    · cases hj
  · cases hi

/-- The listed ids are valid. -/
theorem getInformation_of_listed (f : Framebuffer) {id : ℤ}
    (h : 1 ≤ id ∧ id ≤ numDisplayModes) :
    (f.getInformationForDisplayMode id).1 = .success := by
  obtain ⟨dme, hdme⟩ : ∃ dme, f.getDisplayMode id = some dme := by
    rw [getDisplayMode, if_pos h]
    split
    · exact ⟨_, rfl⟩
    · have hlt : (id - 1).toNat < modeList.length := by
        change (id - 1).toNat < 26
        have hle : id ≤ 26 := h.2
        omega
      exact ⟨_, List.getElem?_eq_getElem hlt⟩
  rw [getInformationForDisplayMode, hdme]

end Framebuffer

/-! ### The list between the writes of a swap -/

/-- The second write of a swap that is still to come: `m_modes[i] = t`. -/
def RestorePc.pending : RestorePc → Option (ℕ × ℤ)
  | .swapping i t => some (i, t)
  | .found _ | .swapped | .switched => none

/-- The swaps between their two writes. -/
def ModeRun.pendingSwaps (r : ModeRun) : List (ℕ × ℤ) := r.restores.filterMap RestorePc.pending

/-- The mode list, a permutation of the active modes once the pending swap is done. -/
inductive SwapState (active : List ℤ) : List ℤ → List (ℕ × ℤ) → Prop
  | idle {modes : List ℤ} (perm : modes.Perm active) : SwapState active modes []
  | between {modes : List ℤ} {i : ℕ} {t : ℤ}
      (perm : (modes.set i t).Perm active)
      (lt : i < modes.length)
      (dup : modes.getD 0 0 = modes.getD i 0)
      (zero : i = 0 → t = modes.getD 0 0)
      (sub : modes ⊆ active) : SwapState active modes [(i, t)]

namespace SwapState

variable {active modes : List ℤ} {swaps : List (ℕ × ℤ)}

/-- No mode is lost or added. -/
theorem length (h : SwapState active modes swaps) : modes.length = active.length := by
  cases h with
  | idle perm => exact perm.length_eq
  | between perm => rw [← perm.length_eq, List.length_set]

/-- Every id is that of an active mode, also between the writes of a swap. -/
theorem sub (h : SwapState active modes swaps) : modes ⊆ active := by
  cases h with
  | idle perm => exact perm.subset
  | between _ _ _ _ sub => exact sub

/-- No id is there twice, but between the writes of a swap of two slots. -/
theorem nodup_iff (h : SwapState active modes swaps) (hactive : active.Nodup) :
    modes.Nodup ↔ ∀ p ∈ swaps, p.1 = 0 := by
  cases h with
  | idle perm => exact iff_of_true (perm.nodup_iff.mpr hactive) (by simp)
  | @between i t perm lt dup zero sub =>
      rw [List.forall_mem_singleton]
      constructor
      · intro hnodup
        have hzero : 0 < modes.length := by omega
        rw [List.getD_eq_getElem _ _ hzero, List.getD_eq_getElem _ _ lt] at dup
        exact ((hnodup.getElem_inj_iff).mp dup).symm
      · rintro rfl
        have hzero : 0 < modes.length := by omega
        have hset : modes.set 0 t = modes := by
          rw [zero rfl, List.getD_eq_getElem _ _ hzero, List.set_getElem_self]
        rw [hset] at perm
        exact perm.nodup_iff.mpr hactive

/-- There is at most one pending swap, so their order does not matter. -/
theorem perm_eq (h : SwapState active modes swaps) {others : List (ℕ × ℤ)}
    (hperm : swaps.Perm others) : others = swaps := by
  cases h with
  | idle => exact hperm.nil_eq.symm
  | between => exact hperm.singleton_eq.symm

/-- The first write of a swap. -/
theorem first (h : SwapState active modes []) {i : ℕ} (hi : i < active.length) :
    SwapState active (modes.set 0 (modes.getD i 0)) [(i, modes.getD 0 0)] := by
  have hlength := h.length
  cases h with
  | idle perm =>
      have hi : i < modes.length := by omega
      have hzero : 0 < modes.length := by omega
      rw [List.getD_eq_getElem _ _ hi, List.getD_eq_getElem _ _ hzero]
      refine .between ((List.set_set_perm hzero hi).trans perm) ?_ ?_ ?_ ?_
      · rwa [List.length_set]
      · rw [List.getD_eq_getElem _ _ (by rwa [List.length_set]),
          List.getD_eq_getElem _ _ (by rwa [List.length_set]), List.getElem_set_self,
          List.getElem_set]
        split
        · rfl
        · rfl
      · rintro rfl
        rw [List.getD_eq_getElem _ _ (by rwa [List.length_set]), List.getElem_set_self]
      · intro id hid
        rcases List.mem_or_eq_of_mem_set hid with hid | rfl
        · exact perm.subset hid
        · exact perm.subset (List.getElem_mem hi)

/-- The second write of a swap. -/
theorem second {i : ℕ} {t : ℤ} (h : SwapState active modes ((i, t) :: swaps)) :
    SwapState active (modes.set i t) swaps := by
  cases h with
  | between perm => exact .idle perm

end SwapState

/-! ### Runs -/

/-- What the enumerations rely on. -/
structure ModesInv (active : List ℤ) (r : ModeRun) : Prop where
  swaps : SwapState active r.fb.modes r.pendingSwaps
  slots : ∀ i, .found i ∈ r.restores → i < active.length
  buffers : ∀ count ∈ r.buffers, count = 1 ∨ count = active.length

/-- No swap is begun while another one is between its two writes. -/
def OneSwap (r : ModeRun) : ModeAction → Prop
  | .restoreStep k => ∀ i, r.restores[k]? = some (.found i) → r.pendingSwaps = []
  | _ => True

/-- The swaps pending after a step of call number `k` from `pc` to `next`. -/
theorem pendingSwaps_set {restores : List RestorePc} {k : ℕ} {pc : RestorePc}
    (next : RestorePc) (hpc : restores[k]? = some pc) : ∃ others,
    (restores.filterMap RestorePc.pending).Perm (pc.pending.toList ++ others) ∧
    ((restores.set k next).filterMap RestorePc.pending).Perm (next.pending.toList ++ others) ∧
    ((restores.eraseIdx k).filterMap RestorePc.pending) = others := by
  obtain ⟨hk, rfl⟩ := List.getElem?_eq_some_iff.mp hpc
  have hcons : ∀ x : RestorePc, (x :: restores.eraseIdx k).filterMap RestorePc.pending =
      x.pending.toList ++ (restores.eraseIdx k).filterMap RestorePc.pending := by
    intro x
    cases x with
    | _ => rfl
  refine ⟨(restores.eraseIdx k).filterMap RestorePc.pending, ?_, ?_, rfl⟩
  · rw [← hcons]
    exact ((List.getElem_cons_eraseIdx_perm hk).filterMap _).symm
  · rw [← hcons]
    exact (List.set_perm_cons_eraseIdx hk next).filterMap _

namespace ModesInv

variable {active : List ℤ} {r t : ModeRun}

/-- A step that leaves the modes, the `RestoreAllModes` calls and the buffers alone. -/
theorem frame (h : ModesInv active r) (hmodes : t.fb.modes = r.fb.modes)
    (hrestores : t.restores = r.restores) (hbuffers : t.buffers = r.buffers) :
    ModesInv active t := by
  obtain ⟨swaps, slots, buffers⟩ := h
  refine ⟨?_, ?_, ?_⟩
  · rwa [hmodes, ModeRun.pendingSwaps, hrestores]
  · rwa [hrestores]
  · rwa [hbuffers]

/-- `setDisplayMode` does not look at the mode list. -/
theorem setDisplayModeStep (h : ModesInv active r) (displayMode : ℤ) (dme : DisplayModeEntry)
    (pc : SetModePc) : ModesInv active (r.setDisplayModeStep displayMode dme pc) := by
  cases pc with
  | test | compareWidth | compareHeight =>
      simp only [ModeRun.setDisplayModeStep]
      split
      · exact h.frame rfl rfl rfl
      · exact h.frame rfl rfl rfl
  | _ => exact h.frame rfl rfl rfl

/-- The search of `RestoreAllModes` finds a slot of the list. -/
theorem restoreBegin (h : ModesInv active r) : ModesInv active r.restoreBegin := by
  rw [ModeRun.restoreBegin]
  split
  · exact h
  split
  · exact h
  · rename_i i hslot
    obtain ⟨swaps, slots, buffers⟩ := h
    refine ⟨?_, fun j hj => ?_, buffers⟩
    · rw [ModeRun.pendingSwaps] at swaps
      simpa [ModeRun.pendingSwaps, List.filterMap_cons, RestorePc.pending] using swaps
    · rcases List.mem_append.mp hj with hj | hj
      · exact slots j hj
      · rw [List.mem_singleton, RestorePc.found.injEq] at hj
        rw [hj, ← swaps.length]
        exact Framebuffer.findSlot_lt hslot

/-- A step of call number `k` of `RestoreAllModes`. -/
theorem restoreStep (h : ModesInv active r) {k : ℕ} {pc : RestorePc}
    (hpc : r.restores[k]? = some pc) (hone : ∀ i, pc = .found i → r.pendingSwaps = []) :
    ModesInv active (r.restoreStep k pc) := by
  obtain ⟨swaps, slots, buffers⟩ := h
  have hslots : ∀ next : RestorePc, (∀ i, next ≠ .found i) →
      ∀ i, .found i ∈ r.restores.set k next → i < active.length := by
    intro next hnext i hi
    rcases List.mem_or_eq_of_mem_set hi with hi | hi
    · exact slots i hi
    · exact absurd hi.symm (hnext i)
  cases pc with
  | found i =>
      obtain ⟨others, hbefore, hafter, -⟩ :=
        pendingSwaps_set (.swapping i (r.fb.modes.getD 0 0)) hpc
      have hnone := hone i rfl
      rw [ModeRun.pendingSwaps] at hnone
      rw [hnone] at hbefore
      have hothers : others = [] := by simpa [RestorePc.pending] using hbefore
      rw [hothers, RestorePc.pending, Option.toList_some, List.append_nil,
        List.perm_singleton] at hafter
      refine ⟨?_, hslots _ (by simp), buffers⟩
      rw [ModeRun.pendingSwaps, hnone] at swaps
      rw [ModeRun.pendingSwaps, ModeRun.restoreStep, hafter]
      exact swaps.first (slots i (List.mem_of_getElem? hpc))
  | swapping i t =>
      obtain ⟨others, hbefore, hafter, -⟩ := pendingSwaps_set .swapped hpc
      refine ⟨?_, hslots _ (by simp), buffers⟩
      have hothers := swaps.perm_eq hbefore
      rw [← hothers] at swaps
      have hdone : SwapState active (r.fb.modes.set i t) others := swaps.second
      rw [ModeRun.pendingSwaps, ModeRun.restoreStep, hdone.perm_eq hafter.symm]
      exact hdone
  | swapped =>
      obtain ⟨others, hbefore, hafter, -⟩ := pendingSwaps_set .switched hpc
      refine ⟨?_, hslots _ (by simp), buffers⟩
      have hothers := swaps.perm_eq (hbefore.trans hafter.symm)
      rw [ModeRun.pendingSwaps, ModeRun.restoreStep, hothers]
      exact swaps
  | switched =>
      obtain ⟨others, hbefore, -, hafter⟩ := pendingSwaps_set .switched hpc
      refine ⟨?_, fun i hi => slots i (List.mem_of_mem_eraseIdx hi), buffers⟩
      rw [ModeRun.pendingSwaps, ModeRun.restoreStep, hafter]
      have hothers := swaps.perm_eq hbefore
      rw [RestorePc.pending, Option.toList_none, List.nil_append] at hothers
      rwa [hothers]

/-- **A step** keeps the mode list a permutation, while swaps do not overlap. -/
theorem step (h : ModesInv active r) {a : ModeAction} (hone : OneSwap r a)
    (hstep : r.step a = some t) : ModesInv active t := by
  cases a with
  | setDisplayMode displayMode depth =>
      simp only [ModeRun.step] at hstep
      split at hstep <;> cases hstep
      rw [ModeRun.setDisplayMode]
      split
      · exact h.frame rfl rfl rfl
      split
      · exact h.frame rfl rfl rfl
      · exact h.frame rfl rfl rfl
  | setDisplayModeStep =>
      simp only [ModeRun.step, Option.bind_eq_some_iff, Option.map_eq_some_iff] at hstep
      obtain ⟨⟨displayMode, pc⟩, -, dme, -, rfl⟩ := hstep
      exact h.setDisplayModeStep displayMode dme pc
  | setAttribute captured value =>
      cases hstep
      exact h.frame rfl rfl rfl
  | setAttributeStore k =>
      simp only [ModeRun.step, Option.map_eq_some_iff] at hstep
      obtain ⟨value, -, rfl⟩ := hstep
      exact h.frame rfl rfl rfl
  | getDisplayModeCount =>
      cases hstep
      obtain ⟨swaps, slots, buffers⟩ := h
      refine ⟨swaps, slots, fun count hcount => ?_⟩
      rcases List.mem_append.mp hcount with hcount | hcount
      · exact buffers count hcount
      · rw [List.mem_singleton, Framebuffer.getDisplayModeCount, swaps.length] at hcount
        split at hcount
        · exact .inl hcount
        · exact .inr hcount
  | getDisplayModes k =>
      simp only [ModeRun.step] at hstep
      split at hstep <;> cases hstep
      exact ⟨h.swaps, h.slots, fun count hcount =>
        h.buffers count (List.mem_of_mem_eraseIdx hcount)⟩
  | customMode args =>
      cases hstep
      simp only [ModeRun.customMode]
      split
      · exact h.frame rfl rfl rfl
      · exact h.frame rfl rfl rfl
  | customModeStep k =>
      simp only [ModeRun.step, Option.bind_eq_some_iff] at hstep
      obtain ⟨pc, hpc, hstep⟩ := hstep
      cases pc with
      | wait value flags =>
          simp only [ModeRun.customModeStep] at hstep
          split at hstep <;> cases hstep
          exact h.frame rfl rfl rfl
      | _ =>
          cases hstep
          exact h.frame rfl rfl rfl
  | timerFires =>
      simp only [ModeRun.step] at hstep
      split at hstep <;> cases hstep
      exact (h.frame (t := { r with timer := false }) rfl rfl rfl).restoreBegin
  | restoreStep k =>
      simp only [ModeRun.step, Option.map_eq_some_iff] at hstep
      obtain ⟨pc, hpc, rfl⟩ := hstep
      exact h.restoreStep hpc fun i hi => hone i (hi ▸ hpc)

end ModesInv

/-- `getDisplayModes` into a buffer of `count` entries writes no more than that, and distinct
ids that `getInformationForDisplayMode` accepts. -/
def Enumerates (f : Framebuffer) (count : ℕ) : Prop :=
  f.getDisplayModes.length ≤ count ∧ f.getDisplayModes.Nodup ∧
    ∀ id ∈ f.getDisplayModes, (f.getInformationForDisplayMode id).1 = .success

/-- During the call of `getDisplayModes` the switch is set if it was set at the count, and if it
is not set, then no swap of two slots is between its writes. -/
def Listable (r : ModeRun) (count : ℕ) : Prop :=
  (count < r.fb.modes.length → r.fb.customSwitch ≠ 0) ∧
    (r.fb.customSwitch = 0 → ∀ p ∈ r.pendingSwaps, p.1 = 0)

/-- During a call of `getDisplayModes`, which is one step here, the ids fit into the buffer and
are distinct and valid iff the list may be read. -/
theorem listable_iff {active : List ℤ} {r : ModeRun} (h : ModesInv active r)
    (hactive : active.Nodup) (hvalid : ∀ id ∈ active, 1 ≤ id ∧ id ≤ numDisplayModes)
    (hpos : 0 < active.length) {k count : ℕ} (hk : r.buffers[k]? = some count) :
    Enumerates r.fb count ↔ Listable r count := by
  have hcount := h.buffers count (List.mem_of_getElem? hk)
  rw [Enumerates, Listable, Framebuffer.getDisplayModes]
  split
  · rename_i hswitch
    refine iff_of_true ⟨?_, List.nodup_singleton _, ?_⟩
      ⟨fun _ => hswitch, fun h => absurd h hswitch⟩
    · rw [List.length_singleton]
      omega
    · rw [List.forall_mem_singleton]
      exact r.fb.getInformation_of_listed (by decide)
  · rename_i hswitch
    rw [h.swaps.nodup_iff hactive]
    constructor
    · rintro ⟨hlength, hnodup, -⟩
      exact ⟨fun hlt => absurd hlength (by omega), fun _ => hnodup⟩
    · rintro ⟨hlength, hnodup⟩
      refine ⟨?_, hnodup (not_not.mp hswitch), fun id hid => ?_⟩
      · by_contra hlt
        exact hswitch (hlength (by omega))
      · exact r.fb.getInformation_of_listed (hvalid id (h.swaps.sub hid))

instance (r : ModeRun) : DecidablePred (OneSwap r)
  | .restoreStep k =>
      decidable_of_iff (∀ pc ∈ r.restores[k]?, pc matches .found _ → r.pendingSwaps = []) (by
        constructor
        · intro h i hi
          exact h _ hi rfl
        · rintro h pc hpc hfound
          cases pc with
          | found i => exact h i hpc
          | _ => cases hfound)
  | .setDisplayMode _ _ | .setDisplayModeStep | .setAttribute _ _ | .setAttributeStore _
  | .getDisplayModeCount | .getDisplayModes _ | .customMode _ | .customModeStep _
  | .timerFires => .isTrue trivial

/-- An enumeration that begins while a custom mode is being set. -/
def enumerationDuringRequest : List ModeAction :=
  [.customMode (customModeOf 1000 700), .customModeStep 0, .customModeStep 0, .customModeStep 0,
    .getDisplayModeCount]

/-- The window server sets the custom mode and releases its capture. -/
def releaseDuringEnumeration : List ModeAction :=
  enumerationDuringRequest ++ .setDisplayMode 1 0 :: List.replicate 5 .setDisplayModeStep ++
    [.setAttribute true 0, .setAttributeStore 0]

end DockerMacos
