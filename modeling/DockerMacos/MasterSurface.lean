import Mathlib.Data.List.Basic
import Mathlib.Data.Int.Notation
import DockerMacos.Accel
import DockerMacos.Run

/-!
# The Master Surface

Surfaces that are shown through SVGA3D share one host surface of the size of the screen
(`AC/VMsvga2Accel.cpp`). `retainMasterSurface` counts them and creates the host surface for
the first; `releaseMasterSurface` destroys it after the last.

## Interleaving

The count is changed by one atomic step and the host surface is created or destroyed by another,
without a lock that covers both, so calls of different surfaces can come in between. Where a
surface stands is its `MasterPc`.

## What can go wrong

`createSurface` returns success also when its command is not emitted; then the host surface
is not there although the surface holds a reference. And a first retain may create the host
surface before the last release has destroyed the one before. `Orderly` excludes both. The id
that `AllocSurfaceID` gives is part of the step: it is valid and not in use.

## Main results

* `MasterInv.step`: the invariant of the orderly steps.
* `master_surface`: under them the host surface and the references agree.
* `master_surface_crossed`: a last release and a first retain that cross.
-/

namespace DockerMacos

/-- Where a surface stands with its reference. -/
inductive MasterPc
  | out
  /-- In `retainMasterSurface`, having counted up from zero. -/
  | creating
  /-- About to reset the count, in either call. -/
  | resetting
  | held
  /-- In `releaseMasterSurface`, having counted down from one. -/
  | destroying
  deriving DecidableEq

/-- A moment of a run of the surfaces. -/
structure MasterRun where
  haveSVGA3D : Bool
  /-- `m_master_surface_retain_count`. -/
  retainCount : ℤ
  masterSurfaceId : ℕ
  /-- The ids that are allocated for master surfaces. -/
  ids : List ℕ
  /-- The master surfaces on the host. -/
  host : List ℕ
  surfaces : List MasterPc

/-- The steps; `k` is the number of the surface. -/
inductive MasterAction
  | retain (k : ℕ)
  /-- `createMasterSurface`, with the id it allocates and whether its command is emitted. -/
  | create (k id : ℕ) (emitted : Bool)
  | reset (k : ℕ)
  | release (k : ℕ)
  | destroy (k : ℕ)

namespace MasterRun

/-- The start of a run with `n` surfaces. -/
def start (n : ℕ) (haveSVGA3D : Bool) : MasterRun where
  haveSVGA3D := haveSVGA3D
  retainCount := 0
  masterSurfaceId := svgaIdInvalid
  ids := []
  host := []
  surfaces := List.replicate n .out

/-- `AllocSurfaceID`, when it gives `id`. -/
def allocSurfaceID (s : MasterRun) (id : ℕ) : MasterRun := { s with ids := id :: s.ids }

/-- `FreeSurfaceID`. -/
def freeSurfaceID (s : MasterRun) (id : ℕ) : MasterRun := { s with ids := s.ids.erase id }

/-- `createSurface`; `emitted` tells whether the FIFO takes the command. -/
def createSurface (s : MasterRun) (sid : ℕ) (emitted : Bool) : IOReturn × MasterRun :=
  if !s.haveSVGA3D then (.noDevice, s)
  else (.success, if emitted then { s with host := sid :: s.host } else s)

/-- `destroySurface`. -/
def destroySurface (s : MasterRun) (sid : ℕ) : IOReturn × MasterRun :=
  if !s.haveSVGA3D then (.noDevice, s) else (.success, { s with host := s.host.erase sid })

/-- `createMasterSurface`. -/
def createMasterSurface (s : MasterRun) (id : ℕ) (emitted : Bool) : Bool × MasterRun :=
  let s := { s.allocSurfaceID id with masterSurfaceId := id }
  match s.createSurface s.masterSurfaceId emitted with
  | (.success, s) => (true, s)
  | (_, s) => (false, { s.freeSurfaceID s.masterSurfaceId with masterSurfaceId := svgaIdInvalid })

/-- `destroyMasterSurface`. -/
def destroyMasterSurface (s : MasterRun) : MasterRun :=
  if !isIdValid s.masterSurfaceId then s
  else
    { (s.destroySurface s.masterSurfaceId).2.freeSurfaceID s.masterSurfaceId with
      masterSurfaceId := svgaIdInvalid }

/-- Surface `k` goes on to `pc`. -/
def goto (s : MasterRun) (k : ℕ) (pc : MasterPc) : MasterRun :=
  { s with surfaces := s.surfaces.set k pc }

/-- The step function. -/
def step (s : MasterRun) : MasterAction → Option MasterRun
  | .retain k =>
      if s.surfaces[k]? = some .out then
        if !s.haveSVGA3D then some s
        else
          some ({ s with retainCount := s.retainCount + 1 }.goto k
            (if s.retainCount = 0 then .creating else .held))
      else none
  | .create k id emitted =>
      if s.surfaces[k]? = some .creating ∧ isIdValid id ∧ id ∉ s.ids then
        let (rc, t) := s.createMasterSurface id emitted
        some (t.goto k (if rc then .held else .resetting))
      else none
  | .reset k =>
      if s.surfaces[k]? = some .resetting then
        some ({ s with retainCount := 0 }.goto k .out)
      else none
  | .release k =>
      if s.surfaces[k]? = some .held then
        if !s.haveSVGA3D then some (s.goto k .out)
        else
          some ({ s with retainCount := s.retainCount - 1 }.goto k
            (if s.retainCount ≤ 0 then .resetting
              else if s.retainCount = 1 then .destroying else .out))
      else none
  | .destroy k =>
      if s.surfaces[k]? = some .destroying then some (s.destroyMasterSurface.goto k .out) else none

/-- The number of surfaces at `pc`. -/
def numAt (s : MasterRun) (pc : MasterPc) : ℕ := s.surfaces.count pc

/-- No call is in progress. -/
def Quiet (s : MasterRun) : Prop := ∀ pc ∈ s.surfaces, pc = .out ∨ pc = .held

end MasterRun

/-- The steps in order: the host surface is created only when no release has still to destroy
the one before, and its command is emitted; and no surface takes a further reference while
a release has still to destroy. -/
def Orderly (s : MasterRun) : MasterAction → Prop
  | .retain _ => s.retainCount ≠ 0 → .destroying ∉ s.surfaces
  | .create _ _ emitted => .destroying ∉ s.surfaces ∧ emitted = true
  | _ => True

instance (s : MasterRun) : DecidablePred (Orderly s)
  | .retain _ => inferInstanceAs (Decidable (s.retainCount ≠ 0 → .destroying ∉ s.surfaces))
  | .create _ _ emitted =>
      inferInstanceAs (Decidable (.destroying ∉ s.surfaces ∧ emitted = true))
  | .reset _ | .release _ | .destroy _ => .isTrue trivial

/-- What the reference count is for. -/
structure MasterOk (s : MasterRun) : Prop where
  /-- With no call in progress the host surface is there iff a surface holds a reference. -/
  exists_iff : s.Quiet → (s.host ≠ [] ↔ .held ∈ s.surfaces)
  /-- The recorded id is the one of the host surface. -/
  recorded : ∀ id ∈ s.host, id = s.masterSurfaceId
  /-- Every id that is allocated belongs to a host surface, and no host surface is there
  without its id. -/
  no_leak : ∀ id, id ∈ s.ids ↔ id ∈ s.host
  /-- Nothing is destroyed while a surface holds a reference. -/
  destroy : ∀ k t, s.step (.destroy k) = some t → t.host ≠ s.host ∨ t.ids ≠ s.ids →
    .held ∉ s.surfaces

/-! ### The invariant -/

/-- The surfaces by where they stand, after surface `k` has gone from `x` to `y`. -/
theorem count_set_of_getElem? {α : Type*} [DecidableEq α] {l : List α} {k : ℕ} {x : α}
    (h : l[k]? = some x) (y z : α) :
    (l.set k y).count z + (if x = z then 1 else 0) = l.count z + if y = z then 1 else 0 := by
  obtain ⟨hk, rfl⟩ := List.getElem?_eq_some_iff.mp h
  have hpos : l[k] = z → 0 < l.count z := by
    rintro rfl
    exact List.count_pos_iff.mpr (List.getElem_mem hk)
  rw [List.count_set hk]
  simp only [beq_iff_eq]
  split
  · have := hpos ‹_›
    omega
  · omega

/-- The master surface is there, under the recorded id. -/
structure MasterLive (s : MasterRun) : Prop where
  valid : isIdValid s.masterSurfaceId = true
  host : s.host = [s.masterSurfaceId]
  ids : s.ids = [s.masterSurfaceId]

/-- There is no master surface. -/
structure MasterNone (s : MasterRun) : Prop where
  invalid : isIdValid s.masterSurfaceId = false
  host : s.host = []
  ids : s.ids = []

/-- How the surfaces and the host surface stand to each other. -/
inductive MasterPhase (s : MasterRun) : Prop
  | idle (held : s.numAt .held = 0) (creating : s.numAt .creating = 0)
      (destroying : s.numAt .destroying = 0) (none : MasterNone s)
  | shared (held : 0 < s.numAt .held) (creating : s.numAt .creating = 0)
      (destroying : s.numAt .destroying = 0) (live : MasterLive s)
  /-- The host surface is to be created. -/
  | first (creating : s.numAt .creating = 1) (destroying : s.numAt .destroying = 0)
      (none : MasterNone s)
  /-- The host surface is to be destroyed. -/
  | last (held : s.numAt .held = 0) (creating : s.numAt .creating = 0)
      (destroying : s.numAt .destroying = 1) (live : MasterLive s)
  /-- The host surface is to be destroyed, and then another one to be created. -/
  | crossed (held : s.numAt .held = 0) (creating : s.numAt .creating = 1)
      (destroying : s.numAt .destroying = 1) (live : MasterLive s)

/-- The invariant of the orderly steps. -/
structure MasterInv (s : MasterRun) : Prop where
  avail : s.haveSVGA3D = false → ∀ pc ∈ s.surfaces, pc = .out
  count : s.retainCount = s.numAt .held + s.numAt .creating
  resetting : s.numAt .resetting = 0
  phase : MasterPhase s

/-- The number of surfaces at each point, after surface `k` has gone from `x` to `y`. -/
theorem numAt_goto {s t : MasterRun} {k : ℕ} {x y : MasterPc} (hk : s.surfaces[k]? = some x)
    (ht : t.surfaces = s.surfaces.set k y) (z : MasterPc) :
    t.numAt z + (if x = z then 1 else 0) = s.numAt z + if y = z then 1 else 0 := by
  rw [MasterRun.numAt, ht]
  exact count_set_of_getElem? hk y z

/-- The same for all points but `out`. -/
theorem tally_goto {s t : MasterRun} {k : ℕ} {x y : MasterPc} (hk : s.surfaces[k]? = some x)
    (ht : t.surfaces = s.surfaces.set k y) :
    t.numAt .held + (if x = .held then 1 else 0) = s.numAt .held + (if y = .held then 1 else 0) ∧
    t.numAt .creating + (if x = .creating then 1 else 0) =
      s.numAt .creating + (if y = .creating then 1 else 0) ∧
    t.numAt .destroying + (if x = .destroying then 1 else 0) =
      s.numAt .destroying + (if y = .destroying then 1 else 0) ∧
    t.numAt .resetting + (if x = .resetting then 1 else 0) =
      s.numAt .resetting + (if y = .resetting then 1 else 0) :=
  ⟨numAt_goto hk ht _, numAt_goto hk ht _, numAt_goto hk ht _, numAt_goto hk ht _⟩

/-- Where a surface stands, there is one. -/
theorem numAt_pos {s : MasterRun} {k : ℕ} {pc : MasterPc} (hk : s.surfaces[k]? = some pc) :
    0 < s.numAt pc :=
  List.count_pos_iff.mpr (List.mem_of_getElem? hk)

/-- Where none is counted, none stands. -/
theorem numAt_eq_zero {s : MasterRun} {pc : MasterPc} : s.numAt pc = 0 ↔ pc ∉ s.surfaces :=
  List.count_eq_zero

namespace MasterInv

variable {s t : MasterRun}

/-- At the start no surface has called anything. -/
theorem start (n : ℕ) (haveSVGA3D : Bool) : MasterInv (.start n haveSVGA3D) := by
  have hnone : ∀ pc, pc ≠ .out → (MasterRun.start n haveSVGA3D).numAt pc = 0 :=
    fun pc hpc => numAt_eq_zero.mpr fun hmem => hpc (List.eq_of_mem_replicate hmem)
  have hheld := hnone .held (by decide)
  have hcreating := hnone .creating (by decide)
  refine ⟨fun _ _ hpc => List.eq_of_mem_replicate hpc, ?_, hnone .resetting (by decide),
    .idle hheld hcreating (hnone .destroying (by decide)) ⟨rfl, rfl, rfl⟩⟩
  rw [hheld, hcreating]
  rfl

/-- Only where there is SVGA3D does a surface come to hold or to call anything. -/
theorem haveSVGA3D (h : MasterInv s) {k : ℕ} {pc : MasterPc} (hk : s.surfaces[k]? = some pc)
    (hpc : pc ≠ .out) : s.haveSVGA3D = true := by
  by_contra hno
  exact hpc (h.avail (by simpa using hno) pc (List.mem_of_getElem? hk))

/-- A retain either shares the host surface or is to create it. -/
theorem retain (h : MasterInv s) {k : ℕ} (hC : Orderly s (.retain k))
    (hstep : s.step (.retain k) = some t) : MasterInv t := by
  simp only [MasterRun.step] at hstep
  split at hstep
  swap
  · cases hstep
  rename_i hk
  split at hstep
  · cases hstep
    exact h
  rename_i havail
  have hcount := h.count
  by_cases hzero : s.retainCount = 0
  · -- the first reference: the host surface is to be created
    rw [if_pos hzero] at hstep
    cases hstep
    obtain ⟨hheld, hcreating, hdestroying, hresetting⟩ := tally_goto
      (t := { s with retainCount := s.retainCount + 1 }.goto k .creating) hk rfl
    simp only [reduceCtorEq, if_false, if_true,
      Nat.add_zero] at hheld hcreating hdestroying hresetting
    refine ⟨fun hno => absurd hno (by simpa [MasterRun.goto] using havail), ?_,
      hresetting.trans h.resetting, ?_⟩
    · rw [hheld, hcreating]
      change s.retainCount + 1 = _
      omega
    · cases h.phase with
      | idle held creating destroying none =>
          exact .first (by omega) (by omega) ⟨none.invalid, none.host, none.ids⟩
      | last held creating destroying live =>
          exact .crossed (by omega) (by omega) (by omega) ⟨live.valid, live.host, live.ids⟩
      | shared held => omega
      | first creating => omega
      | crossed held creating => omega
  · rw [if_neg hzero] at hstep
    cases hstep
    obtain ⟨hheld, hcreating, hdestroying, hresetting⟩ := tally_goto
      (t := { s with retainCount := s.retainCount + 1 }.goto k .held) hk rfl
    simp only [reduceCtorEq, if_false, if_true,
      Nat.add_zero] at hheld hcreating hdestroying hresetting
    have hnodestroy := numAt_eq_zero.mpr (hC hzero)
    refine ⟨fun hno => absurd hno (by simpa [MasterRun.goto] using havail), ?_,
      hresetting.trans h.resetting, ?_⟩
    · rw [hheld, hcreating]
      change s.retainCount + 1 = _
      omega
    · cases h.phase with
      | shared held creating destroying live =>
          exact .shared (by omega) (by omega) (by omega) ⟨live.valid, live.host, live.ids⟩
      | first creating destroying none =>
          exact .first (by omega) (by omega) ⟨none.invalid, none.host, none.ids⟩
      | idle held creating => omega
      | last held creating destroying => omega
      | crossed held creating destroying => omega

/-- The host surface is created, under the id that is recorded. -/
theorem create (h : MasterInv s) {k id : ℕ} {emitted : Bool} (hC : Orderly s (.create k id emitted))
    (hstep : s.step (.create k id emitted) = some t) : MasterInv t := by
  obtain ⟨hnodestroy, rfl⟩ := hC
  simp only [MasterRun.step] at hstep
  split at hstep
  swap
  · cases hstep
  rename_i hk
  obtain ⟨hk, hvalid, hfresh⟩ := hk
  have hcount := h.count
  have hpos := numAt_pos hk
  have hnodestroy := numAt_eq_zero.mpr hnodestroy
  have havail := h.haveSVGA3D hk (by decide)
  have hcreate : s.createMasterSurface id true =
      (true, { s with ids := id :: s.ids, masterSurfaceId := id, host := id :: s.host }) := by
    simp [MasterRun.createMasterSurface, MasterRun.createSurface, MasterRun.allocSurfaceID, havail]
  simp only [hcreate, if_true] at hstep
  cases hstep
  obtain ⟨hheld, hcreating, hdestroying, hresetting⟩ := tally_goto
    (t := { s with
    ids := id :: s.ids, masterSurfaceId := id, host := id :: s.host }.goto k .held) hk rfl
  simp only [reduceCtorEq, if_false, if_true,
    Nat.add_zero] at hheld hcreating hdestroying hresetting
  refine ⟨fun hno => absurd hno (by simp [MasterRun.goto, havail]), ?_,
    hresetting.trans h.resetting, ?_⟩
  · change s.retainCount = _
    omega
  · cases h.phase with
    | first creating destroying none =>
        refine .shared (by omega) (by omega) (by omega) ⟨hvalid, ?_, ?_⟩
        · change id :: s.host = [id]
          rw [none.host]
        · change id :: s.ids = [id]
          rw [none.ids]
    | idle held creating => omega
    | shared held creating => omega
    | last held creating => omega
    | crossed held creating destroying => omega

/-- The last release is to destroy the host surface, the others leave it. -/
theorem release (h : MasterInv s) {k : ℕ} (hstep : s.step (.release k) = some t) :
    MasterInv t := by
  simp only [MasterRun.step] at hstep
  split at hstep
  swap
  · cases hstep
  rename_i hk
  have hcount := h.count
  have hpos := numAt_pos hk
  have havail := h.haveSVGA3D hk (by decide)
  rw [if_neg (by simp [havail]), if_neg (by omega)] at hstep
  by_cases hone : s.retainCount = 1
  · -- the last reference: the host surface is to be destroyed
    rw [if_pos hone] at hstep
    cases hstep
    obtain ⟨hheld, hcreating, hdestroying, hresetting⟩ := tally_goto
      (t := { s with retainCount := s.retainCount - 1 }.goto k .destroying) hk rfl
    simp only [reduceCtorEq, if_false, if_true,
      Nat.add_zero] at hheld hcreating hdestroying hresetting
    refine ⟨fun hno => absurd hno (by simp [MasterRun.goto, havail]), ?_,
      hresetting.trans h.resetting, ?_⟩
    · change s.retainCount - 1 = _
      omega
    · cases h.phase with
      | shared held creating destroying live =>
          exact .last (by omega) (by omega) (by omega) ⟨live.valid, live.host, live.ids⟩
      | idle held => omega
      | first creating => omega
      | last held => omega
      | crossed held => omega
  · rw [if_neg hone] at hstep
    cases hstep
    obtain ⟨hheld, hcreating, hdestroying, hresetting⟩ := tally_goto
      (t := { s with retainCount := s.retainCount - 1 }.goto k .out) hk rfl
    simp only [reduceCtorEq, if_false, if_true,
      Nat.add_zero] at hheld hcreating hdestroying hresetting
    refine ⟨fun hno => absurd hno (by simp [MasterRun.goto, havail]), ?_,
      hresetting.trans h.resetting, ?_⟩
    · change s.retainCount - 1 = _
      omega
    · cases h.phase with
      | shared held creating destroying live =>
          exact .shared (by omega) (by omega) (by omega) ⟨live.valid, live.host, live.ids⟩
      | first creating destroying none =>
          exact .first (by omega) (by omega) ⟨none.invalid, none.host, none.ids⟩
      | idle held => omega
      | last held => omega
      | crossed held => omega

/-- The host surface is destroyed, and nobody holds a reference then. -/
theorem destroy (h : MasterInv s) {k : ℕ} (hstep : s.step (.destroy k) = some t) :
    MasterInv t ∧ .held ∉ s.surfaces := by
  simp only [MasterRun.step] at hstep
  split at hstep
  swap
  · cases hstep
  rename_i hk
  have hcount := h.count
  have hpos := numAt_pos hk
  have hlive : s.numAt .held = 0 ∧ MasterLive s ∧ s.numAt .destroying = 1 := by
    cases h.phase with
    | last held creating destroying live => exact ⟨held, live, destroying⟩
    | crossed held creating destroying live => exact ⟨held, live, destroying⟩
    | idle held creating destroying => omega
    | shared held creating destroying => omega
    | first creating destroying => omega
  obtain ⟨hnoheld, live, hone⟩ := hlive
  refine ⟨?_, numAt_eq_zero.mp hnoheld⟩
  have havail := h.haveSVGA3D hk (by decide)
  have hdestroy : s.destroyMasterSurface =
      { s with ids := [], masterSurfaceId := svgaIdInvalid, host := [] } := by
    simp [MasterRun.destroyMasterSurface, MasterRun.destroySurface, MasterRun.freeSurfaceID,
      live.valid, live.host, live.ids, havail]
  rw [hdestroy] at hstep
  cases hstep
  obtain ⟨hheld, hcreating, hdestroying, hresetting⟩ := tally_goto (t := { s with
    ids := [], masterSurfaceId := svgaIdInvalid, host := [] }.goto k .out) hk rfl
  simp only [reduceCtorEq, if_false, if_true,
    Nat.add_zero] at hheld hcreating hdestroying hresetting
  refine ⟨fun hno => absurd hno (by simp [MasterRun.goto, havail]), ?_,
    hresetting.trans h.resetting, ?_⟩
  · change s.retainCount = _
    omega
  · cases h.phase with
    | last held creating destroying live =>
        exact .idle (by omega) (by omega) (by omega) ⟨rfl, rfl, rfl⟩
    | crossed held creating destroying live =>
        exact .first (by omega) (by omega) ⟨rfl, rfl, rfl⟩
    | idle held creating destroying => omega
    | shared held creating destroying => omega
    | first creating destroying => omega

/-- **An orderly step** keeps the invariant. -/
theorem step (h : MasterInv s) {a : MasterAction} (hC : Orderly s a) (hstep : s.step a = some t) :
    MasterInv t := by
  cases a with
  | retain k => exact h.retain hC hstep
  | create k id emitted => exact h.create hC hstep
  | reset k =>
      simp only [MasterRun.step] at hstep
      split at hstep
      · rename_i hk
        have hresetting := h.resetting
        have hpos := numAt_pos hk
        omega
      · cases hstep
  | release k => exact h.release hstep
  | destroy k => exact (h.destroy hstep).1

/-- With no call in progress the phase is one of two. -/
theorem quiet (h : MasterInv s) (hquiet : s.Quiet) :
    .held ∉ s.surfaces ∧ MasterNone s ∨ .held ∈ s.surfaces ∧ MasterLive s := by
  have hnone : ∀ pc, pc ≠ .out → pc ≠ .held → s.numAt pc = 0 := by
    intro pc hout hheld
    refine numAt_eq_zero.mpr fun hmem => ?_
    rcases hquiet pc hmem with rfl | rfl
    · exact hout rfl
    · exact hheld rfl
  have hcreating := hnone .creating (by decide) (by decide)
  have hdestroying := hnone .destroying (by decide) (by decide)
  cases h.phase with
  | idle held _ _ none => exact .inl ⟨numAt_eq_zero.mp held, none⟩
  | shared held _ _ live => exact .inr ⟨List.count_pos_iff.mp held, live⟩
  | first creating => omega
  | last _ _ destroying => omega
  | crossed _ _ destroying => omega

/-- At every moment the master surface is there, or not. -/
theorem live_or_none (h : MasterInv s) : MasterLive s ∨ MasterNone s := by
  cases h.phase with
  | idle _ _ _ none => exact .inr none
  | shared _ _ _ live => exact .inl live
  | first _ _ none => exact .inr none
  | last _ _ _ live => exact .inl live
  | crossed _ _ _ live => exact .inl live

/-- What the reference count is for follows from the invariant. -/
theorem ok (h : MasterInv s) : MasterOk s := by
  refine ⟨fun hquiet => ?_, ?_, ?_, fun k t hstep _ => (h.destroy hstep).2⟩
  · rcases h.quiet hquiet with ⟨hheld, none⟩ | ⟨hheld, live⟩
    · exact iff_of_false (not_not.mpr none.host) hheld
    · exact iff_of_true (by simp [live.host]) hheld
  · rcases h.live_or_none with live | none
    · rw [live.host]
      exact fun id hid => List.mem_singleton.mp hid
    · rw [none.host]
      exact fun id hid => absurd hid List.not_mem_nil
  · rcases h.live_or_none with live | none
    · rw [live.host, live.ids]
      exact fun id => Iff.rfl
    · rw [none.host, none.ids]
      exact fun id => Iff.rfl

end MasterInv

/-- **Master surface references.** However the orderly steps of any number of surfaces
interleave, the host surface and the references to it agree. -/
theorem master_surface {n : ℕ} {haveSVGA3D : Bool} {as : List MasterAction} {s : MasterRun}
    (hrun : Run MasterRun.step Orderly (.start n haveSVGA3D) as s) : MasterOk s := by
  have h : MasterInv s := hrun.invariant (fun _ _ _ h hC hstep => h.step hC hstep)
    (MasterInv.start n haveSVGA3D)
  exact h.ok

/-- Two surfaces share the host surface, and a first retain waits for the last release. -/
theorem master_surface_two : ∃ s, Run MasterRun.step Orderly (.start 3 true)
    [.retain 0, .create 0 5 true, .retain 1, .release 0, .release 1, .retain 2, .destroy 1,
      .create 2 5 true] s ∧ MasterOk s := by
  have hrun : ∃ s, Run MasterRun.step Orderly (.start 3 true)
      [.retain 0, .create 0 5 true, .retain 1, .release 0, .release 1, .retain 2, .destroy 1,
        .create 2 5 true] s := ⟨_, run_of_guarded rfl⟩
  obtain ⟨s, hrun⟩ := hrun
  exact ⟨s, hrun, master_surface hrun⟩

/-- **A last release and a first retain cross**: surface 1 creates the host surface anew
before the release by surface 0 has destroyed the old one. The new one is destroyed instead,
the old one stays on the host with its id allocated, and surface 1 holds a reference to
nothing. -/
theorem master_surface_crossed : ∃ s, Run MasterRun.step Always (.start 2 true)
    [.retain 0, .create 0 5 true, .release 0, .retain 1, .create 1 6 true, .destroy 0] s ∧
    s.Quiet ∧ .held ∈ s.surfaces ∧ s.host = [5] ∧ s.ids = [5] ∧
    s.masterSurfaceId = svgaIdInvalid ∧ ¬ MasterOk s := by
  have hrun : ∃ s, Run MasterRun.step Always (.start 2 true)
      [.retain 0, .create 0 5 true, .release 0, .retain 1, .create 1 6 true, .destroy 0] s ∧
      s.surfaces = [.out, .held] ∧ s.host = [5] ∧ s.ids = [5] ∧
      s.masterSurfaceId = svgaIdInvalid := ⟨_, run_of_foldlM rfl, rfl, rfl, rfl, rfl⟩
  obtain ⟨s, hrun, hsurfaces, hhost, hids, hid⟩ := hrun
  refine ⟨s, hrun, ?_, ?_, hhost, hids, hid, fun hok => ?_⟩
  · rw [MasterRun.Quiet, hsurfaces]
    decide
  · rw [hsurfaces]
    decide
  · have hrecorded : 5 = svgaIdInvalid := by
      rw [← hid]
      exact hok.recorded 5 (by simp [hhost])
    exact absurd hrecorded (by decide)

end DockerMacos
