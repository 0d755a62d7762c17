import DockerMacos.AccelCommands
import DockerMacos.IdAllocation

/-!
# Auxiliary Surfaces

Three of the ways of `surface_flush` to the screen go by auxiliary host surfaces
(`AC/UC/VMsvga2Surface.cpp`): an id is allocated, a host surface of that id is defined, filled,
copied on and destroyed, and the id is freed. Every step can fail, and every failure has its own
way out.

## The state

The state is what the accelerator and the device know of surface ids; every call of the
accelerator is noted with what it returns. What a call returns is an argument of the routines,
and a create that returns success may still not arrive at the device.

## What is left

The ways out differ in what they have to give up: nothing, an id, an id and a surface, and twice
that where the image is stretched. `Meanwhile` follows a routine and says what it holds at the
moment; at the end (`TakesAway`) it holds nothing. What it leaves is then what there was, less
the ids and surfaces that it has taken and given back.

Less, because an id that was in use already may be handed out again. That happens when the bit
map of ids is full and the counter of the ids beyond it has wrapped, or has gone down and up
again; then the routine destroys a surface that is not its own.

## Main results

* `outAux_sets`: a routine takes away the ids that it has allocated and the host surfaces that it
  has defined, and nothing else.
* `aux_surfaces_released`: so it leaves both sets alone just when those ids were not in use.
* `aux_surfaces_released_of_inv`: they are not as long as the counter of ids does not wrap.
-/

namespace DockerMacos

/-! ### The state -/

/-- A call of the accelerator, with what it returns. -/
inductive AccelCall
  | allocSurfaceID (sid : ℕ)
  | freeSurfaceID (sid : ℕ)
  | createSurface (sid : ℕ) (surfaceFormat : SurfaceFormat) (width height : ℕ) (ret : IOReturn)
  | destroySurface (sid : ℕ)
  | surfaceDMA2D (sid : ℕ) (region : IOAccelDeviceRegion) (extra : ExtraInfo) (ret : IOReturn)
  | surfaceStretch (srcSid destSid : ℕ) (srcRect destRect : IOAccelBounds) (ret : IOReturn)
  | surfaceCopy (srcSid destSid : ℕ) (region : IOAccelDeviceRegion) (extra : ExtraInfo)
      (ret : IOReturn)
  | blitSurfaceToScreen (srcSid destScreenId : ℕ) (srcRect : IOAccelBounds)
      (destRegion : IOAccelDeviceRegion) (ret : IOReturn)

namespace AccelCall

/-- What the call reports. -/
def ret : AccelCall → IOReturn
  | createSurface _ _ _ _ ret => ret
  | surfaceDMA2D _ _ _ ret => ret
  | surfaceStretch _ _ _ _ ret => ret
  | surfaceCopy _ _ _ _ ret => ret
  | blitSurfaceToScreen _ _ _ _ ret => ret
  | _ => .success

/-- The id that the call has allocated. -/
def taken : AccelCall → Option ℕ
  | allocSurfaceID sid => some sid
  | _ => none

/-- The host surface that the call has reported as defined. -/
def created : AccelCall → Option ℕ
  | createSurface sid _ _ _ ret => if ret = .success then some sid else none
  | _ => none

end AccelCall

/-- What the accelerator and the device know of surface ids. -/
structure HostSurfaces where
  /-- The id allocators, with the ids that are allocated. -/
  ids : IdRun
  /-- The host surfaces that are defined. -/
  defined : ℕ → Bool
  /-- `m_master_surface_id`. -/
  masterSurfaceID : ℕ
  /-- The calls of the accelerator so far. -/
  calls : List AccelCall

/-- What the steps of a routine report. -/
structure AuxReports where
  /-- The first surface, and whether the command arrives. -/
  create : IOReturn × Bool
  /-- The second surface. -/
  createStretched : IOReturn × Bool
  dma : IOReturn
  stretch : IOReturn
  /-- The copy to the master surface, or the blit to the screen. -/
  out : IOReturn

namespace HostSurfaces

/-- The surface ids that are allocated. -/
def allocated (x : HostSurfaces) (sid : ℕ) : Bool := x.ids.live .surface sid

/-- A call is noted. -/
def note (x : HostSurfaces) (c : AccelCall) : HostSurfaces := { x with calls := x.calls ++ [c] }

/-- The id that `AllocSurfaceID` gives. -/
def nextSurfaceID (x : HostSurfaces) : ℕ := x.ids.ids.allocSurfaceID.1

/-- The id that `AllocSurfaceID` gives after that. -/
def secondSurfaceID (x : HostSurfaces) : ℕ := x.ids.ids.allocSurfaceID.2.allocSurfaceID.1

/-- `AllocSurfaceID`. -/
def allocSurfaceID (x : HostSurfaces) : ℕ × HostSurfaces :=
  (x.nextSurfaceID, { x with
    ids :=
      { ids := x.ids.ids.allocSurfaceID.2
        live := setLive x.ids.live .surface x.nextSurfaceID true } }.note
      (.allocSurfaceID x.nextSurfaceID))

/-- `FreeSurfaceID`. -/
def freeSurfaceID (x : HostSurfaces) (sid : ℕ) : HostSurfaces :=
  { x with
    ids :=
      { ids := x.ids.ids.freeSurfaceID sid
        live := setLive x.ids.live .surface sid false } }.note (.freeSurfaceID sid)

/-- `createSurface`; one that reports an error defines nothing. -/
def createSurface (x : HostSurfaces) (sid : ℕ) (surfaceFormat : SurfaceFormat)
    (width height : ℕ) (report : IOReturn × Bool) : HostSurfaces :=
  { x with
    defined :=
      if report.1 = IOReturn.success ∧ report.2 = true then Function.update x.defined sid true
      else x.defined }.note (.createSurface sid surfaceFormat width height report.1)

/-- `destroySurface`. -/
def destroySurface (x : HostSurfaces) (sid : ℕ) : HostSurfaces :=
  { x with defined := Function.update x.defined sid false }.note (.destroySurface sid)

/-- An auxiliary surface is destroyed and its id freed. -/
def dropSurface (x : HostSurfaces) (sid : ℕ) : HostSurfaces :=
  (x.destroySurface sid).freeSurfaceID sid

/-- How every routine begins: an auxiliary surface is allocated, created and filled by the call
`fill`, and the `rest` goes on with it. -/
def withAux (x : HostSurfaces) (surfaceFormat : SurfaceFormat) (width height : ℕ)
    (report : IOReturn × Bool) (fill : ℕ → AccelCall)
    (rest : ℕ → HostSurfaces → IOReturn × HostSurfaces) : IOReturn × HostSurfaces :=
  let (auxSid, x) := x.allocSurfaceID
  let x := x.createSurface auxSid surfaceFormat width height report
  if report.1 ≠ .success then (.noResources, x.freeSurfaceID auxSid)
  else
    let x := x.note (fill auxSid)
    if (fill auxSid).ret ≠ .success then (.dmaError, x.dropSurface auxSid)
    else rest auxSid x

/-- How every routine ends: the surface goes out by the call `c` and is dropped. -/
def sendOut (x : HostSurfaces) (sid : ℕ) (c : AccelCall) : IOReturn × HostSurfaces :=
  let x := (x.note c).dropSurface sid
  if c.ret ≠ .success then (.notWritable, x) else (.success, x)

end HostSurfaces

/-! ### The routines -/

/-- `set_region` at the origin, with a single rectangle. -/
def originRegion (w h : Int16) : IOAccelDeviceRegion := ⟨⟨0, 0, w, h⟩, [⟨0, 0, w, h⟩]⟩

namespace Surface

/-- The fields of `extra` that tell where the backing is. -/
def backingExtra (s : Surface) (deltaX deltaY : ℤ) : ExtraInfo where
  memOffsetInGmr := s.backing.offset + s.scale.byteOffset
  memPitch := s.scale.rowBytes
  srcDeltaX := deltaX
  srcDeltaY := deltaY
  dstDeltaX := deltaX
  dstDeltaY := deltaY
  memGmrId := word s.backing.vtb.gmrId

/-- A zeroed `extra` that moves the source. -/
def sourceExtra (deltaX deltaY : ℤ) : ExtraInfo where
  memOffsetInGmr := 0
  memPitch := 0
  srcDeltaX := deltaX
  srcDeltaY := deltaY
  dstDeltaX := 0
  dstDeltaY := 0
  memGmrId := 0

/-- `DMAOutWithCopy`. -/
def dmaOutWithCopy (s : Surface) (x : HostSurfaces) (reports : AuxReports) :
    IOReturn × HostSurfaces :=
  match s.lastRegion with
  | none => (.notReady, x)
  | some r =>
      if !s.isBackingValid then (.notReady, x)
      else
        let deltaX := -r.bounds.x.toInt
        let deltaY := -r.bounds.y.toInt
        x.withAux s.surfaceFormat (toU32 s.scale.buffer.w.toInt) (toU32 s.scale.buffer.h.toInt)
          reports.create
          (fun auxSid => .surfaceDMA2D auxSid r (s.backingExtra deltaX deltaY) reports.dma)
          fun auxSid x => x.sendOut auxSid
            (.surfaceCopy auxSid x.masterSurfaceID r (sourceExtra deltaX deltaY) reports.out)

/-- The part of `DMAOutStretchWithCopy` behind the DMA; `auxSid` is `aux_sid[1]` and
`stretchedSid` is `aux_sid[0]`. -/
def stretchWithCopy (s : Surface) (r : IOAccelDeviceRegion) (reports : AuxReports)
    (auxSid : ℕ) (x : HostSurfaces) : IOReturn × HostSurfaces :=
  let bounds := { r.bounds with x := 0, y := 0 }
  let (stretchedSid, x) := x.allocSurfaceID
  let x := x.createSurface stretchedSid s.surfaceFormat (toU32 bounds.w.toInt)
    (toU32 bounds.h.toInt) reports.createStretched
  if reports.createStretched.1 ≠ .success then
    (.noResources, (x.freeSurfaceID stretchedSid).dropSurface auxSid)
  else
    let x := x.note (.surfaceStretch auxSid stretchedSid
      (originRegion s.scale.buffer.w s.scale.buffer.h).bounds bounds reports.stretch)
    let x := x.dropSurface auxSid
    if reports.stretch ≠ .success then (.notWritable, x.dropSurface stretchedSid)
    else x.sendOut stretchedSid (.surfaceCopy stretchedSid x.masterSurfaceID r
      (sourceExtra (-r.bounds.x.toInt) (-r.bounds.y.toInt)) reports.out)

/-- `DMAOutStretchWithCopy`. -/
def dmaOutStretchWithCopy (s : Surface) (x : HostSurfaces) (reports : AuxReports) :
    IOReturn × HostSurfaces :=
  match s.lastRegion with
  | none => (.notReady, x)
  | some r =>
      if !s.isBackingValid then (.notReady, x)
      else
        x.withAux s.surfaceFormat (toU32 s.scale.buffer.w.toInt) (toU32 s.scale.buffer.h.toInt)
          reports.create
          (fun auxSid => .surfaceDMA2D auxSid (originRegion s.scale.buffer.w s.scale.buffer.h)
            (s.backingExtra 0 0) reports.dma)
          (s.stretchWithCopy r reports)

/-- `ScreenObjectOutVia3D`. -/
def screenObjectOutVia3D (s : Surface) (x : HostSurfaces) (reports : AuxReports) :
    IOReturn × HostSurfaces :=
  match s.lastRegion with
  | none => (.notReady, x)
  | some r =>
      if !s.isBackingValid then (.notReady, x)
      else
        let tmpRegion := originRegion s.scale.buffer.w s.scale.buffer.h
        x.withAux s.surfaceFormat (toU32 s.scale.buffer.w.toInt) (toU32 s.scale.buffer.h.toInt)
          reports.create
          (fun auxSid => .surfaceDMA2D auxSid tmpRegion (s.backingExtra 0 0) reports.dma)
          fun auxSid x => x.sendOut auxSid
            (.blitSurfaceToScreen auxSid s.framebufferIndex tmpRegion.bounds r reports.out)

end Surface

/-- The routines that go by auxiliary surfaces. -/
inductive AuxRoutine
  | copy
  | stretch
  | via3D
  deriving DecidableEq

/-- A routine of this kind. -/
def Surface.outAux (s : Surface) (x : HostSurfaces) (reports : AuxReports) :
    AuxRoutine → IOReturn × HostSurfaces
  | .copy => s.dmaOutWithCopy x reports
  | .stretch => s.dmaOutStretchWithCopy x reports
  | .via3D => s.screenObjectOutVia3D x reports

/-! ### What a routine takes away -/

namespace HostSurfaces

variable {x : HostSurfaces} {sid id : ℕ}

/-- To note a call does not allocate an id. -/
@[simp] theorem allocated_note (c : AccelCall) : (x.note c).allocated id = x.allocated id := rfl

/-- Nor does it define a surface at the host. -/
@[simp] theorem defined_note (c : AccelCall) : (x.note c).defined = x.defined := rfl

/-- It is the last of the calls. -/
@[simp] theorem calls_note (c : AccelCall) : (x.note c).calls = x.calls ++ [c] := rfl

/-- The allocator hands out the first id that it finds free. -/
@[simp] theorem fst_allocSurfaceID : x.allocSurfaceID.1 = x.nextSurfaceID := rfl

/-- Besides the ids allocated before, that one is allocated now. -/
@[simp] theorem allocated_allocSurfaceID :
    x.allocSurfaceID.2.allocated id = (decide (id = x.nextSurfaceID) || x.allocated id) := by
  simp only [allocated, allocSurfaceID, note, setLive, Function.update_self,
    Function.update_apply]
  split <;> simp_all

/-- An id without `createSurface` is no surface of the host. -/
@[simp] theorem defined_allocSurfaceID : x.allocSurfaceID.2.defined = x.defined := rfl

/-- The allocation is a call of its own, with the id that it returned. -/
@[simp] theorem calls_allocSurfaceID :
    x.allocSurfaceID.2.calls = x.calls ++ [.allocSurfaceID x.nextSurfaceID] := rfl

/-- The id given back is free, every other one as it was. -/
@[simp] theorem allocated_freeSurfaceID :
    (x.freeSurfaceID sid).allocated id = (!decide (id = sid) && x.allocated id) := by
  simp only [allocated, freeSurfaceID, note, setLive, Function.update_self,
    Function.update_apply]
  split <;> simp_all

/-- To give back an id does not destroy the surface under it. -/
@[simp] theorem defined_freeSurfaceID : (x.freeSurfaceID sid).defined = x.defined := rfl

/-- The return of an id is a call of its own. -/
@[simp] theorem calls_freeSurfaceID :
    (x.freeSurfaceID sid).calls = x.calls ++ [.freeSurfaceID sid] := rfl

variable {surfaceFormat : SurfaceFormat} {width height : ℕ} {report : IOReturn × Bool}

/-- To define a surface neither allocates nor frees an id. -/
@[simp] theorem allocated_createSurface :
    (x.createSurface sid surfaceFormat width height report).allocated id = x.allocated id := rfl

/-- The surface is defined when the command was accepted and has reached the host. -/
@[simp] theorem defined_createSurface :
    (x.createSurface sid surfaceFormat width height report).defined id =
      ((decide (id = sid) && decide (report.1 = .success) && report.2) || x.defined id) := by
  simp only [createSurface, note]
  split
  · rename_i hdefined
    rw [Function.update_apply]
    split <;> simp_all
  · rename_i hnot
    rw [not_and_or, Bool.not_eq_true] at hnot
    rcases hnot with hret | harrives
    · simp [hret]
    · simp [harrives]

/-- The definition is noted with its return code. -/
@[simp] theorem calls_createSurface :
    (x.createSurface sid surfaceFormat width height report).calls =
      x.calls ++ [.createSurface sid surfaceFormat width height report.1] := rfl

/-- To destroy a surface does not free its id. -/
@[simp] theorem allocated_destroySurface :
    (x.destroySurface sid).allocated id = x.allocated id := rfl

/-- The surface destroyed is gone, every other one as it was. -/
@[simp] theorem defined_destroySurface :
    (x.destroySurface sid).defined id = (!decide (id = sid) && x.defined id) := by
  simp only [destroySurface, note, Function.update_apply]
  split <;> simp_all

/-- The destruction is a call of its own. -/
@[simp] theorem calls_destroySurface :
    (x.destroySurface sid).calls = x.calls ++ [.destroySurface sid] := rfl

end HostSurfaces

/-- What has been done by the calls `new`, while the ids of `held` are allocated and the surfaces
of `made` are defined by them: besides these, the ids that the calls have allocated and the
surfaces that they have defined are gone, and all else is as before. -/
structure Meanwhile (x : HostSurfaces) (new : List AccelCall) (held made : List ℕ)
    (y : HostSurfaces) : Prop where
  calls : y.calls = x.calls ++ new
  allocated : ∀ id ∉ held,
    y.allocated id = (x.allocated id && !decide (id ∈ new.filterMap (·.taken)))
  defined : ∀ id ∉ made,
    y.defined id = (x.defined id && !decide (id ∈ new.filterMap (·.created)))
  own : ∀ id ∈ new.filterMap (·.created), id ∈ new.filterMap (·.taken)
  drawn : ∀ id ∈ new.filterMap (·.taken), id = x.nextSurfaceID ∨ id = x.secondSurfaceID

/-- What is added does not count. -/
theorem filterMap_append_none {f : AccelCall → Option ℕ} {l m : List AccelCall}
    (h : ∀ c ∈ m, f c = none) : (l ++ m).filterMap f = l.filterMap f := by
  rw [List.filterMap_append, List.filterMap_eq_nil_iff.mpr h, List.append_nil]

namespace Meanwhile

variable {x y : HostSurfaces} {new : List AccelCall} {held made : List ℕ}

/-- Before the first call nothing is held and nothing made. -/
theorem start (x : HostSurfaces) : Meanwhile x [] [] [] x :=
  ⟨(List.append_nil _).symm, fun id _ => by simp, fun id _ => by simp, by simp, by simp⟩

/-- A call that neither allocates nor defines anything. -/
theorem note (h : Meanwhile x new held made y) {c : AccelCall} (htaken : c.taken = none)
    (hcreated : c.created = none) : Meanwhile x (new ++ [c]) held made (y.note c) := by
  have hsame : (new ++ [c]).filterMap (·.taken) = new.filterMap (·.taken) :=
    filterMap_append_none (by simpa using htaken)
  have hsame' : (new ++ [c]).filterMap (·.created) = new.filterMap (·.created) :=
    filterMap_append_none (by simpa using hcreated)
  refine ⟨?_, fun id hid => ?_, fun id hid => ?_, ?_, ?_⟩
  · rw [HostSurfaces.calls_note, h.calls, List.append_assoc]
  · rw [HostSurfaces.allocated_note, h.allocated id hid, hsame]
  · rw [HostSurfaces.defined_note, h.defined id hid, hsame']
  · rw [hsame, hsame']
    exact h.own
  · rw [hsame]
    exact h.drawn

/-- An id allocated is held, provided it is one of the two that the caller draws. -/
theorem allocSurfaceID (h : Meanwhile x new held made y)
    (hdrawn : y.nextSurfaceID = x.nextSurfaceID ∨ y.nextSurfaceID = x.secondSurfaceID) :
    Meanwhile x (new ++ [.allocSurfaceID y.nextSurfaceID]) (y.nextSurfaceID :: held) made
      y.allocSurfaceID.2 := by
  have hmore : (new ++ [AccelCall.allocSurfaceID y.nextSurfaceID]).filterMap (·.taken) =
      new.filterMap (·.taken) ++ [y.nextSurfaceID] := List.filterMap_append ..
  have hsame : (new ++ [AccelCall.allocSurfaceID y.nextSurfaceID]).filterMap (·.created) =
      new.filterMap (·.created) := filterMap_append_none (by simp [AccelCall.created])
  refine ⟨?_, fun id hid => ?_, fun id hid => ?_, fun id hid => ?_, fun id hid => ?_⟩
  · rw [HostSurfaces.calls_allocSurfaceID, h.calls, List.append_assoc]
  · rw [List.mem_cons, not_or] at hid
    rw [HostSurfaces.allocated_allocSurfaceID, h.allocated id hid.2, hmore]
    simp [hid.1]
  · rw [HostSurfaces.defined_allocSurfaceID, h.defined id hid, hsame]
  · rw [hsame] at hid
    rw [hmore]
    exact List.mem_append_left _ (h.own id hid)
  · rw [hmore, List.mem_append, List.mem_singleton] at hid
    rcases hid with hid | rfl
    · exact h.drawn id hid
    · exact hdrawn

/-- A surface defined under an allocated id is among those made, when the command was accepted. -/
theorem createSurface (h : Meanwhile x new held made y) (sid : ℕ)
    (htaken : sid ∈ new.filterMap (·.taken)) (surfaceFormat : SurfaceFormat)
    (width height : ℕ) (report : IOReturn × Bool) :
    Meanwhile x (new ++ [.createSurface sid surfaceFormat width height report.1]) held
      (if report.1 = .success then sid :: made else made)
      (y.createSurface sid surfaceFormat width height report) := by
  have hsame : (new ++ [AccelCall.createSurface sid surfaceFormat width height report.1]).filterMap
      (·.taken) = new.filterMap (·.taken) := filterMap_append_none (by simp [AccelCall.taken])
  have hmore : (new ++ [AccelCall.createSurface sid surfaceFormat width height report.1]).filterMap
      (·.created) = new.filterMap (·.created) ++ if report.1 = .success then [sid] else [] := by
    rw [List.filterMap_append]
    split <;> simp_all [AccelCall.created]
  refine ⟨?_, fun id hid => ?_, fun id hid => ?_, fun id hid => ?_, ?_⟩
  · rw [HostSurfaces.calls_createSurface, h.calls, List.append_assoc]
  · rw [HostSurfaces.allocated_createSurface, h.allocated id hid, hsame]
  · rw [HostSurfaces.defined_createSurface, hmore]
    split at hid
    · rename_i hret
      rw [List.mem_cons, not_or] at hid
      rw [h.defined id hid.2, if_pos hret]
      simp [hid.1]
    · rename_i hret
      rw [h.defined id hid, if_neg hret]
      simp [hret]
  · rw [hmore, List.mem_append] at hid
    rw [hsame]
    rcases hid with hid | hid
    · exact h.own id hid
    · split at hid
      · obtain rfl := List.mem_singleton.mp hid
        exact htaken
      · cases hid
  · rw [hsame]
    exact h.drawn

/-- An id is freed that the calls have allocated. -/
theorem freeSurfaceID (h : Meanwhile x new held made y) (sid : ℕ) (held' : List ℕ)
    (htaken : sid ∈ new.filterMap (·.taken)) (hheld : ∀ id ∈ held, id = sid ∨ id ∈ held') :
    Meanwhile x (new ++ [.freeSurfaceID sid]) held' made (y.freeSurfaceID sid) := by
  have hsame : (new ++ [AccelCall.freeSurfaceID sid]).filterMap (·.taken) =
      new.filterMap (·.taken) := filterMap_append_none (by simp [AccelCall.taken])
  have hsame' : (new ++ [AccelCall.freeSurfaceID sid]).filterMap (·.created) =
      new.filterMap (·.created) := filterMap_append_none (by simp [AccelCall.created])
  refine ⟨?_, fun id hid => ?_, fun id hid => ?_, ?_, ?_⟩
  · rw [HostSurfaces.calls_freeSurfaceID, h.calls, List.append_assoc]
  · rw [HostSurfaces.allocated_freeSurfaceID, hsame]
    by_cases hsid : id = sid
    · subst hsid
      simp [htaken]
    · rw [h.allocated id fun hin => (hheld id hin).elim hsid hid, decide_eq_false hsid]
      rfl
  · rw [HostSurfaces.defined_freeSurfaceID, h.defined id hid, hsame']
  · rw [hsame, hsame']
    exact h.own
  · rw [hsame]
    exact h.drawn

/-- A surface destroyed is no longer among those made. -/
theorem destroySurface (h : Meanwhile x new held made y) (sid : ℕ) (made' : List ℕ)
    (hcreated : sid ∈ new.filterMap (·.created)) (hmade : ∀ id ∈ made, id = sid ∨ id ∈ made') :
    Meanwhile x (new ++ [.destroySurface sid]) held made' (y.destroySurface sid) := by
  have hsame : (new ++ [AccelCall.destroySurface sid]).filterMap (·.taken) =
      new.filterMap (·.taken) := filterMap_append_none (by simp [AccelCall.taken])
  have hsame' : (new ++ [AccelCall.destroySurface sid]).filterMap (·.created) =
      new.filterMap (·.created) := filterMap_append_none (by simp [AccelCall.created])
  refine ⟨?_, fun id hid => ?_, fun id hid => ?_, ?_, ?_⟩
  · rw [HostSurfaces.calls_destroySurface, h.calls, List.append_assoc]
  · rw [HostSurfaces.allocated_destroySurface, h.allocated id hid, hsame]
  · rw [HostSurfaces.defined_destroySurface, hsame']
    by_cases hsid : id = sid
    · subst hsid
      simp [hcreated]
    · rw [h.defined id fun hin => (hmade id hin).elim hsid hid, decide_eq_false hsid]
      rfl
  · rw [hsame, hsame']
    exact h.own
  · rw [hsame]
    exact h.drawn

/-- A surface is dropped that the calls have defined. -/
theorem dropSurface (h : Meanwhile x new held made y) (sid : ℕ) (held' made' : List ℕ)
    (htaken : sid ∈ new.filterMap (·.taken)) (hcreated : sid ∈ new.filterMap (·.created))
    (hheld : ∀ id ∈ held, id = sid ∨ id ∈ held') (hmade : ∀ id ∈ made, id = sid ∨ id ∈ made') :
    Meanwhile x (new ++ [.destroySurface sid, .freeSurfaceID sid]) held' made'
      (y.dropSurface sid) := by
  have hdestroyed := h.destroySurface sid made' hcreated hmade
  have hfreed := hdestroyed.freeSurfaceID sid held'
    (by rw [List.filterMap_append]; exact List.mem_append_left _ htaken) hheld
  rwa [List.append_assoc] at hfreed

end Meanwhile

/-- **What a routine has done** in the end: the ids that it has allocated and the surfaces that
it has defined are gone, and success means that every step has succeeded. -/
structure TakesAway (x : HostSurfaces) (new : List AccelCall) (out : IOReturn × HostSurfaces) :
    Prop extends Meanwhile x new [] [] out.2 where
  succeeded : out.1 = .success → ∀ c ∈ new, c.ret = .success

/-- The calls `new` have succeeded, and hold the surface `sid`. -/
structure Holding (x : HostSurfaces) (new : List AccelCall) (sid : ℕ) (y : HostSurfaces) :
    Prop extends Meanwhile x new [sid] [sid] y where
  taken : sid ∈ new.filterMap (·.taken)
  created : sid ∈ new.filterMap (·.created)
  succeeded : ∀ c ∈ new, c.ret = .success

/-- A routine that refuses at once. -/
theorem TakesAway.refused (x : HostSurfaces) {ret : IOReturn} (h : ret ≠ .success) :
    TakesAway x [] (ret, x) :=
  ⟨.start x, fun hret => absurd hret h⟩

/-- A command from the held surface and the drop of that surface: nothing is left behind. -/
theorem Holding.sendOut {x y : HostSurfaces} {new : List AccelCall} {sid : ℕ}
    (h : Holding x new sid y) {c : AccelCall} (htaken : c.taken = none)
    (hcreated : c.created = none) : ∃ new', TakesAway x new' (y.sendOut sid c) := by
  have hdone := (h.note htaken hcreated).dropSurface sid [] []
    (by rw [List.filterMap_append]; exact List.mem_append_left _ h.taken)
    (by rw [List.filterMap_append]; exact List.mem_append_left _ h.created)
    (fun id hid => .inl (List.mem_singleton.mp hid))
    (fun id hid => .inl (List.mem_singleton.mp hid))
  rw [HostSurfaces.sendOut]
  split
  · exact ⟨_, hdone, by rintro ⟨⟩⟩
  · rename_i hret
    refine ⟨_, hdone, fun _ d hd => ?_⟩
    simp only [List.append_assoc, List.mem_append, List.mem_cons, List.not_mem_nil, or_false]
      at hd
    rcases hd with hd | rfl | rfl | rfl
    · exact h.succeeded d hd
    · exact not_not.mp hret
    · rfl
    · rfl

/-- A routine that begins with an auxiliary surface, if its rest drops it. -/
theorem withAux_takesAway (x : HostSurfaces) {surfaceFormat : SurfaceFormat} {width height : ℕ}
    {report : IOReturn × Bool} {fill : ℕ → AccelCall}
    {rest : ℕ → HostSurfaces → IOReturn × HostSurfaces} (htaken : ∀ sid, (fill sid).taken = none)
    (hcreated : ∀ sid, (fill sid).created = none)
    (hrest : ∀ {new sid y}, Holding x new sid y → y.nextSurfaceID = x.secondSurfaceID →
      ∃ new', TakesAway x new' (rest sid y)) :
    ∃ new, TakesAway x new (x.withAux surfaceFormat width height report fill rest) := by
  have hmade := ((Meanwhile.start x).allocSurfaceID (.inl rfl)).createSurface
    x.nextSurfaceID (by simp [AccelCall.taken]) surfaceFormat width height report
  rw [HostSurfaces.withAux]
  dsimp only
  split
  · rename_i hcreate
    rw [if_neg hcreate] at hmade
    exact ⟨_, hmade.freeSurfaceID _ [] (by simp [AccelCall.taken]) (by simp), by rintro ⟨⟩⟩
  rename_i hcreate
  rw [not_not] at hcreate
  rw [if_pos hcreate] at hmade
  have hfilled := hmade.note (htaken x.nextSurfaceID) (hcreated x.nextSurfaceID)
  split
  · exact ⟨_, hfilled.dropSurface _ [] [] (by simp [AccelCall.taken])
      (by simp [AccelCall.created, hcreate]) (by simp) (by simp), by rintro ⟨⟩⟩
  · rename_i hfill
    refine hrest ⟨hfilled, by simp [AccelCall.taken], by simp [AccelCall.created, hcreate], ?_⟩
      rfl
    simpa [AccelCall.ret, hcreate] using hfill

namespace Surface

variable (s : Surface) (x : HostSurfaces) (reports : AuxReports)

/-- `DMAOutWithCopy` takes away all that it has allocated and defined. -/
theorem dmaOutWithCopy_takesAway : ∃ new, TakesAway x new (s.dmaOutWithCopy x reports) := by
  rw [dmaOutWithCopy]
  split
  · exact ⟨[], .refused x (by rintro ⟨⟩)⟩
  split
  · exact ⟨[], .refused x (by rintro ⟨⟩)⟩
  · exact withAux_takesAway x (fun _ => rfl) (fun _ => rfl) fun h _ => h.sendOut rfl rfl

/-- The second surface comes and goes while the first one is held. -/
theorem stretchWithCopy_takesAway {y : HostSurfaces} {new : List AccelCall} {auxSid : ℕ}
    (h : Holding x new auxSid y) (hnext : y.nextSurfaceID = x.secondSurfaceID)
    (r : IOAccelDeviceRegion) :
    ∃ new', TakesAway x new' (s.stretchWithCopy r reports auxSid y) := by
  have htaken := h.taken
  have hcreated := h.created
  have hsecond := (h.allocSurfaceID (.inr hnext)).createSurface y.nextSurfaceID
    (by simp [AccelCall.taken]) s.surfaceFormat (toU32 r.bounds.w.toInt) (toU32 r.bounds.h.toInt)
    reports.createStretched
  rw [stretchWithCopy]
  dsimp only
  split
  · rename_i hstretched
    rw [if_neg hstretched] at hsecond
    have hfreed := hsecond.freeSurfaceID y.nextSurfaceID [auxSid]
      (by simp [AccelCall.taken]) (by simp)
    exact ⟨_, hfreed.dropSurface auxSid [] [] (by simp [htaken]) (by simp [hcreated])
      (by simp) (by simp), by rintro ⟨⟩⟩
  rename_i hstretched
  rw [not_not] at hstretched
  rw [if_pos hstretched] at hsecond
  have hone := (hsecond.note (c := .surfaceStretch auxSid y.nextSurfaceID
    (originRegion s.scale.buffer.w s.scale.buffer.h).bounds { r.bounds with x := 0, y := 0 }
    reports.stretch) rfl rfl).dropSurface auxSid [y.nextSurfaceID]
      [y.nextSurfaceID] (by simp [htaken]) (by simp [hcreated]) (by simp) (by simp)
  split
  · exact ⟨_, hone.dropSurface _ [] [] (by simp [AccelCall.taken])
      (by simp [AccelCall.created, hstretched]) (by simp) (by simp), by rintro ⟨⟩⟩
  rename_i hstretch
  rw [not_not] at hstretch
  refine Holding.sendOut ⟨hone, by simp [AccelCall.taken],
    by simp [AccelCall.created, hstretched], fun c hc => ?_⟩ rfl rfl
  simp only [List.append_assoc, List.mem_append, List.mem_cons, List.not_mem_nil, or_false] at hc
  rcases hc with hc | rfl | rfl | rfl | rfl | rfl
  · exact h.succeeded c hc
  · rfl
  · exact hstretched
  · exact hstretch
  · rfl
  · rfl

/-- So does `DMAOutStretchWithCopy`, with two auxiliary surfaces. -/
theorem dmaOutStretchWithCopy_takesAway :
    ∃ new, TakesAway x new (s.dmaOutStretchWithCopy x reports) := by
  rw [dmaOutStretchWithCopy]
  split
  · exact ⟨[], .refused x (by rintro ⟨⟩)⟩
  rename_i r _
  split
  · exact ⟨[], .refused x (by rintro ⟨⟩)⟩
  · exact withAux_takesAway x (fun _ => rfl) (fun _ => rfl) fun h hnext =>
      s.stretchWithCopy_takesAway x reports h hnext r

/-- So does `ScreenObjectOutVia3D`. -/
theorem screenObjectOutVia3D_takesAway :
    ∃ new, TakesAway x new (s.screenObjectOutVia3D x reports) := by
  rw [screenObjectOutVia3D]
  split
  · exact ⟨[], .refused x (by rintro ⟨⟩)⟩
  split
  · exact ⟨[], .refused x (by rintro ⟨⟩)⟩
  · exact withAux_takesAway x (fun _ => rfl) (fun _ => rfl) fun h _ => h.sendOut rfl rfl

/-- **A routine** takes away what it has allocated and defined, and nothing else. -/
theorem outAux_sets (kind : AuxRoutine) : ∃ new, TakesAway x new (s.outAux x reports kind) := by
  cases kind with
  | copy => exact s.dmaOutWithCopy_takesAway x reports
  | stretch => exact s.dmaOutStretchWithCopy_takesAway x reports
  | via3D => exact s.screenObjectOutVia3D_takesAway x reports

end Surface

/-! ### Both sets -/

/-- The same ids are allocated and the same host surfaces defined. -/
structure SameSurfaces (x y : HostSurfaces) : Prop where
  allocated : ∀ id, y.allocated id = x.allocated id
  defined : ∀ id, y.defined id = x.defined id

/-- The ids that the calls have allocated were not in use: they were not allocated, and the host
surfaces that the calls have defined were not. -/
structure Unused (x : HostSurfaces) (new : List AccelCall) : Prop where
  taken : ∀ id ∈ new.filterMap (·.taken), x.allocated id = false
  created : ∀ id ∈ new.filterMap (·.created), x.defined id = false

/-- A set without some elements is the same if none of them was in it. -/
theorem without_eq_iff (f : ℕ → Bool) (l : List ℕ) :
    (∀ id, (f id && !decide (id ∈ l)) = f id) ↔ ∀ id ∈ l, f id = false := by
  constructor
  · intro h id hid
    rw [← h id, decide_eq_true hid, Bool.not_true, Bool.and_false]
  · intro h id
    by_cases hid : id ∈ l
    · rw [h id hid, Bool.false_and]
    · rw [decide_eq_false hid, Bool.not_false, Bool.and_true]

/-- What is left is what there was exactly when the calls took ids and surfaces that were free. -/
theorem TakesAway.same_iff {x : HostSurfaces} {new : List AccelCall}
    {out : IOReturn × HostSurfaces} (h : TakesAway x new out) :
    SameSurfaces x out.2 ↔ Unused x new := by
  have hallocated : (∀ id, out.2.allocated id = x.allocated id) ↔
      ∀ id ∈ new.filterMap (·.taken), x.allocated id = false := by
    rw [← without_eq_iff]
    exact forall_congr' fun id => by rw [h.allocated id (List.not_mem_nil)]
  have hdefined : (∀ id, out.2.defined id = x.defined id) ↔
      ∀ id ∈ new.filterMap (·.created), x.defined id = false := by
    rw [← without_eq_iff]
    exact forall_congr' fun id => by rw [h.defined id (List.not_mem_nil)]
  exact ⟨fun hsame => ⟨hallocated.mp hsame.allocated, hdefined.mp hsame.defined⟩,
    fun hunused => ⟨hallocated.mpr hunused.taken, hdefined.mpr hunused.created⟩⟩

/-- **Auxiliary surfaces are released** on every way out, so that both sets are the same after the
call as before it just when `AllocSurfaceID` has given no id that was in use; and the call fails
when one of its steps has failed. -/
theorem aux_surfaces_released (s : Surface) (x : HostSurfaces) (reports : AuxReports)
    (kind : AuxRoutine) : ∃ new, (s.outAux x reports kind).2.calls = x.calls ++ new ∧
      (SameSurfaces x (s.outAux x reports kind).2 ↔ Unused x new) ∧
      ((∃ c ∈ new, c.ret ≠ .success) → (s.outAux x reports kind).1 ≠ .success) := by
  obtain ⟨new, hnew⟩ := s.outAux_sets x reports kind
  refine ⟨new, hnew.calls, hnew.same_iff, ?_⟩
  rintro ⟨c, hc, herror⟩ hok
  exact herror (hnew.succeeded hok c hc)

/-- The next two ids are not allocated as long as the counter of ids does not wrap. -/
theorem HostSurfaces.next_unused {x : HostSurfaces} {maxGmrIds : ℕ} (h : IdInv maxGmrIds x.ids)
    (hwrap : 256 + x.ids.ids.surfaceIdsUnmanaged + 1 < 2 ^ 32) :
    x.allocated x.nextSurfaceID = false ∧ x.allocated x.secondSurfaceID = false := by
  obtain ⟨hinv, hfirst⟩ := h.allocSurface (by
    change 256 + x.ids.ids.surfaceIdsUnmanaged < 2 ^ 32
    omega)
  refine ⟨hfirst.fresh, ?_⟩
  have hcount : (IdInv.allocated x.ids .surface).ids.surfaceIdsUnmanaged ≤
      x.ids.ids.surfaceIdsUnmanaged + 1 := by
    change x.ids.ids.allocSurfaceID.2.surfaceIdsUnmanaged ≤ _
    rw [IdAllocators.allocSurfaceID]
    dsimp only
    split
    · dsimp only
      rw [add32_of_lt (by omega)]
    · exact Nat.le_succ _
  obtain ⟨-, hsecond⟩ := hinv.allocSurface (by
    change 256 + (IdInv.allocated x.ids .surface).ids.surfaceIdsUnmanaged < 2 ^ 32
    omega)
  by_contra hlive
  have hkept : (IdInv.allocated x.ids .surface).live .surface x.secondSurfaceID = true := by
    rw [IdInv.allocated, if_neg (show ¬ IdKind.failed .surface _ = true from Bool.false_ne_true)]
    dsimp only
    rw [setLive, Function.update_self, update_true_iff]
    exact .inr (Bool.eq_true_of_not_eq_false hlive)
  exact Bool.false_ne_true (hsecond.fresh.symm.trans hkept)

/-- In every state of the allocators that allocations and frees lead to, with all host surfaces
under allocated ids, a routine leaves both sets alone as long as the counter does not wrap. -/
theorem aux_surfaces_released_of_inv (s : Surface) {x : HostSurfaces} (reports : AuxReports)
    (kind : AuxRoutine) {maxGmrIds : ℕ} (h : IdInv maxGmrIds x.ids)
    (hwrap : 256 + x.ids.ids.surfaceIdsUnmanaged + 1 < 2 ^ 32)
    (hdefined : ∀ id, x.defined id = true → x.allocated id = true) :
    SameSurfaces x (s.outAux x reports kind).2 := by
  obtain ⟨new, hnew⟩ := s.outAux_sets x reports kind
  obtain ⟨hfirst, hsecond⟩ := HostSurfaces.next_unused h hwrap
  have htaken : ∀ id ∈ new.filterMap (·.taken), x.allocated id = false := by
    intro id hid
    rcases hnew.drawn id hid with rfl | rfl
    · exact hfirst
    · exact hsecond
  refine hnew.same_iff.mpr ⟨htaken, fun id hid => ?_⟩
  by_contra hin
  have hfree := htaken id (hnew.own id hid)
  rw [hdefined id (Bool.eq_true_of_not_eq_false hin)] at hfree
  cases hfree

/-! ### The counter wraps -/

/-- All ids of the bitmap are taken, and `n` ids beyond it have come and gone. -/
structure Exhausted (n : ℕ) (s : IdRun) : Prop where
  mask : s.ids.surfaceIdMask = List.replicate 4 (BitVec.allOnes 64)
  idx : s.ids.surfaceIdIdx = 4
  count : s.ids.surfaceIdsUnmanaged = n
  live : s.live .surface 0 = true

/-- Past the bitmap the allocator counts up, and hands out an id whether or not it is in use. -/
theorem Exhausted.alloc {n : ℕ} {s : IdRun} (h : Exhausted n s) :
    s.ids.allocSurfaceID = (add32 256 n, { s.ids with surfaceIdsUnmanaged := add32 n 1 }) := by
  have hsearch : searchFrom log2_64 s.ids.surfaceIdMask s.ids.surfaceIdIdx =
      (-1, s.ids.surfaceIdMask) := by
    rw [h.mask, h.idx]
    rfl
  rw [IdAllocators.allocSurfaceID, hsearch]
  dsimp only
  rw [if_pos (by decide), h.count, ← h.idx]

/-- Another id beyond the bitmap comes and goes. -/
theorem Exhausted.succ {n : ℕ} {s : IdRun} (h : Exhausted n s) (hn : 256 + n < 2 ^ 32) :
    ∃ t, Run idStep Always s [.alloc .surface, .free .surface (256 + n)] t ∧
      Exhausted (n + 1) t := by
  have halloc := h.alloc
  rw [add32_of_lt hn, add32_of_lt (by omega)] at halloc
  have hfirst : idStep s (.alloc .surface) = some
      ⟨{ s.ids with surfaceIdsUnmanaged := n + 1 },
        setLive s.live .surface (256 + n) true⟩ := by
    simp only [idStep, IdAllocators.alloc, halloc]
    rfl
  have hsecond : idStep ⟨{ s.ids with surfaceIdsUnmanaged := n + 1 },
      setLive s.live .surface (256 + n) true⟩ (.free .surface (256 + n)) = some
      ⟨{ s.ids with surfaceIdsUnmanaged := n + 1 },
        setLive (setLive s.live .surface (256 + n) true) .surface (256 + n) false⟩ := by
    have hlive : setLive s.live .surface (256 + n) true .surface (256 + n) = true := by
      simp [setLive]
    rw [idStep, if_pos hlive]
    simp only [IdAllocators.free, IdAllocators.freeSurfaceID]
    rw [if_pos (by omega)]
  refine ⟨_, .cons trivial hfirst (.cons trivial hsecond (.nil _)), h.mask, h.idx, rfl, ?_⟩
  have hne : 0 ≠ 256 + n := by omega
  simp [setLive, Function.update_of_ne hne, h.live]

/-- Every count is reached by allocations and frees of live ids. -/
theorem exhausted_reached (n : ℕ) (hn : 256 + n < 2 ^ 32) :
    ∃ as s, Run idStep Always (idStart 64) as s ∧ Exhausted (n + 1) s := by
  induction n with
  | zero =>
      have heval : ((List.replicate 257 (IdAction.alloc .surface) ++
          [IdAction.free .surface 256]).foldlM idStep (idStart 64)).map (fun s =>
            (s.ids.surfaceIdMask, s.ids.surfaceIdIdx, s.ids.surfaceIdsUnmanaged,
              s.live .surface 0)) = some (List.replicate 4 (BitVec.allOnes 64), 4, 1, true) := by
        decide +kernel
      obtain ⟨s, hfold, hs⟩ := Option.map_eq_some_iff.mp heval
      simp only [Prod.mk.injEq] at hs
      exact ⟨_, s, run_of_foldlM hfold, hs.1, hs.2.1, hs.2.2.1, hs.2.2.2⟩
  | succ n ih =>
      obtain ⟨as, s, hrun, hs⟩ := ih (by omega)
      obtain ⟨t, hnext, ht⟩ := hs.succ (by omega)
      exact ⟨_, t, hrun.append hnext, ht⟩

/-- A surface that can go out. -/
def shownSurface : Surface :=
  { Surface.init with
    provider := true
    backing := { Backing.init with self := 0x100000 }
    lastRegion := some ⟨⟨0, 0, 16, 16⟩, [⟨0, 0, 16, 16⟩]⟩ }

/-- Every step succeeds. -/
def allSucceed : AuxReports := ⟨(.success, true), (.success, true), .success, .success, .success⟩

/-- When the counter has wrapped, id 0, which is in use, is handed out once more: its host surface
is destroyed and the id is freed. -/
theorem aux_surface_takes_another : ∃ as x, Run idStep Always (idStart 64) as x.ids ∧
    x.allocated 0 = true ∧ x.defined 0 = true ∧
    (shownSurface.outAux x allSucceed .copy).1 = .success ∧
    (shownSurface.outAux x allSucceed .copy).2.allocated 0 = false ∧
    (shownSurface.outAux x allSucceed .copy).2.defined 0 = false := by
  obtain ⟨as, ids, hrun, hfull⟩ := exhausted_reached (2 ^ 32 - 257) (by decide)
  let x : HostSurfaces := ⟨ids, fun id => id = 0, 0, []⟩
  have hnext : x.nextSurfaceID = 0 := by
    change ids.ids.allocSurfaceID.1 = 0
    rw [hfull.alloc]
    rfl
  refine ⟨as, x, hrun, hfull.live, rfl, rfl, ?_, ?_⟩
  · change (HostSurfaces.dropSurface _ x.nextSurfaceID).allocated 0 = false
    rw [HostSurfaces.dropSurface, HostSurfaces.allocated_freeSurfaceID, hnext]
    rfl
  · change (HostSurfaces.dropSurface _ x.nextSurfaceID).defined 0 = false
    rw [HostSurfaces.dropSurface, HostSurfaces.defined_freeSurfaceID,
      HostSurfaces.defined_destroySurface, hnext]
    rfl

end DockerMacos
