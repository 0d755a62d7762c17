import DockerMacos.Commands3D
import DockerMacos.Surface

/-!
# The Commands of the Accelerator

The methods of the accelerator (`AC/VMsvga2Accel.cpp`) that put commands into the FIFO. They
fill and commit the commands that `SVGA3D` has begun, and send whole ones. A method that takes
a pointer to a fence gives back what it stores there.

## Arguments

A command is written as the source writes it: the words of its header, of its fixed part and of
its boxes or rectangles, in the order of the structures. Coordinates have 16 bits in a region
and 32 in a command, so `boundsWords` extends them with their sign, and the sums of `copyBox`
wrap as the source's do. Where the source tests what the device can do, the test reads an
`AccelConfig`.

## Loops of commands

Some methods send one command for each rectangle of a region and stop at the first that is
refused. What they return is the value that the variable `rc` has then (`untilRefused`), also
where the region has no rectangles and the source leaves the variable as it was.

## What a method reserves

`AccelMethod.sizes` lists the sizes of the commands that a method may reserve room for, and is
computed from its arguments. It is what a bound on the size of every command speaks about, when
the methods are to return.

## Main results

* `untilRefused_closes`: a loop of commands that stops when one is refused.
* `AccelMethod.closes`: a method leaves no reservation open, and reserves room for the commands
  of `AccelMethod.sizes` only.
-/

namespace DockerMacos

/-! ### Arguments -/

/-- What the accelerator knows about its device. -/
structure AccelConfig where
  haveSVGA3D : Bool
  haveScreenObject : Bool
  /-- Whether `m_framebuffer` is set. -/
  haveFramebuffer : Bool
  /-- `HasCapability(SVGA_CAP_GMR2)`. -/
  hasGMR2 : Bool
  maxGMRPages : ℕ
  /-- `VMW_OPTION_AC_REGION_BOUNDS_COPY`. -/
  regionBoundsCopy : Bool

/-- `HaveFrontBuffer`. -/
def AccelConfig.haveFrontBuffer (cfg : AccelConfig) : Bool :=
  cfg.haveScreenObject || cfg.haveSVGA3D

/-- `ExtraInfo`. -/
structure ExtraInfo where
  memOffsetInGmr : ℕ
  memPitch : ℕ
  srcDeltaX : ℤ
  srcDeltaY : ℤ
  dstDeltaX : ℤ
  dstDeltaY : ℤ
  memGmrId : FifoWord

/-- `ExtraInfoEx`. -/
structure ExtraInfoEx where
  memOffsetInGmr : ℕ
  memPitch : ℕ
  memLimit : ℕ
  memGmrId : FifoWord
  suffixFlags : FifoWord

/-- `GMR_VRAM`. -/
def gmrVramWord : FifoWord := BitVec.ofInt 32 (-2)

/-- The word of a signed number. -/
def intWord (z : ℤ) : FifoWord := BitVec.ofInt 32 z

/-- The rectangles of a region, none without one. -/
def regionRects (region : Option IOAccelDeviceRegion) : List IOAccelBounds :=
  (region.map IOAccelDeviceRegion.rect).getD []

/-- The words of a rectangle, extended from 16 bits. -/
def boundsWords (r : IOAccelBounds) : List FifoWord :=
  [intWord r.x.toInt, intWord r.y.toInt, intWord r.w.toInt, intWord r.h.toInt]

/-- A `SVGA3dBox` of a rectangle. -/
def boundsBox (r : IOAccelBounds) : Vector FifoWord 6 :=
  #v[intWord r.x.toInt, intWord r.y.toInt, 0, intWord r.w.toInt, intWord r.h.toInt, 1]

/-- The `SVGA3dCopyBox` of a rectangle. -/
def copyBox (extra : ExtraInfo) (src : IOAccelBounds) : List FifoWord :=
  [intWord (src.x.toInt + extra.dstDeltaX), intWord (src.y.toInt + extra.dstDeltaY), 0,
    intWord src.w.toInt, intWord src.h.toInt, 1,
    intWord (src.x.toInt + extra.srcDeltaX), intWord (src.y.toInt + extra.srcDeltaY), 0]

/-- The `SVGA3dCopyRect` of a rectangle. -/
def copyRect (extra : ExtraInfo) (src : IOAccelBounds) : List FifoWord :=
  [intWord (src.x.toInt + extra.dstDeltaX), intWord (src.y.toInt + extra.dstDeltaY),
    intWord src.w.toInt, intWord src.h.toInt,
    intWord (src.x.toInt + extra.srcDeltaX), intWord (src.y.toInt + extra.srcDeltaY)]

/-- `convert_rect`. -/
def convertRect (src : IOAccelBounds) (deltaX deltaY : ℤ) : SVGASignedRect where
  left := src.x.toInt + deltaX
  top := src.y.toInt + deltaY
  right := src.x.toInt + deltaX + src.w.toInt
  bottom := src.y.toInt + deltaY + src.h.toInt

/-- `set_region`, from the numbers of a copy. -/
def setRegion (r : Vector FifoWord 6) : IOAccelDeviceRegion :=
  let bounds : IOAccelBounds := ⟨.ofInt r[0].toInt, .ofInt r[1].toInt, .ofInt r[4].toInt,
    .ofInt r[5].toInt⟩
  ⟨bounds, [bounds]⟩

/-- A loop of commands that ends when one is refused, and the value of `rc` after it. -/
def untilRefused {ι : Type} (f : ι → FifoM Bool) (rc : Bool) : List ι → FifoM Bool
  | [] => return rc
  | i :: is => do
      if ← f i then untilRefused f true is
      else return false

/-- The fence stored where a fence is asked for. -/
def fenceIf (wanted : Bool) : FifoM (Option ℕ) := do
  if wanted then
    let fence ← insertFence
    return some fence
  else return none

/-- The return value of a loop of commands. -/
def rcReturn (rc : Bool) : IOReturn := if rc then .success else .noMemory

namespace AccelCommands

/-! ### Two-dimensional methods -/

/-- `CopyRegion`; `rc` is the value of the variable before the loop, which the source leaves
open. -/
def copyRegion (cfg : AccelConfig) (destX destY : ℤ) (region : Option IOAccelDeviceRegion)
    (regionSize : ℕ) (rc : Bool) : FifoM IOReturn := do
  match region with
  | none => return .badArgument
  | some rgn =>
      if regionSize < rgn.size then return .badArgument
      else if cfg.haveFrontBuffer then return .success
      else if !cfg.haveFramebuffer then return .noDevice
      else if cfg.regionBoundsCopy then
        let rc ← SVGACommands.rectCopy #v[intWord rgn.bounds.x.toInt, intWord rgn.bounds.y.toInt,
          intWord destX, intWord destY, intWord rgn.bounds.w.toInt, intWord rgn.bounds.h.toInt]
        return rcReturn rc
      else
        let deltaX := destX - rgn.bounds.x.toInt
        let deltaY := destY - rgn.bounds.y.toInt
        let rc ← untilRefused (fun rect => SVGACommands.rectCopy #v[intWord rect.x.toInt,
          intWord rect.y.toInt, intWord (rect.x.toInt + deltaX), intWord (rect.y.toInt + deltaY),
          intWord rect.w.toInt, intWord rect.h.toInt]) rc rgn.rect
        return rcReturn rc

/-- The loop of `RectCopy` over `CopyRegion`. -/
def copyRegions (cfg : AccelConfig) (rc : Bool) : List (Vector FifoWord 6) → FifoM IOReturn
  | [] => return .success
  | r :: rs => do
      let rv ← copyRegion cfg r[2].toInt r[3].toInt (some (setRegion r)) (setRegion r).size rc
      if rv = .success then copyRegions cfg rc rs
      else return rv

/-- `RectCopy`. -/
def rectCopy (cfg : AccelConfig) (copyRects : Option (List (Vector FifoWord 6))) (rc : Bool) :
    FifoM IOReturn := do
  match copyRects with
  | none => return .badArgument
  | some [] => return .badArgument
  | some rects =>
      if cfg.haveFrontBuffer then copyRegions cfg rc rects
      else if !cfg.haveFramebuffer then return .noDevice
      else
        let rc ← untilRefused SVGACommands.rectCopy rc rects
        return rcReturn rc

/-- `RectFill`. -/
def rectFill (cfg : AccelConfig) (color : FifoWord) (rects : Option (List (Vector FifoWord 4)))
    (rc : Bool) : FifoM IOReturn := do
  match rects with
  | none => return .badArgument
  | some [] => return .badArgument
  | some rects =>
      if !cfg.haveFramebuffer then return .noDevice
      else
        let rc ← untilRefused (SVGACommands.rectFill color) rc rects
        return rcReturn rc

/-- `UpdateFramebufferAutoRing`. -/
def updateFramebufferAutoRing (cfg : AccelConfig) (rect : Option (Vector FifoWord 4)) :
    FifoM IOReturn := do
  match rect with
  | none => return .badArgument
  | some rect =>
      if cfg.haveFrontBuffer then return .success
      else if !cfg.haveFramebuffer then return .noDevice
      else
        let _ ← SVGACommands.updateFramebuffer2 rect
        return .success

/-! ### Methods for surfaces -/

/-- `createSurface`. -/
def createSurface (cfg : AccelConfig) (sid surfaceFlags surfaceFormat width height : FifoWord) :
    FifoM IOReturn := do
  if !cfg.haveSVGA3D then return .noDevice
  else
    if ← SVGACommands.beginDefineSurface sid surfaceFlags surfaceFormat 1 then
      -- the number of mip levels of the first face, then the size of the first level
      store 5 [1]
      store 11 [width, height, 1]
      fifoCommitAll
      return .success
    else return .success

/-- `destroySurface`. -/
def destroySurface (cfg : AccelConfig) (sid : FifoWord) : FifoM IOReturn := do
  if !cfg.haveSVGA3D then return .noDevice
  else
    let _ ← SVGACommands.destroySurface sid
    return .success

/-- `surfaceDMA2D`. -/
def surfaceDMA2D (cfg : AccelConfig) (sid transfer : FifoWord)
    (region : Option IOAccelDeviceRegion) (extra : Option ExtraInfo) (fence : Bool) :
    FifoM (IOReturn × Option ℕ) := do
  match extra with
  | none => return (.badArgument, none)
  | some extra =>
      if !cfg.haveSVGA3D then return (.noDevice, none)
      else
        if ← SVGACommands.beginSurfaceDMA
            ⟨⟨extra.memGmrId, word extra.memOffsetInGmr⟩, word extra.memPitch⟩ ⟨sid, 0, 0⟩ transfer
            (regionRects region).length then
          store 9 ((regionRects region).flatMap (copyBox extra))
          fifoCommitAll
          let stored ← fenceIf fence
          return (.success, stored)
        else return (.success, none)

/-- `surfaceCopy`. -/
def surfaceCopy (cfg : AccelConfig) (srcSid dstSid : FifoWord)
    (region : Option IOAccelDeviceRegion) (extra : Option ExtraInfo) : FifoM IOReturn := do
  match extra with
  | none => return .badArgument
  | some extra =>
      if !cfg.haveSVGA3D then return .noDevice
      else
        if ← SVGACommands.beginSurfaceCopy ⟨srcSid, 0, 0⟩ ⟨dstSid, 0, 0⟩
            (regionRects region).length then
          store 8 ((regionRects region).flatMap (copyBox extra))
          fifoCommitAll
          return .success
        else return .success

/-- `surfaceStretch`. -/
def surfaceStretch (cfg : AccelConfig) (srcSid dstSid mode : FifoWord)
    (srcRect destRect : IOAccelBounds) : FifoM IOReturn := do
  if !cfg.haveSVGA3D then return .noDevice
  else
    let _ ← SVGACommands.surfaceStretchBlt ⟨srcSid, 0, 0⟩ ⟨dstSid, 0, 0⟩ (boundsBox srcRect)
      (boundsBox destRect) mode
    return .success

/-- `m_present_tracker.after`, and the fence that it stores. -/
def presentAfter : FifoM ℕ := do
  let fence ← insertFence
  modify fun c => { c with presentTracker := c.presentTracker.after fence }
  return fence

/-- `surfacePresentAutoSync`, behind `SyncToFence`. -/
def surfacePresentAutoSync (cfg : AccelConfig) (sid : FifoWord)
    (region : Option IOAccelDeviceRegion) (extra : Option ExtraInfo) :
    FifoM (IOReturn × Option ℕ) := do
  match extra with
  | none => return (.badArgument, none)
  | some extra =>
      if !cfg.haveSVGA3D then return (.noDevice, none)
      else
        if ← SVGACommands.beginPresent sid (regionRects region).length then
          store 3 ((regionRects region).flatMap (copyRect extra))
          fifoCommitAll
          let stored ← presentAfter
          return (.success, some stored)
        else return (.success, none)

/-- `surfacePresentReadback`. -/
def surfacePresentReadback (cfg : AccelConfig) (region : Option IOAccelDeviceRegion) :
    FifoM IOReturn := do
  if !cfg.haveSVGA3D then return .noDevice
  else
    if ← SVGACommands.beginPresentReadback (regionRects region).length then
      store 2 ((regionRects region).flatMap boundsWords)
      fifoCommitAll
      return .success
    else return .success

/-- `setRenderTarget`. -/
def setRenderTarget (cfg : AccelConfig) (cid rtype sid : FifoWord) : FifoM IOReturn := do
  if !cfg.haveSVGA3D then return .noDevice
  else
    let _ ← SVGACommands.setRenderTarget cid rtype ⟨sid, 0, 0⟩
    return .success

/-- `clear`. -/
def clear (cfg : AccelConfig) (cid flags : FifoWord) (region : Option IOAccelDeviceRegion)
    (color depth stencil : FifoWord) : FifoM IOReturn := do
  if !cfg.haveSVGA3D then return .noDevice
  else
    if ← SVGACommands.beginClear cid flags color depth stencil (regionRects region).length then
      store 7 ((regionRects region).flatMap boundsWords)
      fifoCommitAll
      return .success
    else return .success

/-- `createContext`. -/
def createContext (cfg : AccelConfig) (cid : FifoWord) : FifoM IOReturn := do
  if !cfg.haveSVGA3D then return .noDevice
  else
    let _ ← SVGACommands.defineContext cid
    return .success

/-- `destroyContext`. -/
def destroyContext (cfg : AccelConfig) (cid : FifoWord) : FifoM IOReturn := do
  if !cfg.haveSVGA3D then return .noDevice
  else
    let _ ← SVGACommands.destroyContext cid
    return .success

/-- `drawPrimitives`; the declarations and the ranges are given by their words. -/
def drawPrimitives (cfg : AccelConfig) (cid : FifoWord) (decls : List (Vector FifoWord 9))
    (ranges : List (Vector FifoWord 7)) : FifoM IOReturn := do
  if !cfg.haveSVGA3D then return .noDevice
  else
    if ← SVGACommands.beginDrawPrimitives cid decls.length ranges.length then
      store 5 (decls.flatMap Vector.toList)
      store (5 + 9 * decls.length) (ranges.flatMap Vector.toList)
      fifoCommitAll
      return .success
    else return .success

/-- `setTextureState`. -/
def setTextureState (cfg : AccelConfig) (cid : FifoWord) (states : List (Vector FifoWord 3)) :
    FifoM IOReturn := do
  if !cfg.haveSVGA3D then return .noDevice
  else
    if ← SVGACommands.beginSetTextureState cid states.length then
      store 3 (states.flatMap Vector.toList)
      fifoCommitAll
      return .success
    else return .success

/-- `setRenderState`. -/
def setRenderState (cfg : AccelConfig) (cid : FifoWord) (states : List (Vector FifoWord 2)) :
    FifoM IOReturn := do
  if !cfg.haveSVGA3D then return .noDevice
  else
    if ← SVGACommands.beginSetRenderState cid states.length then
      store 3 (states.flatMap Vector.toList)
      fifoCommitAll
      return .success
    else return .success

/-- `surfaceDMA3DEx`. -/
def surfaceDMA3DEx (cfg : AccelConfig) (hostImage : SVGA3dSurfaceImageId) (transfer : FifoWord)
    (copyBox : Option (Vector FifoWord 9)) (extra : Option ExtraInfoEx) (fence : Bool) :
    FifoM (IOReturn × Option ℕ) := do
  match extra, copyBox with
  | some extra, some copyBox =>
      if !cfg.haveSVGA3D then return (.noDevice, none)
      else
        if ← SVGACommands.beginSurfaceDMAwithSuffix
            ⟨⟨extra.memGmrId, word extra.memOffsetInGmr⟩, word extra.memPitch⟩ hostImage transfer 1
            (word extra.memLimit) extra.suffixFlags then
          store 9 copyBox.toList
          fifoCommitAll
          let stored ← fenceIf fence
          return (.success, stored)
        else return (.success, none)
  | _, _ => return (.badArgument, none)

/-! ### Methods for screens -/

/-- `createPrimaryScreen`. -/
def createPrimaryScreen (cfg : AccelConfig) (width height : ℕ) : FifoM IOReturn := do
  if !cfg.haveScreenObject then return .noDevice
  else
    let c ← get
    if (width, height) = c.primaryScreen then return .success
    else
      let pitch := (width * 4 + 7) / 8 * 8
      let _ ← SVGACommands.defineScreen 44 [44, 0, 3, word width, word height, 0, 0, gmrVramWord, 0,
        word pitch, 0]
      modify fun c => { c with primaryScreen := (width, height) }
      return .success

/-- The format of screen images. -/
def gmrfbFormat : FifoWord := 0x1820

/-- `blitFromScreen`. -/
def blitFromScreen (cfg : AccelConfig) (srcScreenId : FifoWord)
    (region : Option IOAccelDeviceRegion) (extra : Option ExtraInfo) (fence : Bool) :
    FifoM (IOReturn × Option ℕ) := do
  match extra with
  | none => return (.badArgument, none)
  | some extra =>
      if !cfg.haveScreenObject then return (.noDevice, none)
      else
        let _ ← SVGACommands.defineGMRFB ⟨extra.memGmrId, word extra.memOffsetInGmr⟩
          (word extra.memPitch) gmrfbFormat
        (regionRects region).forM fun src => do
          let _ ← SVGACommands.blitToGMRFB
            ⟨src.x.toInt + extra.dstDeltaX, src.y.toInt + extra.dstDeltaY⟩
            (convertRect src extra.srcDeltaX extra.srcDeltaY) srcScreenId
        let stored ← fenceIf fence
        return (.success, stored)

/-- `blitToScreen`. -/
def blitToScreen (cfg : AccelConfig) (destScreenId : FifoWord)
    (region : Option IOAccelDeviceRegion) (extra : Option ExtraInfo) (fence : Bool) :
    FifoM (IOReturn × Option ℕ) := do
  match extra with
  | none => return (.badArgument, none)
  | some extra =>
      if !cfg.haveScreenObject then return (.noDevice, none)
      else
        let _ ← SVGACommands.defineGMRFB ⟨extra.memGmrId, word extra.memOffsetInGmr⟩
          (word extra.memPitch) gmrfbFormat
        (regionRects region).forM fun src => do
          let _ ← SVGACommands.blitFromGMRFB
            ⟨src.x.toInt + extra.srcDeltaX, src.y.toInt + extra.srcDeltaY⟩
            (convertRect src extra.dstDeltaX extra.dstDeltaY) destScreenId
        let stored ← fenceIf fence
        return (.success, stored)

/-- `blitSurfaceToScreen`. -/
def blitSurfaceToScreen (cfg : AccelConfig) (srcSid destScreenId : FifoWord)
    (srcRect : IOAccelBounds) (rgn : IOAccelDeviceRegion) : FifoM IOReturn := do
  if !cfg.haveScreenObject then return .noDevice
  else
    let destRect := convertRect rgn.bounds 0 0
    if ← SVGACommands.beginBlitSurfaceToScreen ⟨srcSid, 0, 0⟩ (convertRect srcRect 0 0) destScreenId
        destRect rgn.rect.length then
      store 14 (rgn.rect.flatMap fun r =>
        (convertRect r (-destRect.left) (-destRect.top)).words)
      fifoCommitAll
      return .success
    else return .success

/-! ### Video and GMRs -/

/-- `VideoSetRegsInRange`. -/
def videoSetRegsInRange (cfg : AccelConfig) (streamId : ℕ) (regs : Option (ℕ → FifoWord))
    (regMin regMax : ℕ) (fence : Bool) : FifoM (IOReturn × Option ℕ) := do
  if !cfg.haveFramebuffer then return (.noDevice, none)
  else
    let _ ← match regs with
      | some regs => SVGACommands.videoSetRegsInRange streamId regs regMin regMax
      | none => pure true
    let _ ← SVGACommands.videoFlush streamId
    let stored ← fenceIf fence
    return (.success, stored)

/-- `VideoSetReg`. -/
def videoSetReg (cfg : AccelConfig) (streamId registerId : ℕ) (value : FifoWord) (fence : Bool) :
    FifoM (IOReturn × Option ℕ) := do
  if !cfg.haveFramebuffer then return (.noDevice, none)
  else
    let _ ← SVGACommands.videoSetReg streamId registerId value
    let _ ← SVGACommands.videoFlush streamId
    let stored ← fenceIf fence
    return (.success, stored)

/-- `createGMR2`: `length` is the length of the memory, `allocated` says whether the page list
is allocated, and `ppns` is what the walk over the pages gives, `none` for a page out of
reach. -/
def createGMR2 (cfg : AccelConfig) (gmrId : FifoWord) (length : Option ℕ) (allocated : Bool)
    (ppns : Option (List FifoWord)) : FifoM IOReturn := do
  match length with
  | none => return .badArgument
  | some length =>
      let numPages := (length + pageSize - 1) / pageSize
      if !cfg.haveFramebuffer then return .noDevice
      else if !cfg.hasGMR2 then return .unsupported
      else if numPages = 0 then return .badArgument
      else if numPages > cfg.maxGMRPages then return .unsupported
      else if !allocated then return .noMemory
      else
        match ppns with
        | none => return .unsupported
        | some ppns =>
            if ← SVGACommands.defineGMR2 gmrId (word numPages) then
              let _ ← SVGACommands.remapGMR2 gmrId 0 0 (word numPages) (some ppns) (4 * numPages)
              return .success
            else return .deviceError

/-- `destroyGMR2`. -/
def destroyGMR2 (cfg : AccelConfig) (gmrId : FifoWord) : FifoM IOReturn := do
  if !cfg.haveFramebuffer then return .noDevice
  else if !cfg.hasGMR2 then return .unsupported
  else
    let _ ← SVGACommands.defineGMR2 gmrId 0
    return .success

/-! ### Nothing is left open -/

/-- The command of a fence, if one is wanted. -/
def fenceSizes (wanted : Bool) : List ℕ := if wanted then [8] else []

/-- A loop that stops at a refused command leaves nothing open. -/
theorem untilRefused_closes {ι : Type} {f : ι → FifoM Bool} {bytes : ℕ}
    (hf : ∀ i, Closes [bytes] (f i)) (rc : Bool) (l : List ι) :
    Closes (List.replicate l.length bytes) (untilRefused f rc l) := by
  induction l generalizing rc with
  | nil => exact .pure rc
  | cons i l ih => exact (hf i).bind fun ok => .ite (fun _ => ih true) fun _ => .pure false

/-- A fence where one is wanted. -/
theorem fenceIf_closes (wanted : Bool) : Closes (fenceSizes wanted) (fenceIf wanted) :=
  .branch (insertFence_closes.bindNil fun fence => .pure (some fence)) (.pure none)

/-- A fence that is handed back with the return value. -/
theorem fenceReturn_closes (wanted : Bool) : Closes (fenceSizes wanted) (do
    let stored ← fenceIf wanted
    return (IOReturn.success, stored)) :=
  (fenceIf_closes wanted).bindNil fun stored => .pure (IOReturn.success, stored)

/-- A command for the bounds of a region, or one for each of its rectangles. -/
theorem copyRegion_closes (cfg : AccelConfig) (destX destY : ℤ) (rgn : IOAccelDeviceRegion)
    (regionSize : ℕ) (rc : Bool) :
    Closes (if regionSize < rgn.size then [] else if cfg.haveFrontBuffer then []
      else if !cfg.haveFramebuffer then [] else if cfg.regionBoundsCopy then [28]
      else List.replicate rgn.rect.length 28)
      (copyRegion cfg destX destY (some rgn) regionSize rc) := by
  refine .branch (.pure IOReturn.badArgument) (.branch (.pure IOReturn.success) ?_)
  refine .branch (.pure IOReturn.noDevice) (.branch ?_ ?_)
  · exact (emitCmd_closes 3 _ (by simp)).bindNil fun rc => .pure (rcReturn rc)
  · exact (untilRefused_closes (fun rect => emitCmd_closes 3 _ (by simp)) rc rgn.rect).bindNil
      fun rc => .pure (rcReturn rc)

/-- Where there is a front buffer, `CopyRegion` has nothing to send. -/
theorem copyRegions_closes {cfg : AccelConfig} (hfront : cfg.haveFrontBuffer = true) (rc : Bool)
    (rects : List (Vector FifoWord 6)) : Closes [] (copyRegions cfg rc rects) := by
  induction rects with
  | nil => exact .pure IOReturn.success
  | cons r rects ih =>
      have hcopy : Closes [] (copyRegion cfg r[2].toInt r[3].toInt (some (setRegion r))
          (setRegion r).size rc) := by
        have hcloses := copyRegion_closes cfg r[2].toInt r[3].toInt (setRegion r)
          (setRegion r).size rc
        rwa [if_neg (Nat.lt_irrefl _), if_pos hfront] at hcloses
      exact hcopy.bindNil fun rv => .ite (fun _ => ih) fun _ => .pure rv

/-- A command for each rectangle, or nothing. -/
theorem rectCopy_closes (cfg : AccelConfig) (rects : List (Vector FifoWord 6)) (rc : Bool) :
    Closes (if cfg.haveFrontBuffer then [] else if !cfg.haveFramebuffer then []
      else List.replicate rects.length 28) (rectCopy cfg (some rects) rc) := by
  cases rects with
  | nil => exact .pure IOReturn.badArgument
  | cons r rects =>
      change Closes _ (if _ then _ else _)
      by_cases hfront : cfg.haveFrontBuffer = true
      · rw [if_pos hfront, if_pos hfront]
        exact copyRegions_closes hfront rc (r :: rects)
      · rw [if_neg hfront, if_neg hfront]
        refine .branch (.pure IOReturn.noDevice) ?_
        exact (untilRefused_closes (fun rect => emitCmd_closes 3 _ (by simp)) rc
          (r :: rects)).bindNil fun rc => .pure (rcReturn rc)

/-- A command for each rectangle. -/
theorem rectFill_closes (cfg : AccelConfig) (color : FifoWord) (rects : List (Vector FifoWord 4))
    (rc : Bool) : Closes (if !cfg.haveFramebuffer then [] else List.replicate rects.length 28)
      (rectFill cfg color (some rects) rc) := by
  cases rects with
  | nil => exact .pure IOReturn.badArgument
  | cons r rects =>
      refine .branch (.pure IOReturn.noDevice) ?_
      exact (untilRefused_closes (fun rect => emitCmd_closes 29 _ (by simp)) rc
        (r :: rects)).bindNil fun rc => .pure (rcReturn rc)

/-- The fence behind a present. -/
theorem presentAfter_closes : Closes [8] presentAfter := by
  refine insertFence_closes.bindNil fun fence => ?_
  exact Closes.bind (k := []) (.modify (fun _ => rfl) (fun _ => rfl) (fun _ => rfl)
    (fun _ => rfl) fun _ => rfl) fun _ => .pure fence

/-- A command begun by `begin3D` and filled at once. -/
theorem begin3D_closes {α : Type} {n : List ℕ} (cmd : ℕ) (args : List FifoWord) (bytes i : ℕ)
    (ws : List FifoWord) {next other : FifoM α} (hnext : Closes n next) (hother : Closes n other)
    {size : ℕ} (hsize : SVGACommands.bytes3D args bytes = size) : Closes (size :: n) (do
      if ← SVGACommands.begin3D cmd args bytes then
        store i ws
        fifoCommitAll
        next
      else other) := by
  subst hsize
  exact (SVGACommands.begin3D_opens cmd args bytes).complete (SVGACommands.bytes3D_pos _ _) i ws
    hnext hother

/-- A command begun by `begin3D` and filled in two pieces. -/
theorem begin3D_closes₂ {α : Type} {n : List ℕ} (cmd : ℕ) (args : List FifoWord)
    (bytes i j : ℕ) (ws us : List FifoWord) {next other : FifoM α} (hnext : Closes n next)
    (hother : Closes n other) {size : ℕ} (hsize : SVGACommands.bytes3D args bytes = size) :
    Closes (size :: n) (do
      if ← SVGACommands.begin3D cmd args bytes then
        store i ws
        store j us
        fifoCommitAll
        next
      else other) := by
  subst hsize
  have hfill : Fills (do
      store i ws
      store j us) := fun c₀ bytes =>
    (store_fills i ws c₀ bytes).bind (n := 0) (fun _ => store_fills j us c₀ bytes) fun h => ⟨h, h⟩
  have hclosed := (SVGACommands.begin3D_opens cmd args bytes).completeWith
    (SVGACommands.bytes3D_pos _ _) hfill hnext hother
  simp only [bind_assoc] at hclosed
  exact hclosed

/-- A surface of one mip level. -/
theorem createSurface_closes (cfg : AccelConfig)
    (sid surfaceFlags surfaceFormat width height : FifoWord) :
    Closes (if !cfg.haveSVGA3D then [] else [56])
      (createSurface cfg sid surfaceFlags surfaceFormat width height) :=
  .branch (.pure IOReturn.noDevice)
    (begin3D_closes₂ 1040 _ 0 5 11 _ _ (.pure IOReturn.success) (.pure IOReturn.success) rfl)

/-- The boxes of a transfer between a surface and guest memory. -/
theorem surfaceDMA2D_closes (cfg : AccelConfig) (sid transfer : FifoWord)
    (region : Option IOAccelDeviceRegion) (extra : ExtraInfo) (fence : Bool) :
    Closes (if !cfg.haveSVGA3D then []
      else (36 + 36 * (regionRects region).length) :: fenceSizes fence)
      (surfaceDMA2D cfg sid transfer region (some extra) fence) := by
  refine .branch (.pure (IOReturn.noDevice, none)) ?_
  refine begin3D_closes 1044 _ 0 9 _ (fenceReturn_closes fence)
    (.pure (IOReturn.success, none)) ?_
  simp only [SVGACommands.bytes3D, List.length_append, List.length_replicate,
    SVGA3dGuestImage.words, SVGAGuestPtr.words, SVGA3dSurfaceImageId.words, List.length_cons,
    List.length_nil]
  omega

/-- The boxes of a copy between surfaces. -/
theorem surfaceCopy_closes (cfg : AccelConfig) (srcSid dstSid : FifoWord)
    (region : Option IOAccelDeviceRegion) (extra : ExtraInfo) :
    Closes (if !cfg.haveSVGA3D then [] else [32 + 36 * (regionRects region).length])
      (surfaceCopy cfg srcSid dstSid region (some extra)) := by
  refine .branch (.pure IOReturn.noDevice) ?_
  refine begin3D_closes 1042 _ 0 8 _ (.pure IOReturn.success) (.pure IOReturn.success) ?_
  simp only [SVGACommands.bytes3D, List.length_append, List.length_replicate,
    SVGA3dSurfaceImageId.words, List.length_cons, List.length_nil]
  omega

/-- The rectangles of a present, and its fence. -/
theorem surfacePresentAutoSync_closes (cfg : AccelConfig) (sid : FifoWord)
    (region : Option IOAccelDeviceRegion) (extra : ExtraInfo) :
    Closes (if !cfg.haveSVGA3D then [] else [12 + 24 * (regionRects region).length, 8])
      (surfacePresentAutoSync cfg sid region (some extra)) := by
  refine .branch (.pure (IOReturn.noDevice, none)) ?_
  refine begin3D_closes 1058 _ _ 3 _ (presentAfter_closes.bindNil fun stored =>
    .pure (IOReturn.success, some stored)) (.pure (IOReturn.success, none)) ?_
  rw [SVGACommands.bytes3D, List.length_singleton, ← Nat.add_assoc]

/-- The declarations and the ranges of a draw. -/
theorem drawPrimitives_closes (cfg : AccelConfig) (cid : FifoWord)
    (decls : List (Vector FifoWord 9)) (ranges : List (Vector FifoWord 7)) :
    Closes (if !cfg.haveSVGA3D then [] else [20 + (36 * decls.length + 28 * ranges.length)])
      (drawPrimitives cfg cid decls ranges) := by
  refine .branch (.pure IOReturn.noDevice) ?_
  refine begin3D_closes₂ 1063 _ _ 5 _ _ _ (.pure IOReturn.success) (.pure IOReturn.success) ?_
  simp only [SVGACommands.bytes3D, List.length_cons, List.length_nil]
  omega

/-- A transfer of one box with its suffix. -/
theorem surfaceDMA3DEx_closes (cfg : AccelConfig) (hostImage : SVGA3dSurfaceImageId)
    (transfer : FifoWord) (copyBox : Vector FifoWord 9) (extra : ExtraInfoEx) (fence : Bool) :
    Closes (if !cfg.haveSVGA3D then [] else 84 :: fenceSizes fence)
      (surfaceDMA3DEx cfg hostImage transfer (some copyBox) (some extra) fence) :=
  .branch (.pure (IOReturn.noDevice, none))
    ((SVGACommands.beginSurfaceDMAwithSuffix_opens _ _ _ 1 _ _).complete (by decide) 9 _
      (fenceReturn_closes fence) (.pure (IOReturn.success, none)))

/-- The blits of a region, one command for each rectangle. -/
theorem blits_closes {first : FifoM Bool} {k n : ℕ} (hfirst : Closes [k] first)
    {blit : IOAccelBounds → FifoM Bool} (hblit : ∀ src, Closes [n] (blit src))
    (rects : List IOAccelBounds) (fence : Bool) :
    Closes (k :: (rects.flatMap fun _ => [n]) ++ fenceSizes fence) (do
      let _ ← first
      rects.forM fun src => do let _ ← blit src
      let stored ← fenceIf fence
      return (IOReturn.success, stored)) :=
  hfirst.bind fun _ => (Closes.forM (fun src => (hblit src).void ()) rects).bind fun _ =>
    fenceReturn_closes fence

/-- The rectangles that are read back from a screen, and a fence. -/
theorem blitFromScreen_closes (cfg : AccelConfig) (srcScreenId : FifoWord)
    (region : Option IOAccelDeviceRegion) (extra : ExtraInfo) (fence : Bool) :
    Closes (if !cfg.haveScreenObject then []
      else 20 :: ((regionRects region).flatMap fun _ => [32]) ++ fenceSizes fence)
      (blitFromScreen cfg srcScreenId region (some extra) fence) :=
  .branch (.pure (IOReturn.noDevice, none))
    (blits_closes (emitCmd_closes 36 _ (by rfl)) (fun _ => emitCmd_closes 38 _ (by rfl))
      (regionRects region) fence)

/-- The rectangles that are sent to a screen, and a fence. -/
theorem blitToScreen_closes (cfg : AccelConfig) (destScreenId : FifoWord)
    (region : Option IOAccelDeviceRegion) (extra : ExtraInfo) (fence : Bool) :
    Closes (if !cfg.haveScreenObject then []
      else 20 :: ((regionRects region).flatMap fun _ => [32]) ++ fenceSizes fence)
      (blitToScreen cfg destScreenId region (some extra) fence) :=
  .branch (.pure (IOReturn.noDevice, none))
    (blits_closes (emitCmd_closes 36 _ (by rfl)) (fun _ => emitCmd_closes 37 _ (by rfl))
      (regionRects region) fence)

/-- A screen object of eleven words. -/
theorem createPrimaryScreen_closes (cfg : AccelConfig) (width height : ℕ) :
    Closes (if !cfg.haveScreenObject then [] else [48])
      (createPrimaryScreen cfg width height) := by
  refine .branch (.pure IOReturn.noDevice) (.getBind fun c => ?_)
  refine .ite (fun _ => .pure IOReturn.success) fun _ => ?_
  refine (defineScreen_closes 44 _).bindNil fun _ => ?_
  exact Closes.bind (k := []) (.modify (fun _ => rfl) (fun _ => rfl) (fun _ => rfl)
    (fun _ => rfl) fun _ => rfl) fun _ => .pure IOReturn.success

/-- The registers of a range, a flush and a fence. -/
theorem videoSetRegsInRange_closes (cfg : AccelConfig) (streamId : ℕ)
    (regs : Option (ℕ → FifoWord)) (regMin regMax : ℕ) (fence : Bool) :
    Closes (if !cfg.haveFramebuffer then []
      else (if regs.isNone ∨ regMin > regMax then []
        else [20 + 8 * add32 (sub32 regMax regMin) 1]) ++
        20 :: fenceSizes fence) (videoSetRegsInRange cfg streamId regs regMin regMax fence) := by
  refine .branch (.pure (IOReturn.noDevice, none)) ?_
  have hrest : Closes (20 :: fenceSizes fence) (do
      let _ ← SVGACommands.videoFlush streamId
      let stored ← fenceIf fence
      return (IOReturn.success, stored)) :=
    (emitEscape_closes _ _ (by simp)).bind (k := [20]) fun _ => fenceReturn_closes fence
  cases regs with
  | some regs =>
      simp only [Option.isNone_some, Bool.false_eq_true, false_or]
      exact (SVGACommands.videoSetRegsInRange_closes streamId regs regMin regMax).bind
        fun _ => hrest
  | none => exact hrest

/-- A register, a flush and a fence. -/
theorem videoSetReg_closes (cfg : AccelConfig) (streamId registerId : ℕ) (value : FifoWord)
    (fence : Bool) : Closes (if !cfg.haveFramebuffer then [] else 28 :: 20 :: fenceSizes fence)
      (videoSetReg cfg streamId registerId value fence) :=
  .branch (.pure (IOReturn.noDevice, none))
    ((SVGACommands.videoSetReg_closes streamId registerId value).bind (k := [28]) fun _ =>
      (emitEscape_closes _ _ (by simp)).bind (k := [20]) fun _ => fenceReturn_closes fence)

/-- Without a list of pages nothing is sent. -/
theorem createGMR2_unsupported (cfg : AccelConfig) (gmrId : FifoWord) (length : ℕ)
    (allocated : Bool) : Closes [] (createGMR2 cfg gmrId (some length) allocated none) := by
  refine .ite (fun _ => .pure IOReturn.noDevice) fun _ => ?_
  refine .ite (fun _ => .pure IOReturn.unsupported) fun _ => ?_
  refine .ite (fun _ => .pure IOReturn.badArgument) fun _ => ?_
  refine .ite (fun _ => .pure IOReturn.unsupported) fun _ => ?_
  exact .ite (fun _ => .pure IOReturn.noMemory) fun _ => .pure IOReturn.unsupported

/-- The definition of a GMR and, unless that is refused, its pages. -/
theorem createGMR2_closes (cfg : AccelConfig) (gmrId : FifoWord) (length : ℕ)
    (allocated : Bool) (ppns : List FifoWord) :
    Closes (if !cfg.haveFramebuffer then [] else if !cfg.hasGMR2 then []
      else [12, 16 + 4 * ((length + pageSize - 1) / pageSize) + 4])
      (createGMR2 cfg gmrId (some length) allocated (some ppns)) := by
  refine .branch (.pure IOReturn.noDevice) (.branch (.pure IOReturn.unsupported) ?_)
  refine .ite (fun _ => .pure IOReturn.badArgument) fun _ => ?_
  refine .ite (fun _ => .pure IOReturn.unsupported) fun _ => ?_
  refine .ite (fun _ => .pure IOReturn.noMemory) fun _ => ?_
  refine (emitCmd_closes 41 _ (by rfl)).bind (k := [12]) fun ok =>
    .ite (fun _ => ?_) fun _ => .pure IOReturn.deviceError
  have hremap := SVGACommands.remapGMR2_closes gmrId 0 0
    (word ((length + pageSize - 1) / pageSize)) (some ppns)
    (4 * ((length + pageSize - 1) / pageSize))
  simp only [Option.isNone_some, Bool.false_eq_true, false_and, if_false] at hremap
  exact hremap.bindNil fun _ => .pure IOReturn.success

end AccelCommands

/-! ### All methods -/

/-- The methods of the accelerator that put commands into the FIFO, with their arguments. -/
inductive AccelMethod
  | rectCopy (copyRects : Option (List (Vector FifoWord 6))) (rc : Bool)
  | rectFill (color : FifoWord) (rects : Option (List (Vector FifoWord 4))) (rc : Bool)
  | updateFramebufferAutoRing (rect : Option (Vector FifoWord 4))
  | copyRegion (destX destY : ℤ) (region : Option IOAccelDeviceRegion) (regionSize : ℕ) (rc : Bool)
  | createSurface (sid surfaceFlags surfaceFormat width height : FifoWord)
  | destroySurface (sid : FifoWord)
  | surfaceDMA2D (sid transfer : FifoWord) (region : Option IOAccelDeviceRegion)
      (extra : Option ExtraInfo) (fence : Bool)
  | surfaceCopy (srcSid dstSid : FifoWord) (region : Option IOAccelDeviceRegion)
      (extra : Option ExtraInfo)
  | surfaceStretch (srcSid dstSid mode : FifoWord) (srcRect destRect : IOAccelBounds)
  | surfacePresentAutoSync (sid : FifoWord) (region : Option IOAccelDeviceRegion)
      (extra : Option ExtraInfo)
  | surfacePresentReadback (region : Option IOAccelDeviceRegion)
  | setRenderTarget (cid rtype sid : FifoWord)
  | clear (cid flags : FifoWord) (region : Option IOAccelDeviceRegion)
      (color depth stencil : FifoWord)
  | createContext (cid : FifoWord)
  | destroyContext (cid : FifoWord)
  | drawPrimitives (cid : FifoWord) (decls : List (Vector FifoWord 9))
      (ranges : List (Vector FifoWord 7))
  | setTextureState (cid : FifoWord) (states : List (Vector FifoWord 3))
  | setRenderState (cid : FifoWord) (states : List (Vector FifoWord 2))
  | surfaceDMA3DEx (hostImage : SVGA3dSurfaceImageId) (transfer : FifoWord)
      (copyBox : Option (Vector FifoWord 9)) (extra : Option ExtraInfoEx) (fence : Bool)
  | createPrimaryScreen (width height : ℕ)
  | blitFromScreen (srcScreenId : FifoWord) (region : Option IOAccelDeviceRegion)
      (extra : Option ExtraInfo) (fence : Bool)
  | blitToScreen (destScreenId : FifoWord) (region : Option IOAccelDeviceRegion)
      (extra : Option ExtraInfo) (fence : Bool)
  | blitSurfaceToScreen (srcSid destScreenId : FifoWord) (srcRect : IOAccelBounds)
      (rgn : IOAccelDeviceRegion)
  | videoSetRegsInRange (streamId : ℕ) (regs : Option (ℕ → FifoWord)) (regMin regMax : ℕ)
      (fence : Bool)
  | videoSetReg (streamId registerId : ℕ) (value : FifoWord) (fence : Bool)
  | createGMR2 (gmrId : FifoWord) (length : Option ℕ) (allocated : Bool)
      (ppns : Option (List FifoWord))
  | destroyGMR2 (gmrId : FifoWord)

/-- The call of a method. -/
def AccelMethod.run (cfg : AccelConfig) : AccelMethod → FifoM Unit
  | .rectCopy copyRects rc => do let _ ← AccelCommands.rectCopy cfg copyRects rc
  | .rectFill color rects rc => do let _ ← AccelCommands.rectFill cfg color rects rc
  | .updateFramebufferAutoRing rect => do
      let _ ← AccelCommands.updateFramebufferAutoRing cfg rect
  | .copyRegion destX destY region regionSize rc => do
      let _ ← AccelCommands.copyRegion cfg destX destY region regionSize rc
  | .createSurface sid surfaceFlags surfaceFormat width height => do
      let _ ← AccelCommands.createSurface cfg sid surfaceFlags surfaceFormat width height
  | .destroySurface sid => do let _ ← AccelCommands.destroySurface cfg sid
  | .surfaceDMA2D sid transfer region extra fence => do
      let _ ← AccelCommands.surfaceDMA2D cfg sid transfer region extra fence
  | .surfaceCopy srcSid dstSid region extra => do
      let _ ← AccelCommands.surfaceCopy cfg srcSid dstSid region extra
  | .surfaceStretch srcSid dstSid mode srcRect destRect => do
      let _ ← AccelCommands.surfaceStretch cfg srcSid dstSid mode srcRect destRect
  | .surfacePresentAutoSync sid region extra => do
      let _ ← AccelCommands.surfacePresentAutoSync cfg sid region extra
  | .surfacePresentReadback region => do
      let _ ← AccelCommands.surfacePresentReadback cfg region
  | .setRenderTarget cid rtype sid => do let _ ← AccelCommands.setRenderTarget cfg cid rtype sid
  | .clear cid flags region color depth stencil => do
      let _ ← AccelCommands.clear cfg cid flags region color depth stencil
  | .createContext cid => do let _ ← AccelCommands.createContext cfg cid
  | .destroyContext cid => do let _ ← AccelCommands.destroyContext cfg cid
  | .drawPrimitives cid decls ranges => do
      let _ ← AccelCommands.drawPrimitives cfg cid decls ranges
  | .setTextureState cid states => do let _ ← AccelCommands.setTextureState cfg cid states
  | .setRenderState cid states => do let _ ← AccelCommands.setRenderState cfg cid states
  | .surfaceDMA3DEx hostImage transfer copyBox extra fence => do
      let _ ← AccelCommands.surfaceDMA3DEx cfg hostImage transfer copyBox extra fence
  | .createPrimaryScreen width height => do
      let _ ← AccelCommands.createPrimaryScreen cfg width height
  | .blitFromScreen srcScreenId region extra fence => do
      let _ ← AccelCommands.blitFromScreen cfg srcScreenId region extra fence
  | .blitToScreen destScreenId region extra fence => do
      let _ ← AccelCommands.blitToScreen cfg destScreenId region extra fence
  | .blitSurfaceToScreen srcSid destScreenId srcRect rgn => do
      let _ ← AccelCommands.blitSurfaceToScreen cfg srcSid destScreenId srcRect rgn
  | .videoSetRegsInRange streamId regs regMin regMax fence => do
      let _ ← AccelCommands.videoSetRegsInRange cfg streamId regs regMin regMax fence
  | .videoSetReg streamId registerId value fence => do
      let _ ← AccelCommands.videoSetReg cfg streamId registerId value fence
  | .createGMR2 gmrId length allocated ppns => do
      let _ ← AccelCommands.createGMR2 cfg gmrId length allocated ppns
  | .destroyGMR2 gmrId => do let _ ← AccelCommands.destroyGMR2 cfg gmrId

open AccelCommands in
/-- The sizes of the commands that a method may reserve room for. -/
def AccelMethod.sizes (cfg : AccelConfig) : AccelMethod → List ℕ
  | .rectCopy copyRects _ =>
      if cfg.haveFrontBuffer then [] else if !cfg.haveFramebuffer then []
      else List.replicate (copyRects.getD []).length 28
  | .rectFill _ rects _ =>
      if !cfg.haveFramebuffer then [] else List.replicate (rects.getD []).length 28
  | .updateFramebufferAutoRing rect =>
      match rect with
      | none => []
      | some _ => if cfg.haveFrontBuffer then [] else if !cfg.haveFramebuffer then [] else [20]
  | .copyRegion _ _ region regionSize _ =>
      match region with
      | none => []
      | some rgn =>
          if regionSize < rgn.size then [] else if cfg.haveFrontBuffer then []
          else if !cfg.haveFramebuffer then [] else if cfg.regionBoundsCopy then [28]
          else List.replicate rgn.rect.length 28
  | .createSurface .. => if !cfg.haveSVGA3D then [] else [56]
  | .destroySurface _ => if !cfg.haveSVGA3D then [] else [12]
  | .surfaceDMA2D _ _ region extra fence =>
      match extra with
      | none => []
      | some _ =>
          if !cfg.haveSVGA3D then []
          else (36 + 36 * (regionRects region).length) :: fenceSizes fence
  | .surfaceCopy _ _ region extra =>
      match extra with
      | none => []
      | some _ => if !cfg.haveSVGA3D then [] else [32 + 36 * (regionRects region).length]
  | .surfaceStretch .. => if !cfg.haveSVGA3D then [] else [84]
  | .surfacePresentAutoSync _ region extra =>
      match extra with
      | none => []
      | some _ => if !cfg.haveSVGA3D then [] else [12 + 24 * (regionRects region).length, 8]
  | .surfacePresentReadback region =>
      if !cfg.haveSVGA3D then [] else [8 + 16 * (regionRects region).length]
  | .setRenderTarget .. => if !cfg.haveSVGA3D then [] else [28]
  | .clear _ _ region _ _ _ =>
      if !cfg.haveSVGA3D then [] else [28 + 16 * (regionRects region).length]
  | .createContext _ => if !cfg.haveSVGA3D then [] else [12]
  | .destroyContext _ => if !cfg.haveSVGA3D then [] else [12]
  | .drawPrimitives _ decls ranges =>
      if !cfg.haveSVGA3D then [] else [20 + (36 * decls.length + 28 * ranges.length)]
  | .setTextureState _ states => if !cfg.haveSVGA3D then [] else [12 + 12 * states.length]
  | .setRenderState _ states => if !cfg.haveSVGA3D then [] else [12 + 8 * states.length]
  | .surfaceDMA3DEx _ _ copyBox extra fence =>
      match extra, copyBox with
      | some _, some _ => if !cfg.haveSVGA3D then [] else 84 :: fenceSizes fence
      | _, _ => []
  | .createPrimaryScreen .. => if !cfg.haveScreenObject then [] else [48]
  | .blitFromScreen _ region extra fence =>
      match extra with
      | none => []
      | some _ =>
          if !cfg.haveScreenObject then []
          else 20 :: ((regionRects region).flatMap fun _ => [32]) ++ fenceSizes fence
  | .blitToScreen _ region extra fence =>
      match extra with
      | none => []
      | some _ =>
          if !cfg.haveScreenObject then []
          else 20 :: ((regionRects region).flatMap fun _ => [32]) ++ fenceSizes fence
  | .blitSurfaceToScreen _ _ _ rgn =>
      if !cfg.haveScreenObject then [] else [56 + 16 * rgn.rect.length]
  | .videoSetRegsInRange _ regs regMin regMax fence =>
      if !cfg.haveFramebuffer then []
      else (if regs.isNone ∨ regMin > regMax then []
        else [20 + 8 * add32 (sub32 regMax regMin) 1]) ++ 20 :: fenceSizes fence
  | .videoSetReg _ _ _ fence =>
      if !cfg.haveFramebuffer then [] else 28 :: 20 :: fenceSizes fence
  | .createGMR2 _ length _ ppns =>
      match length, ppns with
      | some length, some _ =>
          if !cfg.haveFramebuffer then [] else if !cfg.hasGMR2 then []
          else [12, 16 + 4 * ((length + pageSize - 1) / pageSize) + 4]
      | _, _ => []
  | .destroyGMR2 _ => if !cfg.haveFramebuffer then [] else if !cfg.hasGMR2 then [] else [12]

/-- A whole command behind a check. -/
theorem guarded_closes {n : List ℕ} {p : Prop} [Decidable p] {m : FifoM Bool} (hm : Closes n m)
    (refused : IOReturn) : Closes (if p then [] else n) (do
      if p then return refused
      else
        let _ ← m
        return IOReturn.success) :=
  .branch (.pure refused) (hm.void IOReturn.success)

open AccelCommands in
/-- The methods that emit one 3D command and answer that it went well. -/
theorem guarded3D_closes {p : Prop} [Decidable p] (cmd : ℕ) (args : List FifoWord) (bytes i : ℕ)
    (ws : List FifoWord) {size : ℕ} (hsize : SVGACommands.bytes3D args bytes = size) :
    Closes (if p then [] else [size]) (do
      if p then return IOReturn.noDevice
      else
        if ← SVGACommands.begin3D cmd args bytes then
          store i ws
          fifoCommitAll
          return IOReturn.success
        else return IOReturn.success) :=
  .branch (.pure IOReturn.noDevice)
    (begin3D_closes cmd args bytes i ws (.pure IOReturn.success) (.pure IOReturn.success) hsize)

/-- A size of a command that ends with a list. -/
theorem bytes3D_add (args : List FifoWord) {k : ℕ} (hk : 8 + 4 * args.length = k) (bytes : ℕ) :
    SVGACommands.bytes3D args bytes = k + bytes := by
  rw [SVGACommands.bytes3D, ← hk, Nat.add_assoc]

open AccelCommands in
/-- The methods of the accelerator leave nothing open. -/
theorem AccelMethod.closes (cfg : AccelConfig) (m : AccelMethod) :
    Closes (m.sizes cfg) (m.run cfg) := by
  cases m with
  | rectCopy copyRects rc =>
      cases copyRects with
      | none => exact (Closes.pure IOReturn.badArgument).void ()
      | some rects => exact (rectCopy_closes cfg rects rc).void ()
  | rectFill color rects rc =>
      cases rects with
      | none => exact (Closes.pure IOReturn.badArgument).void ()
      | some rects => exact (rectFill_closes cfg color rects rc).void ()
  | updateFramebufferAutoRing rect =>
      cases rect with
      | none => exact (Closes.pure IOReturn.badArgument).void ()
      | some rect =>
          exact (Closes.branch (.pure IOReturn.success)
            (guarded_closes (emitCmd_closes 1 _ (by simp)) _)).void ()
  | copyRegion destX destY region regionSize rc =>
      cases region with
      | none => exact (Closes.pure IOReturn.badArgument).void ()
      | some rgn => exact (copyRegion_closes cfg destX destY rgn regionSize rc).void ()
  | createSurface sid surfaceFlags surfaceFormat width height =>
      exact (createSurface_closes cfg sid surfaceFlags surfaceFormat width height).void ()
  | destroySurface sid => exact (guarded_closes (emit3D_closes _ _ (by rfl)) _).void ()
  | surfaceDMA2D sid transfer region extra fence =>
      cases extra with
      | none => exact (Closes.pure (IOReturn.badArgument, none)).void ()
      | some extra => exact (surfaceDMA2D_closes cfg sid transfer region extra fence).void ()
  | surfaceCopy srcSid dstSid region extra =>
      cases extra with
      | none => exact (Closes.pure IOReturn.badArgument).void ()
      | some extra => exact (surfaceCopy_closes cfg srcSid dstSid region extra).void ()
  | surfaceStretch srcSid dstSid mode srcRect destRect =>
      exact (guarded_closes (emit3D_closes _ _ (by rfl)) _).void ()
  | surfacePresentAutoSync sid region extra =>
      cases extra with
      | none => exact (Closes.pure (IOReturn.badArgument, none)).void ()
      | some extra => exact (surfacePresentAutoSync_closes cfg sid region extra).void ()
  | surfacePresentReadback region =>
      exact (guarded3D_closes 1068 _ _ 2 _ (bytes3D_add _ (by rfl) _)).void ()
  | setRenderTarget cid rtype sid => exact (guarded_closes (emit3D_closes _ _ (by rfl)) _).void ()
  | clear cid flags region color depth stencil =>
      exact (guarded3D_closes 1057 _ _ 7 _ (bytes3D_add _ (by rfl) _)).void ()
  | createContext cid => exact (guarded_closes (emit3D_closes _ _ (by rfl)) _).void ()
  | destroyContext cid => exact (guarded_closes (emit3D_closes _ _ (by rfl)) _).void ()
  | drawPrimitives cid decls ranges => exact (drawPrimitives_closes cfg cid decls ranges).void ()
  | setTextureState cid states =>
      exact (guarded3D_closes 1051 _ _ 3 _ (bytes3D_add _ (by rfl) _)).void ()
  | setRenderState cid states =>
      exact (guarded3D_closes 1049 _ _ 3 _ (bytes3D_add _ (by rfl) _)).void ()
  | surfaceDMA3DEx hostImage transfer copyBox extra fence =>
      rcases extra with - | extra
      · exact (Closes.pure (IOReturn.badArgument, none)).void ()
      · cases copyBox with
        | none => exact (Closes.pure (IOReturn.badArgument, none)).void ()
        | some copyBox =>
            exact (surfaceDMA3DEx_closes cfg hostImage transfer copyBox extra fence).void ()
  | createPrimaryScreen width height =>
      exact (createPrimaryScreen_closes cfg width height).void ()
  | blitFromScreen srcScreenId region extra fence =>
      cases extra with
      | none => exact (Closes.pure (IOReturn.badArgument, none)).void ()
      | some extra => exact (blitFromScreen_closes cfg srcScreenId region extra fence).void ()
  | blitToScreen destScreenId region extra fence =>
      cases extra with
      | none => exact (Closes.pure (IOReturn.badArgument, none)).void ()
      | some extra => exact (blitToScreen_closes cfg destScreenId region extra fence).void ()
  | blitSurfaceToScreen srcSid destScreenId srcRect rgn =>
      exact (guarded3D_closes 1069 _ _ 14 _ (bytes3D_add _ (by rfl) _)).void ()
  | videoSetRegsInRange streamId regs regMin regMax fence =>
      exact (videoSetRegsInRange_closes cfg streamId regs regMin regMax fence).void ()
  | videoSetReg streamId registerId value fence =>
      exact (videoSetReg_closes cfg streamId registerId value fence).void ()
  | createGMR2 gmrId length allocated ppns =>
      rcases length with - | length
      · exact (Closes.pure IOReturn.badArgument).void ()
      · cases ppns with
        | none => exact (createGMR2_unsupported cfg gmrId length allocated).void ()
        | some ppns => exact (createGMR2_closes cfg gmrId length allocated ppns).void ()
  | destroyGMR2 gmrId =>
      exact (Closes.branch (.pure IOReturn.noDevice)
        (guarded_closes (emitCmd_closes 41 _ (by rfl)) _)).void ()

end DockerMacos
