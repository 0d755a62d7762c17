import DockerMacos.Surface

/-!
# The Operations of a Surface

The calls that a surface gets from its own client and from 2D contexts. Each gives what it
returns, the accelerator and the surface afterwards, or `none` when it follows the pointer to
the accelerator while that is null.

## What is decided outside

What the operating system or the device decides is an argument: whether a mapping can be made,
whether a buffer is allocated, what an output returns. What the calls only log, the logging
itself and the contents of the pixels are left out.

## Flushes

A flush does not change the memory that it reads, and what it does to the screen is not followed.
Its outcome has the transfer that it asks for: the memory, the offset, the pitch and the boxes
(`Flushed`). How it is made, by the device or by the driver, is decided by `dmaType` as in the
source.

## Main definitions

* `SurfaceOp`: the calls of a surface, with what is decided outside the driver.
* `Surface.apply`: a call of a surface.
* `Outcome`: what a call returns and leaves.
-/

namespace DockerMacos

/-! ### What the calls return -/

/-- `IOAccelSurfaceInformation`. -/
structure SurfaceInformation where
  address : ℕ
  width : ℕ
  height : ℕ
  rowBytes : ℕ
  pixelFormat : PixelFormat
  colorTemperature : ℕ
  deriving DecidableEq

/-- A rectangle of pixels in guest memory. -/
structure GuestBox where
  x : ℤ
  y : ℤ
  w : ℤ
  h : ℤ
  deriving DecidableEq

/-- The guest side of a DMA or a screen blit. -/
structure Transfer where
  gmrId : ℕ
  offset : ℕ
  pitch : ℕ
  bytesPerPixel : ℕ
  boxes : List GuestBox
  deriving DecidableEq

/-- What a flush reads: the device a transfer, or the driver itself the mapped backing. -/
inductive Flushed
  | dma (t : Transfer)
  | copied (m : Option Memory)
  deriving DecidableEq

/-- The outcome of a call. -/
structure Outcome where
  ret : IOReturn
  accel : Accel
  surface : Surface
  /-- What a lock tells its client. -/
  info : Option SurfaceInformation := none
  /-- The address and the row bytes that a lock tells a 2D context. -/
  memory : Option (ℕ × ℕ) := none
  /-- What a flush reads. -/
  flushed : Option Flushed := none

namespace Surface

/-! ### Video -/

/-- `setVideoDest`, with a last region. -/
def setVideoDest (s : Surface) (r : IOAccelDeviceRegion) : Surface :=
  let unit :=
    if r.isEmpty then
      { s.video.unit with dstX := 0, dstY := 0, dstWidth := 0, dstHeight := 0 }
    else
      { s.video.unit with
        dstX := toU32 r.bounds.x.toInt
        dstY := toU32 r.bounds.y.toInt
        dstWidth := toU32 r.bounds.w.toInt
        dstHeight := toU32 r.bounds.h.toInt }
  { s with video := { s.video with unit := unit } }

/-- `setVideoRegs`, with a valid backing. -/
def setVideoRegs (s : Surface) : Surface :=
  let height := toU32 s.scale.sourceH.toInt
  let unit := { SVGAOverlayUnit.zero with
    dataOffset := s.backing.offset % 2 ^ 32
    format := s.video.vmwarePixelFormat
    width := toU32 s.scale.sourceW.toInt
    height := height
    srcX := toU32 s.scale.buffer.x.toInt
    srcY := toU32 s.scale.buffer.y.toInt
    srcWidth := toU32 s.scale.buffer.w.toInt
    srcHeight := toU32 s.scale.buffer.h.toInt
    pitch := s.scale.rowBytes
    size := height * s.scale.rowBytes % 2 ^ 32
    dataGMRId := s.backing.vtb.gmrId
    dstScreenId := s.framebufferIndex }
  { s with video := { s.video with unit := unit } }

/-- `videoReshape`. -/
def videoReshape (s : Surface) (a : Accel) : Option (Accel × Surface) :=
  if !s.videoMode || !s.video.unit.enabled then some (a, s)
  else
    match s.lastRegion with
    | none => some (a, s)
    | some r =>
        let s := s.setVideoDest r
        if s.provider then some (a.videoSetDest s.video.streamId s.video.unit, s) else none

/-- The overlay switched off in the surface's own record. -/
def overlayOff (s : Surface) : Surface :=
  { s with video := { s.video with unit := { s.video.unit with enabled := false } } }

/-- `surface_video_off`. -/
def surfaceVideoOff (s : Surface) (a : Accel) : Option (Accel × Surface) :=
  if !s.videoMode || !s.video.unit.enabled then some (a, s)
  else if s.provider then
    let a := (a.videoDisable s.video.streamId).freeStreamID s.video.streamId
    let s := s.overlayOff
    some (a, { s with video := { s.video with streamId := svgaIdInvalid } })
  else none

/-! ### Starting and closing -/

/-- What is decided while a surface finds out how to reach the screen. -/
structure Start3DEnv where
  /-- `retainMasterSurface()`. -/
  master : Bool
  /-- Whether `detectBlitBug` can create its surface. -/
  create : Bool
  /-- There is no VRAM allocator. -/
  vramFails : Bool
  /-- What the blits of `detectBlitBug` show. -/
  blit : IOReturn

/-- `detectBlitBug`: a page of VRAM is allocated for the test and freed again. -/
def detectBlitBug (a : Accel) (env : Start3DEnv) : IOReturn × Accel :=
  if !env.create then (.error, a)
  else
    let (a, ptr) := a.vramMalloc pageSize env.vramFails
    if ptr = 0 then (.noMemory, a) else (env.blit, a.vramFree ptr)

/-- `Start3D`. -/
def start3D (s : Surface) (a : Accel) (env : Start3DEnv) : Option (Accel × Surface) :=
  if !s.provider then none
  else if a.haveScreenObject then some (a, { s with haveScreenObject := true })
  else
    let s := { s with haveScreenObject := false, haveMasterSurface := env.master }
    if !env.master then some (a, s)
    else if a.optionDirectBlit then some (a, { s with directBlit := true })
    else if a.blitBugResult = .notFound then
      let (rc, a) := detectBlitBug a env
      some ({ a with blitBugResult := rc }, { s with directBlit := rc = .success })
    else some (a, { s with directBlit := a.blitBugResult = .success })

/-- `Cleanup3D`. -/
def cleanup3D (s : Surface) : Surface :=
  if !s.provider || !s.haveFrontBuffer then s
  else { s with haveMasterSurface := false, haveScreenObject := false }

/-- `clearLastRegion`. -/
def clearLastRegion (s : Surface) : Surface :=
  if s.lastRegion.isSome then { s with lastRegion := none, framebufferIndex := 0 } else s

/-- `start`. -/
def start (s : Surface) (a : Accel) (screenInfo : ScreenInfo) (env : Start3DEnv) :
    Option Outcome :=
  ({ s with provider := true, screenInfo := screenInfo }.start3D a env).map fun (a, s) =>
    { ret := .success, accel := a, surface := s }

/-- `clientClose`. -/
def clientClose (s : Surface) (a : Accel) : Option Outcome :=
  let cleaned := if s.provider then s.cleanup3D.surfaceVideoOff a else some (a, s)
  cleaned.map fun (a, s) =>
    let (a, s) := s.releaseBacking a
    { ret := .success, accel := a, surface := { s.clearLastRegion with provider := false } }

/-! ### Mode, scale and shape -/

/-- The colour depths of `set_id_mode`. -/
inductive ColorDepth
  | depth1555
  | depth8888
  | bgra32
  | yuv
  | yuv2
  | other

/-- `eIOAccelSurfaceModeBits`, decoded. -/
structure SurfaceMode where
  /-- Bits besides the colour depth and the windowed bit. -/
  otherBits : Bool
  windowed : Bool
  depth : ColorDepth

/-- What `set_id_mode` sets for a colour depth. -/
def ColorDepth.formats : ColorDepth → Option (SurfaceFormat × ℕ × PixelFormat)
  | .depth1555 => some (.x1r5g5b5, 2, .depth1555)
  | .depth8888 => some (.x8r8g8b8, 4, .depth8888)
  | .bgra32 => some (.a8r8g8b8, 4, .depth8888)
  | .yuv => some (.yuy2, 2, .yuvs)
  | .yuv2 => some (.uyvy, 2, .twoVuy)
  | .other => none

/-- `set_id_mode` after the primary screen has been seen to. -/
def setMode (s : Surface) (a : Accel) (wID : ℕ) (mode : SurfaceMode) : Outcome :=
  if mode.otherBits then { ret := .unsupported, accel := a, surface := s }
  else if !mode.windowed then { ret := .unsupported, accel := a, surface := s }
  else
    match mode.depth.formats with
    | none => { ret := .unsupported, accel := a, surface := s }
    | some (format, bytes, pixel) =>
        { ret := .success
          accel := a
          surface := { s with
            surfaceFormat := format
            bytesPerPixel := bytes
            pixelFormat := pixel
            wID := wID % 2 ^ 32
            haveID := true } }

/-- `set_id_mode`; `screen` is what `createPrimaryScreen` returns. -/
def setIdMode (s : Surface) (a : Accel) (wID : ℕ) (mode : SurfaceMode) (screen : IOReturn) :
    Option Outcome :=
  if wID = 1 then
    if !s.haveFrontBuffer then some { ret := .unsupported, accel := a, surface := s }
    else if s.haveScreenObject then
      if !s.provider then none
      else if screen ≠ .success then some { ret := screen, accel := a, surface := s }
      else some (s.setMode a wID mode)
    else some (s.setMode a wID mode)
  else some (s.setMode a wID mode)

/-- `set_scale`; there is no scaling when the pointer is null or the size too small. -/
def setScale (s : Surface) (a : Accel) (scaling : Option (IOAccelBounds × Int16 × Int16)) :
    Outcome :=
  match scaling with
  | none => { ret := .badArgument, accel := a, surface := s }
  | some (buffer, w, h) =>
      let s := { s with scale := { s.scale with buffer := buffer, sourceW := w, sourceH := h } }
      { ret := .success, accel := a, surface := s.calculateScaleParameters false }

/-- The arguments of `set_shape_backing_length_ext`. -/
structure ShapeArgs where
  options : ℕ
  framebufferIndex : ℕ
  backing : ℕ
  rowbytes : ℕ
  backingLength : ℕ
  rgn : Option IOAccelDeviceRegion
  rgnSize : ℕ
  /-- Whether the region can be stored. -/
  stored : Bool

/-- The client backing that the arguments describe, if any. -/
def newClientBacking (s : Surface) (rgn : IOAccelDeviceRegion) (args : ShapeArgs) :
    Except IOReturn (Option ClientBacking) :=
  if args.backing = 0 then .ok none
  else
    let minRowBytes := toU64 rgn.bounds.w.toInt * s.bytesPerPixel % 2 ^ 64
    let useMin := args.rowbytes = 0 ∨ args.rowbytes ≥ 2 ^ 63
    if ¬ useMin ∧ args.rowbytes < minRowBytes then .error .overrun
    else
      let rowbytes := if useMin then minRowBytes else args.rowbytes
      let minSize := toU64 rgn.bounds.h.toInt * rowbytes % 2 ^ 64
      if args.backingLength ≠ 0 ∧ args.backingLength < minSize then .error .overrun
      else
        .ok (some ⟨args.backing, rowbytes,
          if args.backingLength = 0 then minSize else args.backingLength⟩)

/-- A new client backing is recorded; a descriptor of an older one is marked. -/
def recordClientBacking (s : Surface) : Option ClientBacking → Surface
  | none => s
  | some c =>
      let vtb := s.backing.vtb
      { s with
        clientBacking := c
        backing := { s.backing with
          vtb := { vtb with gartPtr := if vtb.gartPtr ≠ 0 then 2 else vtb.gartPtr } } }

/-- The scale of `kIOAccelSurfaceShapeIdentityScaleBit`. -/
def identityScale (s : Surface) (rgn : IOAccelDeviceRegion) (packed : Bool) : Surface :=
  let scale :=
    if s.wID ≠ 1 ∨ packed then
      { s.scale with
        sourceW := rgn.bounds.w
        sourceH := rgn.bounds.h
        buffer := ⟨0, 0, rgn.bounds.w, rgn.bounds.h⟩ }
    else
      { s.scale with
        buffer := rgn.bounds
        sourceW := Int16.ofNat s.screenInfo.w
        sourceH := Int16.ofNat s.screenInfo.h }
  { s with scale := scale }.calculateScaleParameters (!(s.wID ≠ 1 ∨ packed))

/-- `set_shape_backing_length_ext`. -/
def setShape (s : Surface) (a : Accel) (args : ShapeArgs) : Option Outcome :=
  match args.rgn with
  | none => some { ret := .badArgument, accel := a, surface := s }
  | some rgn =>
      if args.rgnSize < rgn.size then some { ret := .badArgument, accel := a, surface := s }
      else if args.rgnSize > 4096 then some { ret := .noSpace, accel := a, surface := s }
      else
        let s := { s.clearLastRegion with clientBacking := .zero }
        if !s.videoMode && rgn.isEmpty then some { ret := .success, accel := a, surface := s }
        else if !s.haveID then some { ret := .notReady, accel := a, surface := s }
        else
          match s.newClientBacking rgn args with
          | .error rc => some { ret := rc, accel := a, surface := s }
          | .ok client =>
              let s := s.recordClientBacking client
              if !args.stored then
                some { ret := .noMemory, accel := a, surface := { s with clientBacking := .zero } }
              else
                let s := { s with
                  lastRegion := some rgn
                  framebufferIndex := args.framebufferIndex % 2 ^ 32 }
                let s :=
                  if args.options.testBit 2 then s.identityScale rgn a.optionPackedBacking else s
                (s.videoReshape a).map fun (a, s) =>
                  { ret := .success
                    accel := a
                    surface := { s with
                      skipWriteLockOnce :=
                        s.skipWriteLockOnce || (s.wID = 1 && args.options = 5) } }

/-! ### Locks -/

/-- `calculateSurfaceInformation`. -/
def calculateSurfaceInformation (s : Surface) : SurfaceInformation where
  address := ((if s.isClientBackingValid then s.clientBacking.addr
    else (s.backing.map0.map (·.address)).getD 0) + s.scale.byteOffset) % 2 ^ 64
  width := toU32 s.scale.buffer.w.toInt
  height := toU32 s.scale.buffer.h.toInt
  rowBytes := s.scale.rowBytes
  pixelFormat := s.pixelFormat
  colorTemperature := 0x1CCCC

/-- The outcome of a lock that hands out the surface's information. -/
def locked (s : Surface) (a : Accel) : Outcome :=
  { ret := .success, accel := a, surface := s, info := some s.calculateSurfaceInformation }

/-- `allocBacking() && mapBacking(m_owning_task, 0)`. -/
def allocAndMap0 (s : Surface) (a : Accel) (env : BackingEnv) :
    Option (Bool × Accel × Surface) :=
  match s.allocBacking a env with
  | some (true, a, s) => s.mapBacking0 a env
  | r => r

/-- `allocBacking() && mapBacking(context_owning_task, 1)`. -/
def allocAndMap1 (s : Surface) (a : Accel) (env : BackingEnv) :
    Option (Bool × Accel × Surface) :=
  match s.allocBacking a env with
  | some (true, a, s) => s.mapBacking1 a env
  | r => r

/-- `surface_read_lock_options`; `infoOk` tells whether there is room for the information. -/
def readLock (s : Surface) (a : Accel) (infoOk : Bool) (env : BackingEnv) : Option Outcome :=
  if !infoOk then some { ret := .badArgument, accel := a, surface := s }
  else if !s.haveID || !s.isSourceValid then
    some { ret := .notReady, accel := a, surface := s }
  else if s.lockedRead then some { ret := .cannotLock, accel := a, surface := s }
  else
    let s := { s with lockedRead := true }
    if s.isClientBackingValid then some (s.locked a)
    else
      (s.allocAndMap0 a env).map fun (ok, a, s) =>
        if ok then s.locked a
        else { ret := .noMemory, accel := a, surface := { s with lockedRead := false } }

/-- `surface_read_unlock_options`. -/
def readUnlock (s : Surface) (a : Accel) : Outcome :=
  { ret := .success, accel := a, surface := { s with lockedRead := false } }

/-- The part of `surface_write_lock_options` behind the lock bit. -/
def writeLocked (s : Surface) (a : Accel) (env : BackingEnv) : Option Outcome :=
  if s.isClientBackingValid then some (s.locked a)
  else
    (s.allocAndMap0 a env).map fun (ok, a, s) =>
      if ok then s.locked a
      else { ret := .noMemory, accel := a, surface := { s with lockedWrite := false } }

/-- `surface_write_lock_options`. -/
def writeLock (s : Surface) (a : Accel) (infoOk : Bool) (env : BackingEnv) : Option Outcome :=
  if !infoOk then some { ret := .badArgument, accel := a, surface := s }
  else if !s.haveID || !s.isSourceValid then
    some { ret := .notReady, accel := a, surface := s }
  else if s.skipWriteLockOnce then { s with skipWriteLockOnce := false }.writeLocked a env
  else if s.lockedWrite then some { ret := .cannotLock, accel := a, surface := s }
  else { s with lockedWrite := true }.writeLocked a env

/-- `surface_write_unlock_options`. -/
def writeUnlock (s : Surface) (a : Accel) : Outcome :=
  { ret := .success, accel := a, surface := { s with lockedWrite := false } }

/-- `setup_trick_buffer`: it fails, or puts a mapping of its own buffer, if it gets one, in
slot 0. -/
def setupTrickBuffer (s : Surface) (a : Accel) (trick : Option (Option ℕ)) : Accel × Surface :=
  if !s.isBackingValid then (a, s)
  else
    match trick with
    | none => (a, s)
    | some map =>
        ({ a with nextId := a.nextId + 1 }, { s with backing := { s.backing with
          map0 := map.map fun address => ⟨a.nextId, .trick a.nextId, address⟩ } })

/-- The outcome of a context's lock. -/
def contextLocked (s : Surface) (a : Accel) : Outcome :=
  { ret := .success
    accel := a
    surface := s
    memory := some ((s.backing.map1.map (·.address)).getD 0, s.scale.rowBytes) }

/-- `context_lock_memory`; `argsOk` tells whether both result pointers are there. -/
def contextLock (s : Surface) (a : Accel) (argsOk : Bool) (env : BackingEnv)
    (trick : Option (Option ℕ)) : Option Outcome :=
  if !argsOk then some { ret := .badArgument, accel := a, surface := s }
  else if !s.haveID || !s.isSourceValid then
    some { ret := .notReady, accel := a, surface := s }
  else if s.lockedContext then some { ret := .cannotLock, accel := a, surface := s }
  else
    match { s with lockedContext := true }.allocAndMap1 a env with
    | none => none
    | some (false, a, s) =>
        some { ret := .noMemory, accel := a, surface := { s with lockedContext := false } }
    | some (true, a, s) =>
        if s.videoMode then
          if !s.provider then none
          else if a.haveScreenObject || !a.haveSVGA3D then
            let (a, s) := s.setupTrickBuffer a trick
            some (s.contextLocked a)
          else some (s.contextLocked a)
        else some (s.contextLocked a)

/-- `context_unlock_memory`. -/
def contextUnlock (s : Surface) (a : Accel) : Outcome :=
  { ret := .success
    accel := a
    surface := { s with lockedContext := false }.releaseBackingMap 1 }

/-! ### Flushing -/

/-- The ways of `surface_flush` to the screen. -/
inductive DMAType
  | direct
  | copy
  | stretch
  | screenDirect
  | screenVia3D
  | gfb
  deriving DecidableEq

/-- The choice of `surface_flush`. -/
def dmaType (s : Surface) (a : Accel) (r : IOAccelDeviceRegion) : Except IOReturn DMAType :=
  if s.haveScreenObject then
    if s.surfaceFormat = .x8r8g8b8 ∧ s.isIdentityScale r then .ok .screenDirect
    else if !a.haveSVGA3D then .error .unsupported
    else .ok .screenVia3D
  else if s.haveMasterSurface then
    if !s.isIdentityScale r then .ok .stretch
    else if s.surfaceFormat = .x8r8g8b8 ∧ s.directBlit then .ok .direct
    else .ok .copy
  else if s.surfaceFormat ≠ .x8r8g8b8 ∨ !s.isIdentityScale r then .error .unsupported
  else .ok .gfb

/-- The boxes of `surfaceDMA2D` for the rectangles of a region. -/
def dmaBoxes (r : IOAccelDeviceRegion) : List GuestBox :=
  r.rect.map fun b => {
    x := toU32 (b.x.toInt - r.bounds.x.toInt)
    y := toU32 (b.y.toInt - r.bounds.y.toInt)
    w := toU32 b.w.toInt
    h := toU32 b.h.toInt }

/-- The source rectangles of `blitToScreen` for the rectangles of a region. -/
def screenBoxes (r : IOAccelDeviceRegion) : List GuestBox :=
  r.rect.map fun b => {
    x := b.x.toInt - r.bounds.x.toInt
    y := b.y.toInt - r.bounds.y.toInt
    w := b.w.toInt
    h := b.h.toInt }

/-- The single box of a transfer of the whole buffer. -/
def bufferBox (s : Surface) : GuestBox where
  x := 0
  y := 0
  w := toU32 s.scale.buffer.w.toInt
  h := toU32 s.scale.buffer.h.toInt

/-- The transfer of the boxes from the backing. -/
def transfer (s : Surface) (bytesPerPixel : ℕ) (boxes : List GuestBox) : Transfer where
  gmrId := s.backing.vtb.gmrId
  offset := (s.backing.offset + s.scale.byteOffset) % 2 ^ 32
  pitch := s.scale.rowBytes
  bytesPerPixel := bytesPerPixel
  boxes := boxes

/-- What a flush of a kind reads: `DMAOutDirect`, `DMAOutWithCopy`, `DMAOutStretchWithCopy`,
`ScreenObjectOutDirect`, `ScreenObjectOutVia3D` and `GFBOutDirect`. -/
def flushed (s : Surface) (r : IOAccelDeviceRegion) : DMAType → Flushed
  | .direct => .dma (s.transfer 4 (dmaBoxes r))
  | .copy => .dma (s.transfer s.surfaceFormat.bytes (dmaBoxes r))
  | .stretch => .dma (s.transfer s.surfaceFormat.bytes [s.bufferBox])
  | .screenDirect => .dma (s.transfer 4 (screenBoxes r))
  | .screenVia3D => .dma (s.transfer s.surfaceFormat.bytes [s.bufferBox])
  | .gfb => .copied (match s.backing.vtb.md with
      | some md => some md.memory
      | none => if s.backing.self ≠ 0 then some (.vram s.backing.self) else none)

/-- `surface_flush`; `out` and `present` are what the output and `doPresent` return. -/
def surfaceFlush (s : Surface) (a : Accel) (out present : IOReturn) : Option Outcome :=
  match s.lastRegion with
  | none => some { ret := .notReady, accel := a, surface := s }
  | some r =>
      if !s.haveID || !s.isBackingValid then
        some { ret := .notReady, accel := a, surface := s }
      else if s.videoMode then some { ret := .success, accel := a, surface := s }
      else if s.haveScreenObject && !s.provider then none
      else
        match s.dmaType a r with
        | .error rc => some { ret := rc, accel := a, surface := s }
        | .ok kind =>
            if !s.provider then none
            else if out ≠ .success then some { ret := out, accel := a, surface := s }
            else
              some {
                ret := if kind = .direct ∨ kind = .copy ∨ kind = .stretch then present
                  else .success
                accel := a
                surface := s
                flushed := some (s.flushed r kind) }

/-! ### The calls of 2D contexts -/

/-- `VMWARE_FOURCC_UYVY`. -/
def fourccUyvy : ℕ := 0x59565955

/-- `VMWARE_FOURCC_YUY2`. -/
def fourccYuy2 : ℕ := 0x32595559

/-- `context_set_surface`. -/
def contextSetSurface (s : Surface) (a : Accel) (vmwarePixelFormat : ℕ) (applePixelFormat :
    PixelFormat) (env : Start3DEnv) : Option Outcome :=
  if vmwarePixelFormat = 0 then
    match s.surfaceVideoOff a with
    | none => none
    | some (a, s) =>
        let s := { s with videoMode := false }
        let s :=
          if applePixelFormat = .bgra32 then
            { s with
              surfaceFormat := .a8r8g8b8
              bytesPerPixel := 4
              pixelFormat := .depth8888 }
          else s
        let started := if s.haveFrontBuffer then some (a, s) else s.start3D a env
        started.map fun (a, s) => { ret := .success, accel := a, surface := s }
  else if a.optionNoYuv then some { ret := .unsupported, accel := a, surface := s }
  else
    let s := { s.overlayOff with videoMode := true }
    let s := { s with video := { s.video with vmwarePixelFormat := vmwarePixelFormat } }
    let s := { s with
      surfaceFormat :=
        if vmwarePixelFormat = fourccUyvy then .uyvy
        else if vmwarePixelFormat = fourccYuy2 then .yuy2
        else s.surfaceFormat
      bytesPerPixel := 2
      pixelFormat := applePixelFormat }
    some { ret := .success, accel := a, surface := s.cleanup3D }

/-- `context_scale_surface`; `fixedSource` is the option bit `kIOBlitFixedSource`. -/
def contextScale (s : Surface) (a : Accel) (fixedSource : Bool) (width height : ℕ) : Outcome :=
  if !fixedSource then { ret := .success, accel := a, surface := s }
  else
    let w := Int16.ofNat width
    let h := Int16.ofNat height
    let s := { s with scale := { s.scale with
      sourceW := w, sourceH := h, buffer := ⟨0, 0, w, h⟩ } }
    { ret := .success, accel := a, surface := s.calculateScaleParameters false }

/-- `copy_framebuffer_region_to_self`; `copied` is what the blit returns. -/
def copyFramebuffer (s : Surface) (a : Accel) (region : Option IOAccelDeviceRegion)
    (regionSize : ℕ) (env : BackingEnv) (copied : IOReturn) : Option Outcome :=
  if region.all (regionSize < ·.size) then
    some { ret := .badArgument, accel := a, surface := s }
  else if !s.haveID || !s.isSourceValid then
    some { ret := .notReady, accel := a, surface := s }
  else if s.videoMode then some { ret := .unsupported, accel := a, surface := s }
  else if s.surfaceFormat ≠ .x8r8g8b8 then
    some { ret := .unsupportedMode, accel := a, surface := s }
  else
    match s.allocBacking a env with
    | none => none
    | some (false, a, s) => some { ret := .noMemory, accel := a, surface := s }
    | some (true, a, s) =>
        if !s.provider then none else some { ret := copied, accel := a, surface := s }

/-- `copy_surface_region_to_self`. -/
def copySurface (s : Surface) (a : Accel) (source : Surface)
    (region : Option IOAccelDeviceRegion) (regionSize : ℕ) (env : BackingEnv)
    (copied : IOReturn) : Option Outcome :=
  if region.all (regionSize < ·.size) then
    some { ret := .badArgument, accel := a, surface := s }
  else if !s.haveID || !s.isSourceValid then
    some { ret := .notReady, accel := a, surface := s }
  else if !source.haveID || !source.isBackingValid then
    some { ret := .notReady, accel := a, surface := s }
  else if s.surfaceFormat ≠ source.surfaceFormat ∨ s.bytesPerPixel ≠ source.bytesPerPixel then
    some { ret := .unsupported, accel := a, surface := s }
  else
    match s.allocBacking a env with
    | none => none
    | some (false, a, s) => some { ret := .noMemory, accel := a, surface := s }
    | some (true, a, s) => some { ret := copied, accel := a, surface := s }

/-- `surface_flush_video`. -/
def surfaceFlushVideo (s : Surface) (a : Accel) : Option Outcome :=
  match s.lastRegion with
  | none => some { ret := .notReady, accel := a, surface := s }
  | some r =>
      if !s.haveID || !s.isBackingValid then
        some { ret := .notReady, accel := a, surface := s }
      else if !s.videoMode then some { ret := .unsupported, accel := a, surface := s }
      else if !s.provider then none
      else if s.video.unit.enabled then some { ret := .success, accel := a, surface := s }
      else
        let (id, a) := a.allocStreamID
        let s := { s with video := { s.video with streamId := id } }
        if !isIdValid id then some { ret := .noResources, accel := a, surface := s }
        else
          let s := s.setVideoRegs.setVideoDest r
          let unit := { s.video.unit with enabled := true }
          some {
            ret := .success
            accel := a.videoSetAll id unit
            surface := { s with video := { s.video with unit := unit } } }

end Surface

/-! ### All calls -/

/-- The calls of a surface, with what is decided outside the driver. -/
inductive SurfaceOp
  | setIdMode (wID : ℕ) (mode : Surface.SurfaceMode) (screen : IOReturn)
  | setScale (scaling : Option (IOAccelBounds × Int16 × Int16))
  | setShape (args : Surface.ShapeArgs)
  | readLock (infoOk : Bool) (env : BackingEnv)
  | readUnlock
  | writeLock (infoOk : Bool) (env : BackingEnv)
  | writeUnlock
  | flush (out present : IOReturn)
  | close
  | contextSetSurface (vmwarePixelFormat : ℕ) (applePixelFormat : PixelFormat)
      (env : Surface.Start3DEnv)
  | contextScale (fixedSource : Bool) (width height : ℕ)
  | contextLock (argsOk : Bool) (env : BackingEnv) (trick : Option (Option ℕ))
  | contextUnlock
  | copyFramebuffer (region : Option IOAccelDeviceRegion) (regionSize : ℕ) (env : BackingEnv)
      (copied : IOReturn)
  | copySurface (source : Surface) (region : Option IOAccelDeviceRegion) (regionSize : ℕ)
      (env : BackingEnv) (copied : IOReturn)
  | flushVideo

/-- A call of a surface. -/
def Surface.apply (s : Surface) (a : Accel) : SurfaceOp → Option Outcome
  | .setIdMode wID mode screen => s.setIdMode a wID mode screen
  | .setScale scaling => some (s.setScale a scaling)
  | .setShape args => s.setShape a args
  | .readLock infoOk env => s.readLock a infoOk env
  | .readUnlock => some (s.readUnlock a)
  | .writeLock infoOk env => s.writeLock a infoOk env
  | .writeUnlock => some (s.writeUnlock a)
  | .flush out present => s.surfaceFlush a out present
  | .close => s.clientClose a
  | .contextSetSurface vmware apple env => s.contextSetSurface a vmware apple env
  | .contextScale fixedSource width height => some (s.contextScale a fixedSource width height)
  | .contextLock argsOk env trick => s.contextLock a argsOk env trick
  | .contextUnlock => some (s.contextUnlock a)
  | .copyFramebuffer region size env copied => s.copyFramebuffer a region size env copied
  | .copySurface source region size env copied => s.copySurface a source region size env copied
  | .flushVideo => s.surfaceFlushVideo a

end DockerMacos
