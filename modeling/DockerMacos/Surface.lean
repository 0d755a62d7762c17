import DockerMacos.Accel

/-!
# Surfaces

A surface (`AC/UC/VMsvga2Surface.cpp`) is a window buffer of the window server. Its backing,
the memory that holds its pixels, is a block of VRAM, a buffer of the kernel under a GMR, or
the client's own memory under a GMR. Its geometry (`m_scale`) is set apart from its backing,
which is allocated when memory is needed.

## State

The fields have the names of the source, and a pointer that may be null is an `Option`. What the
surface has of the accelerator is only that its pointer to it is not null (`provider`): the
accelerator is passed to the functions and returned by them. A function that follows the pointer
gives `none` when it is null.

## Backing

`allocBacking` looks at what the backing is and at what it should be (`classifyBacking`), keeps
it if that is the same and large enough, and else releases it and obtains another. A call on the
system that may fail is an argument here.

## Main definitions

* `Surface.calculateScaleParameters`: what follows from the geometry.
* `Surface.allocBacking`, `Surface.releaseBacking`: the backing comes and goes.
* `Surface.mapBacking0`, `Surface.mapBacking1`: the maps of the backing.
-/

namespace DockerMacos

/-! ### Geometry -/

/-- `IOAccelBounds`. -/
structure IOAccelBounds where
  x : Int16
  y : Int16
  w : Int16
  h : Int16
  deriving DecidableEq

/-- `IOAccelDeviceRegion`; `num_rects` is the length of `rect`. -/
structure IOAccelDeviceRegion where
  bounds : IOAccelBounds
  rect : List IOAccelBounds
  deriving DecidableEq

/-- `IOACCEL_SIZEOF_DEVICE_REGION`. -/
def IOAccelDeviceRegion.size (r : IOAccelDeviceRegion) : ℕ := 12 + 8 * r.rect.length

/-- `isRegionEmpty`. -/
def IOAccelDeviceRegion.isEmpty (r : IOAccelDeviceRegion) : Bool :=
  match r.rect with
  | [] => false
  | b :: _ => b.w ≤ 0 || b.h ≤ 0

/-- `static_cast<uint32_t>` of a signed number. -/
def toU32 (z : ℤ) : ℕ := (z % 2 ^ 32).toNat

/-- `static_cast<uint64_t>` of a signed number. -/
def toU64 (z : ℤ) : ℕ := (z % 2 ^ 64).toNat

/-- `PAGE_SIZE`. -/
def pageSize : ℕ := 4096

/-- `round_up_to_power2` to whole pages. -/
def roundUpToPage (s : ℕ) : ℕ := (s + (pageSize - 1)) % 2 ^ 32 / pageSize * pageSize

/-- `page_residue`. -/
def pageResidue (addr : ℕ) : ℕ := addr % pageSize

/-! ### The state -/

/-- `SVGA3dSurfaceFormat`, as far as surfaces have it. -/
inductive SurfaceFormat
  | invalid
  | x8r8g8b8
  | a8r8g8b8
  | x1r5g5b5
  | yuy2
  | uyvy
  deriving DecidableEq

/-- The bytes of a pixel of a host surface. -/
def SurfaceFormat.bytes : SurfaceFormat → ℕ
  | .x8r8g8b8 => 4
  | .a8r8g8b8 => 4
  | _ => 2

/-- The pixel formats that clients are told. -/
inductive PixelFormat
  | none
  | depth1555
  | depth8888
  | yuvs
  | twoVuy
  | bgra32
  deriving DecidableEq

/-- `m_backing`. -/
structure Backing where
  self : ℕ
  offset : ℕ
  size : ℕ
  map0 : Option MemoryMap
  map1 : Option MemoryMap
  vtb : VendorTransferBuffer
  deriving DecidableEq

/-- A zeroed `m_backing` with its transfer buffer initialised. -/
def Backing.init : Backing where
  self := 0
  offset := 0
  size := 0
  map0 := none
  map1 := none
  vtb := .init

/-- `m_client_backing`. -/
structure ClientBacking where
  addr : ℕ
  rowbytes : ℕ
  size : ℕ
  deriving DecidableEq

/-- A zeroed `m_client_backing`. -/
def ClientBacking.zero : ClientBacking := ⟨0, 0, 0⟩

/-- `m_scale`; `byteSize`, `rowBytes` and `byteOffset` are `reserved[0]`, `reserved[1]` and
`reserved[2]`. -/
structure Scale where
  buffer : IOAccelBounds
  sourceW : Int16
  sourceH : Int16
  byteSize : ℕ
  rowBytes : ℕ
  byteOffset : ℕ
  deriving DecidableEq

/-- A zeroed `m_scale`. -/
def Scale.zero : Scale := ⟨⟨0, 0, 0, 0⟩, 0, 0, 0, 0, 0⟩

/-- `m_screenInfo`, as `getScreenInfo` fills it: `y` is the size of the framebuffer. -/
structure ScreenInfo where
  y : ℕ
  w : ℕ
  h : ℕ
  clientAddr : ℕ
  clientRowBytes : ℕ
  deriving DecidableEq

/-- `m_video`. -/
structure Video where
  streamId : ℕ
  vmwarePixelFormat : ℕ
  unit : SVGAOverlayUnit
  deriving DecidableEq

/-- The state of a `VMsvga2Surface`. -/
structure Surface where
  /-- Whether `m_provider` is set. -/
  provider : Bool
  haveID : Bool
  haveScreenObject : Bool
  haveMasterSurface : Bool
  directBlit : Bool
  videoMode : Bool
  skipWriteLockOnce : Bool
  /-- The bits of `bIsLocked`. -/
  lockedRead : Bool
  lockedWrite : Bool
  lockedContext : Bool
  wID : ℕ
  surfaceFormat : SurfaceFormat
  bytesPerPixel : ℕ
  pixelFormat : PixelFormat
  backing : Backing
  clientBacking : ClientBacking
  lastRegion : Option IOAccelDeviceRegion
  framebufferIndex : ℕ
  scale : Scale
  screenInfo : ScreenInfo
  video : Video
  deriving DecidableEq

/-- A surface after `initWithTask`. -/
def Surface.init : Surface where
  provider := false
  haveID := false
  haveScreenObject := false
  haveMasterSurface := false
  directBlit := false
  videoMode := false
  skipWriteLockOnce := false
  lockedRead := false
  lockedWrite := false
  lockedContext := false
  wID := 0
  surfaceFormat := .invalid
  bytesPerPixel := 0
  pixelFormat := .none
  backing := .init
  clientBacking := .zero
  lastRegion := none
  framebufferIndex := 0
  scale := .zero
  screenInfo := ⟨0, 0, 0, 0, 0⟩
  video := ⟨svgaIdInvalid, 0, .zero⟩

/-- `classifyBacking`. -/
inductive BackingClass
  | none
  | kernel
  | client
  deriving DecidableEq

namespace Surface

/-- `haveFrontBuffer`. -/
def haveFrontBuffer (s : Surface) : Bool := s.haveScreenObject || s.haveMasterSurface

/-- `isBackingValid`. -/
def isBackingValid (s : Surface) : Bool := s.backing.self ≠ 0 || s.backing.vtb.md.isSome

/-- `classifyBacking`. -/
def classifyBacking (s : Surface) : BackingClass :=
  if s.backing.self ≠ 0 then .kernel
  else if s.backing.vtb.md.isSome then
    if s.backing.vtb.gartPtr ≠ 0 then .client else .kernel
  else .none

/-- `hasSourceGrown`. -/
def hasSourceGrown (s : Surface) : Bool := s.scale.byteSize > s.backing.size

/-- `isSourceValid`. -/
def isSourceValid (s : Surface) : Bool := s.scale.sourceW > 0 && s.scale.sourceH > 0

/-- `isClientBackingValid`. -/
def isClientBackingValid (s : Surface) : Bool := s.clientBacking.addr ≠ 0

/-- `isIdentityScale`, with a last region. -/
def isIdentityScale (s : Surface) (r : IOAccelDeviceRegion) : Bool :=
  s.scale.buffer.w = r.bounds.w && s.scale.buffer.h = r.bounds.h

/-- `calculateScaleParameters`. -/
def calculateScaleParameters (s : Surface) (fromGFB : Bool) : Surface :=
  let sizeAndRow : ℕ × ℕ :=
    if fromGFB then (s.screenInfo.y % 2 ^ 32, s.screenInfo.clientRowBytes)
    else if s.isClientBackingValid then
      ((s.clientBacking.size + pageResidue s.clientBacking.addr) % 2 ^ 32,
        s.clientBacking.rowbytes % 2 ^ 32)
    else
      let row := toU32 s.scale.sourceW.toInt * s.bytesPerPixel % 2 ^ 32
      (toU32 s.scale.sourceH.toInt * row % 2 ^ 32, row)
  { s with scale := { s.scale with
      byteSize := roundUpToPage sizeAndRow.1
      rowBytes := sizeAndRow.2
      byteOffset := toU32 (s.scale.buffer.y.toInt * sizeAndRow.2 +
        s.scale.buffer.x.toInt * s.bytesPerPixel) } }

/-! ### Backing -/

/-- `releaseBackingMap`. -/
def releaseBackingMap (s : Surface) (index : ℕ) : Surface :=
  if index = 0 then { s with backing := { s.backing with map0 := none } }
  else if index = 1 then { s with backing := { s.backing with map1 := none } }
  else s

/-- `releaseBacking`. -/
def releaseBacking (s : Surface) (a : Accel) : Accel × Surface :=
  let a := (s.backing.vtb.complete s.provider a).1
  let a := if s.provider && s.backing.self ≠ 0 then a.vramFree s.backing.self else a
  (a, { s with backing := .init })

/-- The backing after a descriptor has been set and prepared, or after its preparation has
failed and it has been released: the ends of `wrapClientBacking` and `allocGMRBacking`. -/
def prepareBacking (s : Surface) (a : Accel) (env : BackingEnv) (md : MemoryDescriptor)
    (gartPtr : ℕ) : Bool × Accel × Surface :=
  match { s.backing.vtb with md := some md }.prepare s.provider a env with
  | (.success, a, vtb) =>
      (true, a, { s with backing := { s.backing with vtb := { vtb with gartPtr := gartPtr } } })
  | (_, a, vtb) =>
      (false, a, { s with backing := { s.backing with vtb := { vtb with md := none } } })

/-- The part of `wrapClientBacking` behind its `switch`. -/
def wrapClient (s : Surface) (a : Accel) (env : BackingEnv) : Bool × Accel × Surface :=
  let s := { s with backing := { s.backing with
    offset := pageResidue s.clientBacking.addr
    size := s.scale.byteSize } }
  if env.descriptor then
    s.prepareBacking { a with nextId := a.nextId + 1 } env
      ⟨a.nextId, .client (s.clientBacking.addr / pageSize * pageSize)⟩ 1
  else (false, a, s)

/-- `wrapClientBacking`. -/
def wrapClientBacking (s : Surface) (a : Accel) (env : BackingEnv) : Bool × Accel × Surface :=
  match s.classifyBacking with
  | .kernel =>
      let (a, s) := s.releaseBacking a
      s.wrapClient a env
  | .client =>
      if s.backing.vtb.gartPtr = 1 then (true, a, s)
      else
        let (a, s) := s.releaseBacking a
        s.wrapClient a env
  | .none => s.wrapClient a env

/-- `allocGMRBacking`. -/
def allocGMRBacking (s : Surface) (a : Accel) (env : BackingEnv) : Bool × Accel × Surface :=
  if env.descriptor then
    { s with backing := { s.backing with offset := 0 } }.prepareBacking
      { a with nextId := a.nextId + 1 } env ⟨a.nextId, .buffer a.nextId⟩ 0
  else (false, a, s)

/-- The part of `allocBacking` behind its `switch`. -/
def allocNew (s : Surface) (a : Accel) (env : BackingEnv) : Option (Bool × Accel × Surface) :=
  if !s.provider then none
  else
    let size := s.scale.byteSize
    let (a, self) := a.vramRealloc s.backing.self size env.vramFails
    let s := { s with backing := { s.backing with size := size, self := self } }
    if self = 0 then some (s.allocGMRBacking a env)
    else
      some (true, a, { s with backing := { s.backing with
        offset := self - s.screenInfo.clientAddr
        vtb := { s.backing.vtb with gmrId := gmrVram } } })

/-- `allocBacking`. -/
def allocBacking (s : Surface) (a : Accel) (env : BackingEnv) :
    Option (Bool × Accel × Surface) :=
  if s.clientBacking.addr ≠ 0 then some (s.wrapClientBacking a env)
  else
    match s.classifyBacking with
    | .kernel =>
        if !s.hasSourceGrown then some (true, a, s)
        else
          let s := (s.releaseBackingMap 0).releaseBackingMap 1
          let (a, vtb) := s.backing.vtb.complete s.provider a
          { s with backing := { s.backing with vtb := vtb.discard } }.allocNew a env
    | .client =>
        let (a, s) := s.releaseBacking a
        s.allocNew a env
    | .none => s.allocNew a env

/-- The memory of the backing. -/
def backingMemory (s : Surface) : Option Memory :=
  if s.backing.self ≠ 0 then some (.vram s.backing.self)
  else s.backing.vtb.md.map (·.memory)

/-- A new mapping of the backing; `mapVRAMRangeForTask` is a method of the accelerator. -/
def newMap (s : Surface) (a : Accel) (env : BackingEnv) : Option (Option MemoryMap × Accel) :=
  if s.backing.self ≠ 0 ∧ !s.provider then none
  else
    match s.backingMemory, env.map with
    | some m, some address => some (some ⟨a.nextId, m, address⟩, { a with nextId := a.nextId + 1 })
    | _, _ => some (none, a)

/-- `mapBacking` in slot 0. -/
def mapBacking0 (s : Surface) (a : Accel) (env : BackingEnv) : Option (Bool × Accel × Surface) :=
  if s.backing.map0.isSome then some (true, a, s)
  else
    (s.newMap a env).map fun (m, a) =>
      (m.isSome, a, { s with backing := { s.backing with map0 := m } })

/-- `mapBacking` in slot 1. -/
def mapBacking1 (s : Surface) (a : Accel) (env : BackingEnv) : Option (Bool × Accel × Surface) :=
  if s.backing.map1.isSome then some (true, a, s)
  else
    (s.newMap a env).map fun (m, a) =>
      (m.isSome, a, { s with backing := { s.backing with map1 := m } })

end Surface

end DockerMacos
