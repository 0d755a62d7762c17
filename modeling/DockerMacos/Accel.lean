import DockerMacos.Vram

/-!
# The Accelerator's Memory

What the surfaces take from the accelerator (`AC/VMsvga2Accel.cpp`): blocks of VRAM, ids of
guest memory regions (GMRs) and the regions themselves, which the device knows by their ids.
A transfer buffer (`AC/VendorTransferBuffer.cpp`) holds a memory descriptor and, between
`prepare` and `complete`, the id of a region that covers it.

## What the system and the device decide

A call can fail for reasons that lie outside the driver: a descriptor cannot be made or
prepared, a page list cannot be allocated, the device does not take the regions. Each of these
outcomes is an argument of the call (`BackingEnv`), so that what is proved of a call is proved
of all of them. The free places of the masks are not left to the environment: `allocGMRID` and
`allocStreamID` search them as the source does.

## Names

Memory descriptors and mappings are known by numbers that are given out once. So a descriptor
that has been released is never taken for a new one, and a region that outlives its memory is
visible as a number that is prepared no more. Fences, which only make the driver wait, are left
out.

The log of the accelerator records what happens to the GMR ids. No function of the driver reads
it; it is there for statements about how often an id is freed.

## Main definitions

* `Accel.allocGMRID`, `Accel.freeGMRID`: the ids.
* `VendorTransferBuffer.prepare`, `VendorTransferBuffer.complete`: a region comes and goes.
-/

namespace DockerMacos

/-- The memory behind a descriptor or a mapping. -/
inductive Memory
  /-- The block of VRAM at an address. -/
  | vram (ptr : ℕ)
  /-- The buffer of a descriptor of the kernel. -/
  | buffer (id : ℕ)
  /-- The client's own pages from an address on. -/
  | client (addr : ℕ)
  /-- The black buffer of a video surface. -/
  | trick (id : ℕ)
  deriving DecidableEq

/-- `IOMemoryDescriptor`. -/
structure MemoryDescriptor where
  id : ℕ
  memory : Memory
  deriving DecidableEq

/-- `IOMemoryMap`. -/
structure MemoryMap where
  id : ℕ
  memory : Memory
  address : ℕ
  deriving DecidableEq

/-- `SVGA_ID_INVALID`. -/
def svgaIdInvalid : ℕ := 0xFFFFFFFF

/-- `GMR_VRAM()`. -/
def gmrVram : ℕ := 0xFFFFFFFE

/-- `isIdValid`: not negative as a signed number. -/
def isIdValid (id : ℕ) : Bool := id < 2 ^ 31

/-- `VendorTransferBuffer`. -/
structure VendorTransferBuffer where
  md : Option MemoryDescriptor
  gmrId : ℕ
  gartPtr : ℕ
  deriving DecidableEq

/-- A zeroed `VendorTransferBuffer` after `init`. -/
def VendorTransferBuffer.init : VendorTransferBuffer where
  md := none
  gmrId := svgaIdInvalid
  gartPtr := 0

/-- What happens to a GMR id. -/
inductive GmrEvent
  | alloc (id : ℕ)
  | define (id : ℕ)
  | destroy (id : ℕ)
  | free (id : ℕ)
  deriving DecidableEq

/-- The overlay registers of a video stream, as far as the driver writes them. -/
structure SVGAOverlayUnit where
  enabled : Bool
  dataOffset : ℕ
  format : ℕ
  size : ℕ
  width : ℕ
  height : ℕ
  srcX : ℕ
  srcY : ℕ
  srcWidth : ℕ
  srcHeight : ℕ
  dstX : ℕ
  dstY : ℕ
  dstWidth : ℕ
  dstHeight : ℕ
  pitch : ℕ
  dataGMRId : ℕ
  dstScreenId : ℕ
  deriving DecidableEq

/-- A zeroed `SVGAOverlayUnit`. -/
def SVGAOverlayUnit.zero : SVGAOverlayUnit :=
  ⟨false, 0, 0, 0, 0, 0, 0, 0, 0, 0, 0, 0, 0, 0, 0, 0, 0⟩

/-- The accelerator, and the device as far as its regions and overlays go. -/
structure Accel where
  vram : AllocRun
  /-- The bits of `m_gmr_id_mask`. -/
  gmrIdMask : ℕ → Bool
  gmrIdIdx : ℕ
  /-- `SVGA_CAP_GMR`. -/
  hasGmr : Bool
  /-- The regions defined on the device. -/
  gmrs : ℕ → Option MemoryDescriptor
  /-- The descriptors whose memory is prepared. -/
  prepared : ℕ → Bool
  /-- The next number of a descriptor or a mapping. -/
  nextId : ℕ
  /-- What happened to the GMR ids, the latest first. -/
  log : List GmrEvent
  haveScreenObject : Bool
  haveSVGA3D : Bool
  /-- `m_blitbug_result`. -/
  blitBugResult : IOReturn
  /-- The bits of `m_stream_id_mask`. -/
  streamIdMask : ℕ → Bool
  /-- The overlay registers of the device. -/
  overlays : ℕ → SVGAOverlayUnit
  /-- `VMW_OPTION_AC_DIRECT_BLIT`, `VMW_OPTION_AC_PACKED_BACKING`, `VMW_OPTION_AC_NO_YUV`. -/
  optionDirectBlit : Bool
  optionPackedBacking : Bool
  optionNoYuv : Bool

namespace Accel

/-! ### Ids -/

/-- `find_bit_in_array64` and `find_bit_in_array32`: the lowest clear bit among the `count`
bits from `first` on. -/
def findBit (mask : ℕ → Bool) (first count : ℕ) : Option ℕ :=
  (List.range' first count).find? (!mask ·)

/-- The number of GMR ids in the mask, 64 to a word. -/
def numGmrIds : ℕ := 128

/-- `AllocGMRID`. The search starts in the word `m_gmr_id_idx`. -/
def allocGMRID (a : Accel) : ℕ × Accel :=
  match findBit a.gmrIdMask (64 * a.gmrIdIdx) (numGmrIds - 64 * a.gmrIdIdx) with
  | none => (svgaIdInvalid, { a with gmrIdIdx := 2 })
  | some r =>
      (r, { a with
        gmrIdMask := Function.update a.gmrIdMask r true
        gmrIdIdx := r / 64
        log := .alloc r :: a.log })

/-- `FreeGMRID`. -/
def freeGMRID (a : Accel) (gmrId : ℕ) : Accel :=
  if gmrId / 64 ≥ 2 then a
  else
    { a with
      gmrIdMask := Function.update a.gmrIdMask gmrId false
      gmrIdIdx := min (gmrId / 64) a.gmrIdIdx
      log := .free gmrId :: a.log }

/-- `AllocStreamID`. -/
def allocStreamID (a : Accel) : ℕ × Accel :=
  match findBit a.streamIdMask 0 32 with
  | none => (svgaIdInvalid, a)
  | some r => (r, { a with streamIdMask := Function.update a.streamIdMask r true })

/-- `FreeStreamID`. -/
def freeStreamID (a : Accel) (streamId : ℕ) : Accel :=
  if streamId ≥ 32 then a
  else { a with streamIdMask := Function.update a.streamIdMask streamId false }

/-! ### Regions -/

/-- `createGMR`; `created` is what comes of building the descriptor list. -/
def createGMR (a : Accel) (gmrId : ℕ) (md : MemoryDescriptor) (created : IOReturn) :
    IOReturn × Accel :=
  if !a.hasGmr then (.unsupported, a)
  else if created ≠ .success then (created, a)
  else
    (.success, { a with
      gmrs := Function.update a.gmrs gmrId (some md)
      log := .define gmrId :: a.log })

/-- `destroyGMR`. -/
def destroyGMR (a : Accel) (gmrId : ℕ) : IOReturn × Accel :=
  if !a.hasGmr then (.unsupported, a)
  else
    (.success, { a with
      gmrs := Function.update a.gmrs gmrId none
      log := .destroy gmrId :: a.log })

/-- `IOMemoryDescriptor::prepare`, when it succeeds. -/
def prepareMd (a : Accel) (md : MemoryDescriptor) : Accel :=
  { a with prepared := Function.update a.prepared md.id true }

/-- `IOMemoryDescriptor::complete`. -/
def completeMd (a : Accel) (md : MemoryDescriptor) : Accel :=
  { a with prepared := Function.update a.prepared md.id false }

/-! ### VRAM -/

/-- `VRAMMalloc`; `fails` when there is no allocator. -/
def vramMalloc (a : Accel) (bytes : ℕ) (fails : Bool) : Accel × ℕ :=
  if fails then (a, 0)
  else ({ a with vram := (a.vram.vramMalloc bytes).1 }, (a.vram.vramMalloc bytes).2)

/-- `VRAMRealloc`; `fails` when there is no allocator. -/
def vramRealloc (a : Accel) (ptr bytes : ℕ) (fails : Bool) : Accel × ℕ :=
  if fails then (a, 0)
  else ({ a with vram := (a.vram.vramRealloc ptr bytes).1 }, (a.vram.vramRealloc ptr bytes).2)

/-- `VRAMFree`. -/
def vramFree (a : Accel) (ptr : ℕ) : Accel := { a with vram := a.vram.vramFree ptr }

/-! ### The video registers

The commands for them are taken to reach the device. A command that finds no room in the FIFO is
not sent, and leaves the registers as they are; `OpenReservations` and `EmittedCommands` follow
these commands into the FIFO.
-/

/-- `VideoSetReg` of `SVGA_VIDEO_ENABLED` to zero. -/
def videoDisable (a : Accel) (streamId : ℕ) : Accel :=
  let regs := { a.overlays streamId with enabled := false }
  { a with overlays := Function.update a.overlays streamId regs }

/-- `VideoSetRegsInRange` of all registers. -/
def videoSetAll (a : Accel) (streamId : ℕ) (unit : SVGAOverlayUnit) : Accel :=
  { a with overlays := Function.update a.overlays streamId unit }

/-- `VideoSetRegsInRange` from `SVGA_VIDEO_DST_X` to `SVGA_VIDEO_DST_HEIGHT`. -/
def videoSetDest (a : Accel) (streamId : ℕ) (unit : SVGAOverlayUnit) : Accel :=
  let regs := { a.overlays streamId with
    dstX := unit.dstX
    dstY := unit.dstY
    dstWidth := unit.dstWidth
    dstHeight := unit.dstHeight }
  { a with overlays := Function.update a.overlays streamId regs }

end Accel

/-! ### Transfer buffers -/

/-- What the system decides while a backing is obtained. -/
structure BackingEnv where
  /-- There is no VRAM allocator. -/
  vramFails : Bool
  /-- The memory descriptor can be created. -/
  descriptor : Bool
  /-- What `prepare` of its memory returns. -/
  prepares : IOReturn
  /-- What comes of building the descriptor list of the region. -/
  created : IOReturn
  /-- The backing can be mapped, at this address. -/
  map : Option ℕ

namespace VendorTransferBuffer

/-- `prepare`; `provider` tells whether it is given an accelerator. -/
def prepare (vtb : VendorTransferBuffer) (provider : Bool) (a : Accel) (env : BackingEnv) :
    IOReturn × Accel × VendorTransferBuffer :=
  if !provider then (.notReady, a, vtb)
  else if isIdValid vtb.gmrId then (.success, a, vtb)
  else
    match vtb.md with
    | none => (.notReady, a, vtb)
    | some md =>
        let (id, a) := a.allocGMRID
        if !isIdValid id then (.noResources, a, { vtb with gmrId := id })
        else if env.prepares ≠ .success then
          (env.prepares, a.freeGMRID id, { vtb with gmrId := svgaIdInvalid })
        else
          match (a.prepareMd md).createGMR id md env.created with
          | (.success, a) => (.success, a, { vtb with gmrId := id })
          | (rc, a) => (rc, (a.completeMd md).freeGMRID id, { vtb with gmrId := svgaIdInvalid })

/-- `complete`. -/
def complete (vtb : VendorTransferBuffer) (provider : Bool) (a : Accel) :
    Accel × VendorTransferBuffer :=
  if !provider || !isIdValid vtb.gmrId then (a, vtb)
  else
    let a := (a.destroyGMR vtb.gmrId).2
    let a := match vtb.md with
      | none => a
      | some md => a.completeMd md
    (a.freeGMRID vtb.gmrId, { vtb with gmrId := svgaIdInvalid })

/-- `discard`. -/
def discard (vtb : VendorTransferBuffer) : VendorTransferBuffer := { vtb with md := none }

end VendorTransferBuffer

end DockerMacos
