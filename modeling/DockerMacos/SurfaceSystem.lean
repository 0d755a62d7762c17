import DockerMacos.Run
import DockerMacos.SurfaceOps

/-!
# Surfaces, Clients and 2D Contexts

The accelerator with any number of surfaces and any number of 2D contexts
(`AC/UC/VMsvga22DContext.cpp`). A surface is called by its own client and by the contexts that
hold a reference to it; a context keeps its reference when the client closes the surface.

## Actions

An action starts a surface, is a call by a client or by a context, or is a write of a client to a
block of VRAM. Calls of different clients come in any order, and each of them is one step. A
client can call its surface once it is started; a surface that has been closed is not started
again.

## Following a null pointer

A call that follows the pointer to the accelerator while that is null has a result of its own
(`Result`), apart from an action that is not possible. So a statement that no call does this can
be made about runs.

## Main definitions

* `World.result`, `World.step`: what an action comes to.
* `World.start`: the system before the first action: the accelerator after `start`, with VRAM set
  up, and no surface open.
-/

namespace DockerMacos

/-- The state of a `VMsvga22DContext`. -/
structure Context2D where
  /-- Whether `m_provider` is set. -/
  provider : Bool
  surfaceClient : Option ℕ
  targetIsCGSSurface : Bool
  framebufferIndex : ℕ

/-- A context after `start`. -/
def Context2D.init : Context2D where
  provider := true
  surfaceClient := none
  targetIsCGSSurface := false
  framebufferIndex := 0

/-- The state of the system. -/
structure World where
  accel : Accel
  surfaces : ℕ → Surface
  /-- Which surfaces have been started. -/
  started : ℕ → Bool
  contexts : ℕ → Context2D

/-- The calls of a 2D context. -/
inductive ContextOp
  /-- `set_surface` with the bits of its options; `structOut` tells whether there is a structure
  for the answer, and `found` is the surface with this id, if there is one. -/
  | setSurface (structOut : Bool) (surfaceId : ℕ) (hasId uyvy yuy2 bgra : Bool)
      (found : Option ℕ) (env : Surface.Start3DEnv)
  | swapSurface
  | scaleSurface (fixedSource : Bool) (width height : ℕ)
  | lockMemory (argsOk : Bool) (env : BackingEnv) (trick : Option (Option ℕ))
  | unlockMemory
  /-- `CopyRegion`; `found` is the surface with the source id, if there is one. -/
  | copyRegion (sourceId : ℕ) (found : Option ℕ) (region : Option IOAccelDeviceRegion)
      (regionSize : ℕ) (env : BackingEnv) (copied : IOReturn)
  | close

/-- The actions of the system. -/
inductive Action
  | start (i : ℕ) (screenInfo : ScreenInfo) (env : Surface.Start3DEnv)
  | client (i : ℕ) (op : SurfaceOp)
  | context (c : ℕ) (op : ContextOp)
  /-- A client writes word `k` of the block of VRAM at `ptr`. -/
  | write (ptr k v : ℕ)

/-- What an action comes to: it is not possible, it follows a null pointer to the accelerator,
or it leads to a new state. -/
inductive Result
  | refused
  | crashed
  | ok (w : World) (ret : IOReturn) (outcome : Option Outcome)

/-- The calls that a surface's own client can make. -/
def SurfaceOp.ofClient : SurfaceOp → Bool
  | .setIdMode .. => true
  | .setScale .. => true
  | .setShape .. => true
  | .readLock .. => true
  | .readUnlock => true
  | .writeLock .. => true
  | .writeUnlock => true
  | .flush .. => true
  | .close => true
  | _ => false

namespace World

/-- The state after a call of surface `i`. -/
def afterCall (w : World) (i : ℕ) (o : Outcome) : World :=
  { w with accel := o.accel, surfaces := Function.update w.surfaces i o.surface }

/-- A call of surface `i`. -/
def call (w : World) (i : ℕ) (op : SurfaceOp) : Result :=
  match (w.surfaces i).apply w.accel op with
  | none => .crashed
  | some o => .ok (w.afterCall i o) o.ret (some o)

/-- `findSurfaceForID`: a surface that answers has not been closed and has this id. -/
def answers (w : World) (id i : ℕ) : Bool :=
  (w.surfaces i).provider && (w.surfaces i).haveID && (w.surfaces i).wID == id

/-- The pixel formats for the bits of `set_surface`. -/
def setSurfaceFormats (uyvy yuy2 bgra : Bool) : ℕ × PixelFormat :=
  if uyvy then (Surface.fourccUyvy, .twoVuy)
  else if yuy2 then (Surface.fourccYuy2, .yuvs)
  else if bgra then (0, .bgra32)
  else (0, .none)

/-- The context `c` replaced. -/
def setContext (w : World) (c : ℕ) (x : Context2D) : World :=
  { w with contexts := Function.update w.contexts c x }

/-- `set_surface`, with a structure for the answer. -/
def setSurface (w : World) (c surfaceId : ℕ) (hasId uyvy yuy2 bgra : Bool) (found : Option ℕ)
    (env : Surface.Start3DEnv) : Result :=
  let x := { w.contexts c with surfaceClient := none }
  if !hasId then
    .ok (w.setContext c { x with
      targetIsCGSSurface := false
      framebufferIndex := surfaceId % 2 ^ 32 }) .success none
  else
    let x := { x with targetIsCGSSurface := true }
    if !x.provider then .ok (w.setContext c x) .notReady none
    else
      match found with
      | none => .ok (w.setContext c x) .notFound none
      | some i =>
          if w.answers (surfaceId % 2 ^ 32) i then
            let (vmware, apple) := setSurfaceFormats uyvy yuy2 bgra
            (w.setContext c { x with surfaceClient := some i }).call i
              (.contextSetSurface vmware apple env)
          else .refused

/-- The calls that a context passes on to its surface. -/
def passOn (w : World) (c : ℕ) (op : SurfaceOp) : Result :=
  if !(w.contexts c).targetIsCGSSurface then .ok w .unsupported none
  else
    match (w.contexts c).surfaceClient with
    | none => .ok w .notReady none
    | some i => w.call i op

/-- `CopyRegion`. -/
def copyRegion (w : World) (c sourceId : ℕ) (found : Option ℕ)
    (region : Option IOAccelDeviceRegion) (regionSize : ℕ) (env : BackingEnv)
    (copied : IOReturn) : Result :=
  let x := w.contexts c
  if region.all (regionSize < ·.size) then .ok w .badArgument none
  else if !x.provider then .ok w .notReady none
  else if x.targetIsCGSSurface && x.surfaceClient.isNone then .ok w .notReady none
  else if sourceId % 2 ^ 32 ≠ 0 then
    match found with
    | none => .ok w .notFound none
    | some j =>
        if !w.answers (sourceId % 2 ^ 32) j then .refused
        else if x.targetIsCGSSurface then
          w.passOn c (.copySurface (w.surfaces j) region regionSize env copied)
        else .ok w .unsupported none
  else if !x.targetIsCGSSurface then .ok w copied none
  else w.passOn c (.copyFramebuffer region regionSize env copied)

/-- A call of context `c`. -/
def contextCall (w : World) (c : ℕ) : ContextOp → Result
  | .setSurface structOut surfaceId hasId uyvy yuy2 bgra found env =>
      if !structOut then .ok w .badArgument none
      else w.setSurface c surfaceId hasId uyvy yuy2 bgra found env
  | .swapSurface => w.passOn c .flushVideo
  | .scaleSurface fixedSource width height =>
      w.passOn c (.contextScale fixedSource width height)
  | .lockMemory argsOk env trick =>
      if !argsOk then .ok w .badArgument none else w.passOn c (.contextLock argsOk env trick)
  | .unlockMemory => w.passOn c .contextUnlock
  | .copyRegion sourceId found region regionSize env copied =>
      w.copyRegion c sourceId found region regionSize env copied
  | .close =>
      .ok (w.setContext c ⟨false, none, false, 0⟩) .success none

/-- What an action comes to. A client can call its surface once it is started; the writes of
clients stay inside the blocks of VRAM. -/
def result (w : World) : Action → Result
  | .start i screenInfo env =>
      if w.started i then .refused
      else if screenInfo.clientAddr ≠ w.accel.vram.alloc.poolStart then .refused
      else
        match (w.surfaces i).start w.accel screenInfo env with
        | none => .crashed
        | some o =>
            .ok { w.afterCall i o with started := Function.update w.started i true } o.ret (some o)
  | .client i op => if w.started i && op.ofClient then w.call i op else .refused
  | .context c op => w.contextCall c op
  | .write ptr k v =>
      match allocStep w.accel.vram (.write ptr k v) with
      | none => .refused
      | some vram => .ok { w with accel := { w.accel with vram := vram } } .success none

/-- The step function. -/
def step (w : World) (a : Action) : Option World :=
  match w.result a with
  | .ok w' _ _ => some w'
  | _ => none

end World

/-! ### The start -/

/-- What the accelerator finds when it starts: VRAM, the limits of the device and the options
of the driver. -/
structure AccelSetup where
  vram : VramSetup
  /-- `getMaxGMRIDs()`. -/
  maxGmrIds : ℕ
  hasGmr : Bool
  haveScreenObject : Bool
  haveSVGA3D : Bool
  optionDirectBlit : Bool
  optionPackedBacking : Bool
  optionNoYuv : Bool

/-- The accelerator after `start`, with the allocator that `setupAllocator` leaves: the GMR ids
that the device does not have are marked. -/
def Accel.start (e : AccelSetup) (alloc : VMsvga2Allocator) : Accel where
  vram := setupStart e.vram alloc
  gmrIdMask := fun id => id < numGmrIds && e.maxGmrIds ≤ id
  gmrIdIdx := 0
  hasGmr := e.hasGmr
  gmrs := fun _ => none
  prepared := fun _ => false
  nextId := 0
  log := []
  haveScreenObject := e.haveScreenObject
  haveSVGA3D := e.haveSVGA3D
  blitBugResult := .notFound
  streamIdMask := fun _ => false
  overlays := fun _ => .zero
  optionDirectBlit := e.optionDirectBlit
  optionPackedBacking := e.optionPackedBacking
  optionNoYuv := e.optionNoYuv

/-- The system before the first action: no surface is open. -/
def World.start (a : Accel) : World where
  accel := a
  surfaces := fun _ => .init
  started := fun _ => false
  contexts := fun _ => .init

/-- An accelerator with two pages of VRAM, guest memory regions and a screen. -/
def smallAccel : AccelSetup where
  vram := twoPages
  maxGmrIds := 64
  hasGmr := true
  haveScreenObject := true
  haveSVGA3D := true
  optionDirectBlit := false
  optionPackedBacking := false
  optionNoYuv := false

/-- The system with this accelerator. -/
def smallWorld : World :=
  .start (.start smallAccel (setupAllocator freshAllocator twoPages).2)

/-- Everything that the system is asked for succeeds. -/
def willing : BackingEnv := ⟨false, true, .success, .success, some 0x7000⟩

end DockerMacos
