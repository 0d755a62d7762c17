import DockerMacos.DeviceCommands
import DockerMacos.IOReturn

/-!
# The Commands of SVGA3D

The methods of `SVGA3D` (`AC/SVGA3D.cpp`). Most of them reserve, fill and commit a command.
The others, named `begin...` as in the source (`BeginQuery` apart, which is complete), leave
the command open for their caller. Floats are given by the words that hold them.

## One shape

A command has a header of two words, a fixed part and a number of further bytes (`begin3D`). The
size in the header is that of the fixed part and the rest, computed in 32 bits as the source
computes it. The methods differ in the number of the command and in the words of the fixed part;
those that are complete go on with the words of the rest and a commit.

Two methods have a way out of their own. `SetShaderConst` reserves room before it looks at the
type of the constant, and takes the reservation back by a commit of nothing when the type is bad.
`DefineShader` copies as many bytes as it is told, whatever the bytecode has.

## Main results

* `setShaderConst_closes`: a command that is taken back because its type is bad.
* `Method3D.closes`: a complete method leaves no reservation open, and reserves room for the
  commands of `Method3D.sizes` only.
-/

namespace DockerMacos

/-! ### Structures in the FIFO -/

/-- `SVGA3dGuestImage`. -/
structure SVGA3dGuestImage where
  ptr : SVGAGuestPtr
  pitch : FifoWord

def SVGA3dGuestImage.words (i : SVGA3dGuestImage) : List FifoWord := i.ptr.words ++ [i.pitch]

/-- `SVGA3dSurfaceImageId`. -/
structure SVGA3dSurfaceImageId where
  sid : FifoWord
  face : FifoWord
  mipmap : FifoWord

def SVGA3dSurfaceImageId.words (i : SVGA3dSurfaceImageId) : List FifoWord :=
  [i.sid, i.face, i.mipmap]

namespace SVGACommands

/-- The first half of a command: its header and fixed part, with room for `bytes` more bytes. -/
def begin3D (cmd : ℕ) (args : List FifoWord) (bytes : ℕ) : FifoM Bool := do
  if ← fifoReserve3D cmd (4 * args.length + bytes) then
    store 2 args
    return true
  else return false

/-- `BeginDefineSurface`. -/
def beginDefineSurface (sid flags format : FifoWord) (numMipSizes : ℕ) : FifoM Bool :=
  begin3D 1040 ([sid, flags, format] ++ List.replicate 6 0 ++ List.replicate (3 * numMipSizes) 0) 0

/-- `DestroySurface`. -/
def destroySurface (sid : FifoWord) : FifoM Bool := emit3D 1041 [sid]

/-- `BeginSurfaceCopy`. -/
def beginSurfaceCopy (src dest : SVGA3dSurfaceImageId) (numBoxes : ℕ) : FifoM Bool :=
  begin3D 1042 (src.words ++ dest.words ++ List.replicate (9 * numBoxes) 0) 0

/-- `SurfaceStretchBlt`. -/
def surfaceStretchBlt (src dest : SVGA3dSurfaceImageId) (boxSrc boxDest : Vector FifoWord 6)
    (mode : FifoWord) : FifoM Bool :=
  emit3D 1043 (src.words ++ dest.words ++ boxSrc.toList ++ boxDest.toList ++ [mode])

/-- `BeginSurfaceDMA`. -/
def beginSurfaceDMA (guestImage : SVGA3dGuestImage) (hostImage : SVGA3dSurfaceImageId)
    (transfer : FifoWord) (numBoxes : ℕ) : FifoM Bool :=
  begin3D 1044 (guestImage.words ++ hostImage.words ++ [transfer] ++
    List.replicate (9 * numBoxes) 0) 0

/-- `BeginSurfaceDMAwithSuffix`. -/
def beginSurfaceDMAwithSuffix (guestImage : SVGA3dGuestImage) (hostImage : SVGA3dSurfaceImageId)
    (transfer : FifoWord) (numBoxes : ℕ) (maximumOffset flags : FifoWord) : FifoM Bool := do
  if ← begin3D 1044 (guestImage.words ++ hostImage.words ++ [transfer]) (36 * numBoxes + 12) then
    store (9 + 9 * numBoxes) [12, maximumOffset, flags]
    return true
  else return false

/-- `DefineContext`. -/
def defineContext (cid : FifoWord) : FifoM Bool := emit3D 1045 [cid]

/-- `DestroyContext`. -/
def destroyContext (cid : FifoWord) : FifoM Bool := emit3D 1046 [cid]

/-- `SetTransform`. -/
def setTransform (cid type : FifoWord) (matrix : Vector FifoWord 16) : FifoM Bool :=
  emit3D 1047 ([cid, type] ++ matrix.toList)

/-- `SetZRange`. -/
def setZRange (cid zMin zMax : FifoWord) : FifoM Bool := emit3D 1048 [cid, zMin, zMax]

/-- `BeginSetRenderState`. -/
def beginSetRenderState (cid : FifoWord) (numStates : ℕ) : FifoM Bool :=
  begin3D 1049 [cid] (8 * numStates)

/-- `SetRenderTarget`. -/
def setRenderTarget (cid type : FifoWord) (target : SVGA3dSurfaceImageId) : FifoM Bool :=
  emit3D 1050 ([cid, type] ++ target.words)

/-- `BeginSetTextureState`. -/
def beginSetTextureState (cid : FifoWord) (numStates : ℕ) : FifoM Bool :=
  begin3D 1051 [cid] (12 * numStates)

/-- `SetMaterial`. -/
def setMaterial (cid face : FifoWord) (material : Vector FifoWord 17) : FifoM Bool :=
  emit3D 1052 ([cid, face] ++ material.toList)

/-- `SetLightData`. -/
def setLightData (cid index : FifoWord) (data : Vector FifoWord 29) : FifoM Bool :=
  emit3D 1053 ([cid, index] ++ data.toList)

/-- `SetLightEnabled`. -/
def setLightEnabled (cid index : FifoWord) (enabled : Bool) : FifoM Bool :=
  emit3D 1054 [cid, index, if enabled then 1 else 0]

/-- `SetViewport`. -/
def setViewport (cid : FifoWord) (rect : Vector FifoWord 4) : FifoM Bool :=
  emit3D 1055 (cid :: rect.toList)

/-- `SetClipPlane`. -/
def setClipPlane (cid index : FifoWord) (plane : Vector FifoWord 4) : FifoM Bool :=
  emit3D 1056 ([cid, index] ++ plane.toList)

/-- `BeginClear`. -/
def beginClear (cid flags color depth stencil : FifoWord) (numRects : ℕ) : FifoM Bool :=
  begin3D 1057 [cid, flags, color, depth, stencil] (16 * numRects)

/-- `BeginPresent`. -/
def beginPresent (sid : FifoWord) (numRects : ℕ) : FifoM Bool :=
  begin3D 1058 [sid] (24 * numRects)

/-- `DefineShader`. -/
def defineShader (cid shid type : FifoWord) (bytecode : List FifoWord) (bytecodeLen : ℕ) :
    FifoM IOReturn := do
  if bytecodeLen % 4 ≠ 0 then return .badArgument
  else
    if ← fifoReserve3D 1059 (12 + bytecodeLen) then
      store 2 ([cid, shid, type] ++ bytecode.take (bytecodeLen / 4))
      fifoCommitAll
      return .success
    else return .noMemory

/-- `DestroyShader`. -/
def destroyShader (cid shid type : FifoWord) : FifoM Bool := emit3D 1060 [cid, shid, type]

/-- `SetShader`. -/
def setShader (cid type shid : FifoWord) : FifoM Bool := emit3D 1061 [cid, type, shid]

/-- `SetShaderConst`; floats, integers and booleans have the types 0, 1 and 2. -/
def setShaderConst (cid reg type ctype : FifoWord) (value : Vector FifoWord 4) :
    FifoM IOReturn := do
  if ← fifoReserve3D 1062 32 then
    store 2 [cid, reg, type, ctype]
    if ctype = 0 ∨ ctype = 1 then
      store 6 value.toList
      fifoCommitAll
      return .success
    else if ctype = 2 then
      store 6 [value[0], 0, 0, 0]
      fifoCommitAll
      return .success
    else
      fifoCommit 0
      return .badArgument
  else return .noMemory

/-- `BeginDrawPrimitives`. -/
def beginDrawPrimitives (cid : FifoWord) (numVertexDecls numRanges : ℕ) : FifoM Bool :=
  begin3D 1063 [cid, word numVertexDecls, word numRanges] (36 * numVertexDecls + 28 * numRanges)

/-- `SetScissorRect`. -/
def setScissorRect (cid : FifoWord) (rect : Vector FifoWord 4) : FifoM Bool :=
  emit3D 1064 (cid :: rect.toList)

/-- `BeginQuery`. -/
def beginQuery (cid qtype : FifoWord) : FifoM Bool := emit3D 1065 [cid, qtype]

/-- `EndQuery`. -/
def endQuery (cid qtype : FifoWord) (guestResult : SVGAGuestPtr) : FifoM Bool :=
  emit3D 1066 ([cid, qtype] ++ guestResult.words)

/-- `WaitForQuery`. -/
def waitForQuery (cid qtype : FifoWord) (guestResult : SVGAGuestPtr) : FifoM Bool :=
  emit3D 1067 ([cid, qtype] ++ guestResult.words)

/-- `BeginPresentReadback`. -/
def beginPresentReadback (numRects : ℕ) : FifoM Bool := begin3D 1068 [] (16 * numRects)

/-- `BeginBlitSurfaceToScreen`. -/
def beginBlitSurfaceToScreen (srcImage : SVGA3dSurfaceImageId) (srcRect : SVGASignedRect)
    (destScreenId : FifoWord) (destRect : SVGASignedRect) (numClipRects : ℕ) : FifoM Bool :=
  begin3D 1069 (srcImage.words ++ srcRect.words ++ [destScreenId] ++ destRect.words)
    (16 * numClipRects)

/-! ### What is left open -/

/-- The bytes of a command of `begin3D`. -/
abbrev bytes3D (args : List FifoWord) (bytes : ℕ) : ℕ := 8 + (4 * args.length + bytes)

/-- A command of SVGA3D is never empty. -/
theorem bytes3D_pos (args : List FifoWord) (bytes : ℕ) : 0 < bytes3D args bytes :=
  Nat.lt_of_lt_of_le (by decide) (Nat.le_add_right 8 _)

/-- A command that is begun has its fixed part stored. -/
theorem begin3D_opens (cmd : ℕ) (args : List FifoWord) (bytes : ℕ) :
    Opens (bytes3D args bytes) (begin3D cmd args bytes) :=
  (fifoReserve3D_opens cmd _).header 2 args

/-- A transfer that is begun has its suffix stored, too. -/
theorem beginSurfaceDMAwithSuffix_opens (guestImage : SVGA3dGuestImage)
    (hostImage : SVGA3dSurfaceImageId) (transfer : FifoWord) (numBoxes : ℕ)
    (maximumOffset flags : FifoWord) : Opens (36 * numBoxes + 48)
      (beginSurfaceDMAwithSuffix guestImage hostImage transfer numBoxes maximumOffset flags) := by
  have hopens := (begin3D_opens 1044 (guestImage.words ++ hostImage.words ++ [transfer])
    (36 * numBoxes + 12)).header (9 + 9 * numBoxes) [12, maximumOffset, flags]
  have hlength : (guestImage.words ++ hostImage.words ++ [transfer]).length = 7 := rfl
  rwa [bytes3D, hlength, show 8 + (4 * 7 + (36 * numBoxes + 12)) = 36 * numBoxes + 48 by omega]
    at hopens

/-- A shader of a bad length is refused before anything is reserved. -/
theorem defineShader_closes (cid shid type : FifoWord) (bytecode : List FifoWord)
    (bytecodeLen : ℕ) : Closes (if bytecodeLen % 4 ≠ 0 then [] else [8 + (12 + bytecodeLen)])
      (defineShader cid shid type bytecode bytecodeLen) :=
  .branch (.pure IOReturn.badArgument)
    ((fifoReserve3D_opens 1059 _).complete (by omega) 2 _ (.pure IOReturn.success)
      (.pure IOReturn.noMemory))

/-- A constant of a bad type is taken back after the reservation. -/
theorem setShaderConst_closes (cid reg type ctype : FifoWord) (value : Vector FifoWord 4) :
    Closes [40] (setShaderConst cid reg type ctype value) := by
  intro c₀ hc₀
  have hcommit : ∀ words : List FifoWord, Triple True 0 (Opened c₀ 40) (do
      store 6 words
      fifoCommitAll
      return IOReturn.success) fun _ => Closed c₀ := fun words =>
    (store_triple c₀ 0 _ 6 words).bind (n := 0) (fun _ =>
      (fifoCommitAll_triple c₀ 0 (by omega)).bind (n := 0) (fun _ => .pure fun c hc => hc)
        fun h => ⟨h, trivial⟩) fun h => ⟨h, trivial⟩
  refine (fifoReserve3D_opens 1062 32 c₀).bindBool (n := 0) ?_ (.pure fun c hc => hc)
    fun h => ⟨h 40 (List.mem_singleton.mpr rfl), trivial⟩
  refine (store_triple c₀ 0 _ 2 _).bind (n := 0) (fun _ => ?_) fun h => ⟨h, h⟩
  refine .ite (fun _ => hcommit _) fun _ => .ite (fun _ => hcommit _) fun _ => ?_
  exact (fifoCommit_abort_triple c₀ 0 (by omega)).bind (n := 0) (fun _ => .pure fun c hc => hc)
    fun h => ⟨h, trivial⟩

end SVGACommands

/-! ### All methods -/

/-- The complete methods of `SVGA3D`, with their arguments. -/
inductive Method3D
  | destroySurface (sid : FifoWord)
  | surfaceStretchBlt (src dest : SVGA3dSurfaceImageId) (boxSrc boxDest : Vector FifoWord 6)
      (mode : FifoWord)
  | defineContext (cid : FifoWord)
  | destroyContext (cid : FifoWord)
  | setTransform (cid type : FifoWord) (matrix : Vector FifoWord 16)
  | setZRange (cid zMin zMax : FifoWord)
  | setRenderTarget (cid type : FifoWord) (target : SVGA3dSurfaceImageId)
  | setMaterial (cid face : FifoWord) (material : Vector FifoWord 17)
  | setLightData (cid index : FifoWord) (data : Vector FifoWord 29)
  | setLightEnabled (cid index : FifoWord) (enabled : Bool)
  | setViewport (cid : FifoWord) (rect : Vector FifoWord 4)
  | setClipPlane (cid index : FifoWord) (plane : Vector FifoWord 4)
  | defineShader (cid shid type : FifoWord) (bytecode : List FifoWord) (bytecodeLen : ℕ)
  | destroyShader (cid shid type : FifoWord)
  | setShader (cid type shid : FifoWord)
  | setShaderConst (cid reg type ctype : FifoWord) (value : Vector FifoWord 4)
  | setScissorRect (cid : FifoWord) (rect : Vector FifoWord 4)
  | beginQuery (cid qtype : FifoWord)
  | endQuery (cid qtype : FifoWord) (guestResult : SVGAGuestPtr)
  | waitForQuery (cid qtype : FifoWord) (guestResult : SVGAGuestPtr)

/-- The call of a method. -/
def Method3D.run : Method3D → FifoM Unit
  | .destroySurface sid => do let _ ← SVGACommands.destroySurface sid
  | .surfaceStretchBlt src dest boxSrc boxDest mode => do
      let _ ← SVGACommands.surfaceStretchBlt src dest boxSrc boxDest mode
  | .defineContext cid => do let _ ← SVGACommands.defineContext cid
  | .destroyContext cid => do let _ ← SVGACommands.destroyContext cid
  | .setTransform cid type matrix => do let _ ← SVGACommands.setTransform cid type matrix
  | .setZRange cid zMin zMax => do let _ ← SVGACommands.setZRange cid zMin zMax
  | .setRenderTarget cid type target => do let _ ← SVGACommands.setRenderTarget cid type target
  | .setMaterial cid face material => do let _ ← SVGACommands.setMaterial cid face material
  | .setLightData cid index data => do let _ ← SVGACommands.setLightData cid index data
  | .setLightEnabled cid index enabled => do let _ ← SVGACommands.setLightEnabled cid index enabled
  | .setViewport cid rect => do let _ ← SVGACommands.setViewport cid rect
  | .setClipPlane cid index plane => do let _ ← SVGACommands.setClipPlane cid index plane
  | .defineShader cid shid type bytecode bytecodeLen => do
      let _ ← SVGACommands.defineShader cid shid type bytecode bytecodeLen
  | .destroyShader cid shid type => do let _ ← SVGACommands.destroyShader cid shid type
  | .setShader cid type shid => do let _ ← SVGACommands.setShader cid type shid
  | .setShaderConst cid reg type ctype value => do
      let _ ← SVGACommands.setShaderConst cid reg type ctype value
  | .setScissorRect cid rect => do let _ ← SVGACommands.setScissorRect cid rect
  | .beginQuery cid qtype => do let _ ← SVGACommands.beginQuery cid qtype
  | .endQuery cid qtype guestResult => do let _ ← SVGACommands.endQuery cid qtype guestResult
  | .waitForQuery cid qtype guestResult => do
      let _ ← SVGACommands.waitForQuery cid qtype guestResult

/-- The sizes of the commands that a method may reserve room for. -/
def Method3D.sizes : Method3D → List ℕ
  | .destroySurface _ => [12]
  | .surfaceStretchBlt .. => [84]
  | .defineContext _ => [12]
  | .destroyContext _ => [12]
  | .setTransform .. => [80]
  | .setZRange .. => [20]
  | .setRenderTarget .. => [28]
  | .setMaterial .. => [84]
  | .setLightData .. => [132]
  | .setLightEnabled .. => [20]
  | .setViewport .. => [28]
  | .setClipPlane .. => [32]
  | .defineShader _ _ _ _ bytecodeLen =>
      if bytecodeLen % 4 ≠ 0 then [] else [8 + (12 + bytecodeLen)]
  | .destroyShader .. => [20]
  | .setShader .. => [20]
  | .setShaderConst .. => [40]
  | .setScissorRect .. => [28]
  | .beginQuery .. => [16]
  | .endQuery .. => [24]
  | .waitForQuery .. => [24]

/-- The methods of SVGA3D leave nothing open. -/
theorem Method3D.closes (m : Method3D) : Closes m.sizes m.run := by
  cases m with
  | defineShader cid shid type bytecode bytecodeLen =>
      exact (SVGACommands.defineShader_closes cid shid type bytecode bytecodeLen).void ()
  | setShaderConst cid reg type ctype value =>
      exact (SVGACommands.setShaderConst_closes cid reg type ctype value).void ()
  -- the others are whole commands
  | _ =>
    exact (emit3D_closes _ _ (by simp [SVGA3dSurfaceImageId.words, SVGAGuestPtr.words])).void ()

end DockerMacos
