import DockerMacos.CommandFifo

/-!
# The Commands of the Device and of Screens

The methods of `SVGADevice` (`FB/SVGADevice.cpp`) and `SVGAScreen` (`AC/SVGAScreen.cpp`) that
put commands into the FIFO. Where a method only copies a structure into the FIFO, the
structure is given by its words.

## Methods

Each method is a program of `FifoM`, under the name it has in the source. `DeviceMethod` and
`ScreenMethod` list them with their arguments, `run` calls them, and `sizes` tells how long the
commands are that a call may reserve room for. Nothing calls the first half of the definition
of an alpha cursor, `BeginDefineAlphaCursor`, so that its second half finds no reservation.

## Proofs

Every method is one command, or two of them, or none: the proofs are put together from
`Opens.emit` and the rules for sequences, and say nothing about the contents of the commands.

## Main results

* `DeviceMethod.closes`, `ScreenMethod.closes`: a method leaves no reservation open, and reserves
  room for the commands of `DeviceMethod.sizes` and `ScreenMethod.sizes` only.
-/

namespace DockerMacos

/-! ### Structures in the FIFO -/

/-- `SVGAGuestPtr`. -/
structure SVGAGuestPtr where
  gmrId : FifoWord
  offset : FifoWord

def SVGAGuestPtr.words (p : SVGAGuestPtr) : List FifoWord := [p.gmrId, p.offset]

/-- `SVGASignedPoint`. -/
structure SVGASignedPoint where
  x : ℤ
  y : ℤ

def SVGASignedPoint.words (p : SVGASignedPoint) : List FifoWord :=
  [BitVec.ofInt 32 p.x, BitVec.ofInt 32 p.y]

/-- `SVGASignedRect`. -/
structure SVGASignedRect where
  left : ℤ
  top : ℤ
  right : ℤ
  bottom : ℤ

def SVGASignedRect.words (r : SVGASignedRect) : List FifoWord :=
  [BitVec.ofInt 32 r.left, BitVec.ofInt 32 r.top, BitVec.ofInt 32 r.right, BitVec.ofInt 32 r.bottom]

/-! ### SVGADevice -/

namespace SVGACommands

/-- `UpdateFramebuffer`. -/
def updateFramebuffer (x y width height : FifoWord) : FifoM Bool :=
  emitCmd 1 [x, y, width, height]

/-- `UpdateFullscreen`. -/
def updateFullscreen : FifoM Bool := do
  let c ← get
  updateFramebuffer 0 0 (word c.width) (word c.height)

/-- `SVGA_ESCAPE_NSID_VMWARE`. -/
def svgaEscapeNsidVmware : ℕ := 0

/-- `SVGA_ESCAPE_VMWARE_VIDEO_SET_REGS` and `SVGA_ESCAPE_VMWARE_VIDEO_FLUSH`. -/
def svgaEscapeVideoSetRegs : ℕ := 0x00020001

def svgaEscapeVideoFlush : ℕ := 0x00020002

/-- `BeginVideoSetRegs`. -/
def beginVideoSetRegs (streamId numItems : ℕ) : FifoM Bool := do
  if ← fifoReserveEscape svgaEscapeNsidVmware (8 + 8 * numItems) then
    store 3 [word svgaEscapeVideoSetRegs, word streamId]
    return true
  else return false

/-- The items for some registers. -/
def regItems (regs : ℕ → FifoWord) (ids : List ℕ) : List FifoWord :=
  ids.flatMap fun i => [word i, regs i]

/-- `VideoSetRegsInRange`. -/
def videoSetRegsInRange (streamId : ℕ) (regs : ℕ → FifoWord) (minReg maxReg : ℕ) : FifoM Bool := do
  let numRegs := add32 (sub32 maxReg minReg) 1
  if minReg > maxReg then return true
  else
    if ← beginVideoSetRegs streamId numRegs then
      store 5 (regItems regs ((List.range numRegs).map (· + minReg)))
      fifoCommitAll
      return true
    else return false

/-- `count_bits`. -/
def countBits (mask : FifoWord) : FifoWord :=
  let mask := ((mask &&& 0xAAAAAAAA#32) >>> 1) + (mask &&& 0x55555555#32)
  let mask := ((mask &&& 0xCCCCCCCC#32) >>> 2) + (mask &&& 0x33333333#32)
  let mask := ((mask &&& 0xF0F0F0F0#32) >>> 4) + (mask &&& 0x0F0F0F0F#32)
  let mask := ((mask &&& 0xFF00FF00#32) >>> 8) + (mask &&& 0x00FF00FF#32)
  ((mask &&& 0xFFFF0000#32) >>> 16) + (mask &&& 0x0000FFFF#32)

/-- `VideoSetRegsWithMask`. -/
def videoSetRegsWithMask (streamId : ℕ) (regs : ℕ → FifoWord) (regMask : FifoWord) :
    FifoM Bool := do
  if regMask = 0 then return true
  else
    if ← beginVideoSetRegs streamId (countBits regMask).toNat then
      store 5 (regItems regs ((List.range 32).filter regMask.getLsbD))
      fifoCommitAll
      return true
    else return false

/-- `VideoSetReg`. -/
def videoSetReg (streamId registerId : ℕ) (value : FifoWord) : FifoM Bool := do
  if ← beginVideoSetRegs streamId 1 then
    store 5 [word registerId, value]
    fifoCommitAll
    return true
  else return false

/-- `VideoFlush`. -/
def videoFlush (streamId : ℕ) : FifoM Bool :=
  emitEscape svgaEscapeNsidVmware [word svgaEscapeVideoFlush, word streamId]

/-- `RectCopy`. -/
def rectCopy (copyRect : Vector FifoWord 6) : FifoM Bool := emitCmd 3 copyRect.toList

/-- `RectFill`, with `SVGA_ROP_COPY`. -/
def rectFill (color : FifoWord) (rect : Vector FifoWord 4) : FifoM Bool :=
  emitCmd 29 (color :: rect.toList ++ [3])

/-- `UpdateFramebuffer2`. -/
def updateFramebuffer2 (rect : Vector FifoWord 4) : FifoM Bool := emitCmd 1 rect.toList

/-- `defineGMR2`. -/
def defineGMR2 (gmrId numPages : FifoWord) : FifoM Bool := emitCmd 41 [gmrId, numPages]

/-- `remapGMR2`; the suffix is given by its words. -/
def remapGMR2 (gmrId flags offsetPages numPages : FifoWord) (suffix : Option (List FifoWord))
    (suffixSize : ℕ) : FifoM Bool := do
  if suffix.isNone ∧ suffixSize ≠ 0 then return false
  else
    if ← fifoReserveCmd 42 (16 + suffixSize) then
      store 1 ([gmrId, flags, offsetPages, numPages] ++ (suffix.getD []).take (suffixSize / 4))
      fifoCommitAll
      return true
    else return false

/-- The bytes of a cursor image, computed in `uint32_t`. -/
def cursorBytes (width height bytespp : ℕ) : ℕ := width * height * bytespp % 2 ^ 32

/-- `EndDefineAlphaCursor`. Its first half, which sets `m_cursor_ptr`, has no caller. -/
def endDefineAlphaCursor (width height bytespp : ℕ) (hotspotX hotspotY : FifoWord) :
    FifoM Bool := do
  let c ← get
  if !c.cursorPtr then return false
  else
    store 1 [1, hotspotX, hotspotY, word width, word height]
    fifoCommit (4 + (20 + cursorBytes width height bytespp))
    modify fun c => { c with cursorPtr := false }
    return true

/-! ### SVGAScreen -/

/-- `DefineScreen`; the screen object is given by its words. -/
def defineScreen (structSize : ℕ) (screen : List FifoWord) : FifoM Bool := do
  if ← fifoReserveCmd 34 structSize then
    store 1 (screen.take (structSize / 4))
    fifoCommitAll
    return true
  else return false

/-- `DestroyScreen`. -/
def destroyScreen (screenId : FifoWord) : FifoM Bool := emitCmd 35 [screenId]

/-- `DefineGMRFB`. -/
def defineGMRFB (ptr : SVGAGuestPtr) (bytesPerLine format : FifoWord) : FifoM Bool :=
  emitCmd 36 (ptr.words ++ [bytesPerLine, format])

/-- `BlitFromGMRFB`. -/
def blitFromGMRFB (srcOrigin : SVGASignedPoint) (destRect : SVGASignedRect)
    (destScreen : FifoWord) : FifoM Bool :=
  emitCmd 37 (srcOrigin.words ++ destRect.words ++ [destScreen])

/-- `BlitToGMRFB`. -/
def blitToGMRFB (destOrigin : SVGASignedPoint) (srcRect : SVGASignedRect)
    (srcScreen : FifoWord) : FifoM Bool :=
  emitCmd 38 (destOrigin.words ++ srcRect.words ++ [srcScreen])

/-- `AnnotateFill`. -/
def annotateFill (color : FifoWord) : FifoM Bool := emitCmd 39 [color]

/-- `AnnotateCopy`. -/
def annotateCopy (srcOrigin : SVGASignedPoint) (srcScreen : FifoWord) : FifoM Bool :=
  emitCmd 40 (srcOrigin.words ++ [srcScreen])

/-! ### Nothing is left open -/

/-- Every item takes two words. -/
theorem beginVideoSetRegs_opens (streamId numItems : ℕ) :
    Opens (20 + 8 * numItems) (beginVideoSetRegs streamId numItems) := by
  have hopens : Opens _ (beginVideoSetRegs streamId numItems) :=
    (fifoReserveEscape_opens svgaEscapeNsidVmware (8 + 8 * numItems)).header 3 _
  rwa [show (8 + 8 * numItems + 3) / 4 * 4 + 12 = 20 + 8 * numItems by omega] at hopens

/-- The registers of a range, if it is not empty. -/
theorem videoSetRegsInRange_closes (streamId : ℕ) (regs : ℕ → FifoWord) (minReg maxReg : ℕ) :
    Closes (if minReg > maxReg then [] else [20 + 8 * add32 (sub32 maxReg minReg) 1])
      (videoSetRegsInRange streamId regs minReg maxReg) :=
  .branch (.pure true) ((beginVideoSetRegs_opens _ _).emit (by omega) 5 _)

/-- The registers of a mask, if it is not empty. -/
theorem videoSetRegsWithMask_closes (streamId : ℕ) (regs : ℕ → FifoWord) (regMask : FifoWord) :
    Closes (if regMask = 0 then [] else [20 + 8 * (countBits regMask).toNat])
      (videoSetRegsWithMask streamId regs regMask) :=
  .branch (.pure true) ((beginVideoSetRegs_opens _ _).emit (by omega) 5 _)

/-- A single register. -/
theorem videoSetReg_closes (streamId registerId : ℕ) (value : FifoWord) :
    Closes [28] (videoSetReg streamId registerId value) :=
  (beginVideoSetRegs_opens _ 1).emit (by omega) 5 _

/-- The suffix of the command has the size that the caller says. -/
theorem remapGMR2_closes (gmrId flags offsetPages numPages : FifoWord)
    (suffix : Option (List FifoWord)) (suffixSize : ℕ) :
    Closes (if suffix.isNone ∧ suffixSize ≠ 0 then [] else [16 + suffixSize + 4])
      (remapGMR2 gmrId flags offsetPages numPages suffix suffixSize) :=
  .branch (.pure false) ((fifoReserveCmd_opens _ _).emit (by omega) 1 _)

/-- Without a cursor begun, the second half does nothing. -/
theorem endDefineAlphaCursor_closes (width height bytespp : ℕ) (hotspotX hotspotY : FifoWord) :
    Closes [] (endDefineAlphaCursor width height bytespp hotspotX hotspotY) := by
  intro c₀ hc₀
  have hrun : ∀ c, Closed c₀ c →
      (endDefineAlphaCursor width height bytespp hotspotX hotspotY).run c = some (false, c) := by
    intro c hc
    have hcursor : c.cursorPtr = false := hc.cursor.trans hc₀
    change (if (!c.cursorPtr) = true then _ else _ : FifoM Bool).run c = _
    rw [hcursor]
    rfl
  refine ⟨fun c ok t hc h => ?_, fun _ c ok t hc h => ?_, fun _ c hc h => ?_⟩
  · cases (hrun c hc).symm.trans h
    exact hc
  · cases (hrun c hc).symm.trans h
    exact le_rfl
  · cases (hrun c hc).symm.trans h

end SVGACommands

open SVGACommands

/-! ### All methods -/

/-- The methods of `SVGADevice` that put commands into the FIFO, with their arguments. -/
inductive DeviceMethod
  | insertFence
  | updateFramebuffer (x y width height : FifoWord)
  | updateFullscreen
  | videoSetRegsInRange (streamId : ℕ) (regs : ℕ → FifoWord) (minReg maxReg : ℕ)
  | videoSetRegsWithMask (streamId : ℕ) (regs : ℕ → FifoWord) (regMask : FifoWord)
  | videoSetReg (streamId registerId : ℕ) (value : FifoWord)
  | videoFlush (streamId : ℕ)
  | rectCopy (copyRect : Vector FifoWord 6)
  | rectFill (color : FifoWord) (rect : Vector FifoWord 4)
  | updateFramebuffer2 (rect : Vector FifoWord 4)
  | defineGMR2 (gmrId numPages : FifoWord)
  | remapGMR2 (gmrId flags offsetPages numPages : FifoWord) (suffix : Option (List FifoWord))
      (suffixSize : ℕ)
  | endDefineAlphaCursor (width height bytespp : ℕ) (hotspotX hotspotY : FifoWord)

/-- The call of a method. -/
def DeviceMethod.run : DeviceMethod → FifoM Unit
  | .insertFence => do let _ ← DockerMacos.insertFence
  | .updateFramebuffer x y width height => do
      let _ ← SVGACommands.updateFramebuffer x y width height
  | .updateFullscreen => do let _ ← SVGACommands.updateFullscreen
  | .videoSetRegsInRange streamId regs minReg maxReg => do
      let _ ← SVGACommands.videoSetRegsInRange streamId regs minReg maxReg
  | .videoSetRegsWithMask streamId regs regMask => do
      let _ ← SVGACommands.videoSetRegsWithMask streamId regs regMask
  | .videoSetReg streamId registerId value => do
      let _ ← SVGACommands.videoSetReg streamId registerId value
  | .videoFlush streamId => do let _ ← SVGACommands.videoFlush streamId
  | .rectCopy copyRect => do let _ ← SVGACommands.rectCopy copyRect
  | .rectFill color rect => do let _ ← SVGACommands.rectFill color rect
  | .updateFramebuffer2 rect => do let _ ← SVGACommands.updateFramebuffer2 rect
  | .defineGMR2 gmrId numPages => do let _ ← SVGACommands.defineGMR2 gmrId numPages
  | .remapGMR2 gmrId flags offsetPages numPages suffix suffixSize => do
      let _ ← SVGACommands.remapGMR2 gmrId flags offsetPages numPages suffix suffixSize
  | .endDefineAlphaCursor width height bytespp hotspotX hotspotY => do
      let _ ← SVGACommands.endDefineAlphaCursor width height bytespp hotspotX hotspotY

/-- The sizes of the commands that a method may reserve room for. -/
def DeviceMethod.sizes : DeviceMethod → List ℕ
  | .insertFence => [8]
  | .updateFramebuffer .. => [20]
  | .updateFullscreen => [20]
  | .videoSetRegsInRange _ _ minReg maxReg =>
      if minReg > maxReg then [] else [20 + 8 * add32 (sub32 maxReg minReg) 1]
  | .videoSetRegsWithMask _ _ regMask =>
      if regMask = 0 then [] else [20 + 8 * (SVGACommands.countBits regMask).toNat]
  | .videoSetReg .. => [28]
  | .videoFlush _ => [20]
  | .rectCopy _ => [28]
  | .rectFill .. => [28]
  | .updateFramebuffer2 _ => [20]
  | .defineGMR2 .. => [12]
  | .remapGMR2 _ _ _ _ suffix suffixSize =>
      if suffix.isNone ∧ suffixSize ≠ 0 then [] else [16 + suffixSize + 4]
  | .endDefineAlphaCursor .. => []

/-- The methods of the device leave nothing open. -/
theorem DeviceMethod.closes (m : DeviceMethod) : Closes m.sizes m.run := by
  cases m with
  | insertFence => exact insertFence_closes.void ()
  | updateFramebuffer x y width height => exact (emitCmd_closes 1 _ (by rfl)).void ()
  | updateFullscreen => exact (Closes.getBind fun _ => emitCmd_closes 1 _ (by rfl)).void ()
  | videoSetRegsInRange streamId regs minReg maxReg =>
      exact (videoSetRegsInRange_closes streamId regs minReg maxReg).void ()
  | videoSetRegsWithMask streamId regs regMask =>
      exact (videoSetRegsWithMask_closes streamId regs regMask).void ()
  | videoSetReg streamId registerId value =>
      exact (videoSetReg_closes streamId registerId value).void ()
  | videoFlush streamId => exact (emitEscape_closes _ _ (by simp)).void ()
  | rectCopy copyRect => exact (emitCmd_closes 3 _ (by simp)).void ()
  | rectFill color rect => exact (emitCmd_closes 29 _ (by simp)).void ()
  | updateFramebuffer2 rect => exact (emitCmd_closes 1 _ (by simp)).void ()
  | defineGMR2 gmrId numPages => exact (emitCmd_closes 41 _ (by rfl)).void ()
  | remapGMR2 gmrId flags offsetPages numPages suffix suffixSize =>
      exact (remapGMR2_closes gmrId flags offsetPages numPages suffix suffixSize).void ()
  | endDefineAlphaCursor width height bytespp hotspotX hotspotY =>
      exact (endDefineAlphaCursor_closes width height bytespp hotspotX hotspotY).void ()

/-- The methods of `SVGAScreen`, with their arguments. -/
inductive ScreenMethod
  | defineScreen (structSize : ℕ) (screen : List FifoWord)
  | destroyScreen (screenId : FifoWord)
  | defineGMRFB (ptr : SVGAGuestPtr) (bytesPerLine format : FifoWord)
  | blitFromGMRFB (srcOrigin : SVGASignedPoint) (destRect : SVGASignedRect)
      (destScreen : FifoWord)
  | blitToGMRFB (destOrigin : SVGASignedPoint) (srcRect : SVGASignedRect) (srcScreen : FifoWord)
  | annotateFill (color : FifoWord)
  | annotateCopy (srcOrigin : SVGASignedPoint) (srcScreen : FifoWord)

/-- The call of a method. -/
def ScreenMethod.run : ScreenMethod → FifoM Unit
  | .defineScreen structSize screen => do let _ ← SVGACommands.defineScreen structSize screen
  | .destroyScreen screenId => do let _ ← SVGACommands.destroyScreen screenId
  | .defineGMRFB ptr bytesPerLine format => do
      let _ ← SVGACommands.defineGMRFB ptr bytesPerLine format
  | .blitFromGMRFB srcOrigin destRect destScreen => do
      let _ ← SVGACommands.blitFromGMRFB srcOrigin destRect destScreen
  | .blitToGMRFB destOrigin srcRect srcScreen => do
      let _ ← SVGACommands.blitToGMRFB destOrigin srcRect srcScreen
  | .annotateFill color => do let _ ← SVGACommands.annotateFill color
  | .annotateCopy srcOrigin srcScreen => do let _ ← SVGACommands.annotateCopy srcOrigin srcScreen

/-- The sizes of the commands that a method may reserve room for. -/
def ScreenMethod.sizes : ScreenMethod → List ℕ
  | .defineScreen structSize _ => [structSize + 4]
  | .destroyScreen _ => [8]
  | .defineGMRFB .. => [20]
  | .blitFromGMRFB .. => [32]
  | .blitToGMRFB .. => [32]
  | .annotateFill _ => [8]
  | .annotateCopy .. => [16]

/-- The screen object has the size that it says itself. -/
theorem defineScreen_closes (structSize : ℕ) (screen : List FifoWord) :
    Closes [structSize + 4] (defineScreen structSize screen) :=
  (fifoReserveCmd_opens 34 structSize).emit (by omega) 1 _

/-- The methods of screens leave nothing open. -/
theorem ScreenMethod.closes (m : ScreenMethod) : Closes m.sizes m.run := by
  cases m with
  | defineScreen structSize screen => exact (defineScreen_closes structSize screen).void ()
  | destroyScreen screenId => exact (emitCmd_closes 35 _ (by rfl)).void ()
  | defineGMRFB ptr bytesPerLine format => exact (emitCmd_closes 36 _ (by rfl)).void ()
  | blitFromGMRFB srcOrigin destRect destScreen => exact (emitCmd_closes 37 _ (by rfl)).void ()
  | blitToGMRFB destOrigin srcRect srcScreen => exact (emitCmd_closes 38 _ (by rfl)).void ()
  | annotateFill color => exact (emitCmd_closes 39 _ (by rfl)).void ()
  | annotateCopy srcOrigin srcScreen => exact (emitCmd_closes 40 _ (by rfl)).void ()

end DockerMacos
