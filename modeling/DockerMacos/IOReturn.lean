import Mathlib.Data.Nat.Notation

/-!
# Return Codes

The `kIOReturn` codes that the driver returns.
-/

namespace DockerMacos

/-- `IOReturn`, without the common prefix `kIOReturn`. -/
inductive IOReturn
  | success
  | error
  | badArgument
  | noMemory
  | noResources
  | noSpace
  | noDevice
  | notReady
  | notFound
  | notAligned
  | notReadable
  | notWritable
  | notPrivileged
  | unsupported
  | unsupportedMode
  | internalError
  | badMedia
  | cannotLock
  | overrun
  | dmaError
  | deviceError
  | ioError
  deriving DecidableEq, Repr

end DockerMacos
