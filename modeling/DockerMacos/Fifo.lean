import DockerMacos.Word32

/-!
# The Command FIFO of the SVGA Device

The guest hands commands to the virtual device through a ring in device memory
(`FB/SVGADevice.cpp`). `fifoReserve` finds room for a command, either in place or in a
bounce buffer; `fifoCommit` publishes it by moving `NEXT_CMD`; the device follows with
`STOP`. Register values are byte offsets (`uint32_t`, natural numbers here), the
contents of the FIFO are words indexed by byte offset divided by four.

## Elementary moves

`FIFOReserve` reads `STOP` anew in every iteration of its loop, and `FIFOCommit`
publishes word by word when it copies out of the bounce buffer on a device without
`SVGA_FIFO_CAP_RESERVE`. Both are therefore given by their elementary moves
(`fifoReserveIter`, `fifoCommitCopy`, `fifoCommitWord`, `fifoCommitPublish`), which the
device can interleave with; `fifoCommit` composes the moves of one undisturbed call.

## Widths

The offsets are 32 bits wide and the size of a command is a `size_t`. Where the source adds
them in `uint32_t`, the model takes the remainder by `2 ^ 32`; where it adds them in `size_t`,
the sum is as it is.

## Main definitions

* `placement`: the decision inside the loop of `FIFOReserve`.
* `fifoReserveIter`: one iteration of that loop.
* `fifoCommit`, `fifoCommitAll`: a commit that nothing disturbs.
-/

namespace DockerMacos

/-- The contents of one FIFO word. -/
abbrev FifoWord := BitVec 32

/-- `SVGA_FIFO_NUM_REGS`: the number of register words at the start of the FIFO. -/
def svgaFifoNumRegs : ℕ := 291

/-- `BOUNCE_BUFFER_SIZE` in bytes. -/
def bounceBufferSize : ℕ := 0x10000

/-- The FIFO part of `SVGADevice` together with the FIFO registers in device memory. -/
structure SVGADevice where
  /-- `m_fifo_size`, read from `SVGA_REG_MEM_SIZE`. -/
  fifoSize : ℕ
  /-- `fifo[SVGA_FIFO_MIN]`. -/
  fifoMin : ℕ
  /-- `fifo[SVGA_FIFO_MAX]`. -/
  fifoMax : ℕ
  /-- `fifo[SVGA_FIFO_NEXT_CMD]`, written by the guest. -/
  fifoNextCmd : ℕ
  /-- `fifo[SVGA_FIFO_STOP]`, written by the device. -/
  fifoStop : ℕ
  /-- `fifo[SVGA_FIFO_RESERVED]`. -/
  fifoReserved : ℕ
  /-- `HasFIFOCap(SVGA_FIFO_CAP_RESERVE)`. -/
  reservable : Bool
  /-- The words of the FIFO, by byte offset divided by four. -/
  fifo : ℕ → FifoWord
  /-- `m_bounce_buffer`, by byte offset divided by four. -/
  bounceBuffer : ℕ → FifoWord
  /-- `m_using_bounce_buffer`. -/
  usingBounceBuffer : Bool
  /-- `m_reserved_size`. -/
  reservedSize : ℕ

namespace SVGADevice

/-- `FIFOInit`: the ring starts after the registers and is empty. -/
def fifoInit (d : SVGADevice) : SVGADevice :=
  { d with
    fifoMin := svgaFifoNumRegs * 4
    fifoMax := d.fifoSize
    fifoNextCmd := svgaFifoNumRegs * 4
    fifoStop := svgaFifoNumRegs * 4
    reservedSize := 0
    usingBounceBuffer := false }

/-! ### Reservation -/

/-- The checks before the loop of `FIFOReserve`: a command that is too large, not a
whole number of words, or that follows an uncommitted reservation is refused. -/
def fifoReserveRefused (d : SVGADevice) (bytes : ℕ) : Bool :=
  bytes > bounceBufferSize || bytes > sub32 d.fifoMax d.fifoMin || bytes % 4 ≠ 0 ||
    d.reservedSize ≠ 0

/-- What one look at `STOP` says about a command of `bytes` bytes at `NEXT_CMD`. -/
inductive Placement
  | inPlace
  | bounce
  | full
  deriving DecidableEq, Repr

/-- The decision inside the loop of `FIFOReserve`. `next_cmd + bytes` is computed in
`size_t`, the free space of a wrapping command in `uint32_t`. -/
def placement (min max nextCmd stop bytes : ℕ) : Placement :=
  if nextCmd ≥ stop then
    if nextCmd + bytes < max ∨ (nextCmd + bytes = max ∧ stop > min) then .inPlace
    else if add32 (sub32 max nextCmd) (sub32 stop min) ≤ bytes then .full
    else .bounce
  else if nextCmd + bytes < stop then .inPlace
  else .full

/-- One iteration of the loop of `FIFOReserve`, with the value of `NEXT_CMD` read on
entry. The result is `none` after `FIFOFull()`; otherwise a pointer is returned, to
the bounce buffer if `usingBounceBuffer` is then set and to `nextCmd` if not. -/
def fifoReserveIter (d : SVGADevice) (nextCmd bytes : ℕ) : Option SVGADevice :=
  match placement d.fifoMin d.fifoMax nextCmd d.fifoStop bytes with
  | .inPlace =>
      if d.reservable then
        some { d with usingBounceBuffer := false, fifoReserved := bytes }
      else if bytes ≤ 4 then some { d with usingBounceBuffer := false }
      else some { d with usingBounceBuffer := true }
  | .bounce => some { d with usingBounceBuffer := true }
  | .full => none

/-- What a successful iteration of the loop of `FIFOReserve` does. -/
theorem fifoReserveIter_eq_some {d d' : SVGADevice} {nextCmd bytes : ℕ}
    (h : d.fifoReserveIter nextCmd bytes = some d') :
    ∃ bounce reserved,
      d' = { d with usingBounceBuffer := bounce, fifoReserved := reserved } ∧
      placement d.fifoMin d.fifoMax nextCmd d.fifoStop bytes ≠ .full ∧
      (bounce = false → placement d.fifoMin d.fifoMax nextCmd d.fifoStop bytes = .inPlace) ∧
      (4 < bytes → d.reservable = true ∨ bounce = true) := by
  unfold fifoReserveIter at h
  cases hp : placement d.fifoMin d.fifoMax nextCmd d.fifoStop bytes with
  | inPlace =>
      simp only [hp] at h
      split at h
      · exact ⟨false, bytes, (Option.some.inj h).symm, by decide, fun _ => rfl, fun _ => .inl ‹_›⟩
      · split at h
        · exact ⟨false, d.fifoReserved, (Option.some.inj h).symm, by decide, fun _ => rfl,
            fun hlt => absurd hlt (Nat.not_lt.mpr ‹_›)⟩
        · exact ⟨true, d.fifoReserved, (Option.some.inj h).symm, by decide, fun _ => rfl,
            fun _ => .inr rfl⟩
  | bounce =>
      simp only [hp] at h
      exact ⟨true, d.fifoReserved, (Option.some.inj h).symm, by decide, by rintro ⟨⟩,
        fun _ => .inr rfl⟩
  | full => simp [hp] at h

/-! ### Commit -/

/-- The two `memcpy` calls of `FIFOCommit` on a device with `CAP_RESERVE`: the part up
to `MAX`, then the rest from `MIN` on. -/
def fifoCommitCopy (d : SVGADevice) (nextCmd bytes : ℕ) : SVGADevice :=
  let chunkSize := min (sub32 d.fifoMax nextCmd) bytes
  { d with
    fifoReserved := bytes % 2 ^ 32
    fifo := fun k =>
      if d.fifoMin / 4 ≤ k ∧ k < d.fifoMin / 4 + (bytes - chunkSize) / 4 then
        d.bounceBuffer (k - d.fifoMin / 4 + chunkSize / 4)
      else if nextCmd / 4 ≤ k ∧ k < nextCmd / 4 + chunkSize / 4 then
        d.bounceBuffer (k - nextCmd / 4)
      else d.fifo k }

/-- The value of `next_cmd` after one word of the word-by-word copy. -/
def nextWord (d : SVGADevice) (nextCmd : ℕ) : ℕ :=
  if add32 nextCmd 4 = d.fifoMax then d.fifoMin else add32 nextCmd 4

/-- One turn of the word-by-word copy of `FIFOCommit` on a device without
`CAP_RESERVE`: the word is stored and published at once. -/
def fifoCommitWord (d : SVGADevice) (nextCmd dword : ℕ) : SVGADevice :=
  { d with
    fifo := fun k => if k = nextCmd / 4 then d.bounceBuffer dword else d.fifo k
    fifoNextCmd := d.nextWord nextCmd }

/-- The value of `next_cmd` after a command of `bytes` bytes. -/
def nextCommand (d : SVGADevice) (nextCmd bytes : ℕ) : ℕ :=
  let next := add32 nextCmd bytes
  if next ≥ d.fifoMax then sub32 next (sub32 d.fifoMax d.fifoMin) else next

/-- The last statements of `FIFOCommit`: publish a command that is already in place. -/
def fifoCommitPublish (d : SVGADevice) (nextCmd bytes : ℕ) : SVGADevice :=
  { d with
    fifoNextCmd := d.nextCommand nextCmd bytes
    fifoReserved := if d.reservable then 0 else d.fifoReserved }

/-- The checks at the start of `FIFOCommit`. -/
def fifoCommitRefused (d : SVGADevice) (bytes : ℕ) : Bool :=
  bytes % 4 ≠ 0 || d.reservedSize = 0

/-- The word-by-word loop of one undisturbed `FIFOCommit`, for `n` more words. -/
def fifoCommitWords (d : SVGADevice) (nextCmd dword : ℕ) : ℕ → SVGADevice
  | 0 => d
  | n + 1 =>
      fifoCommitWords (d.fifoCommitWord nextCmd dword) (d.nextWord nextCmd) (dword + 1) n

/-- `FIFOCommit`, undisturbed. -/
def fifoCommit (d : SVGADevice) (bytes : ℕ) : SVGADevice :=
  if d.fifoCommitRefused bytes then d
  else
    let d' := { d with reservedSize := 0 }
    if d.usingBounceBuffer then
      if d.reservable then (d'.fifoCommitCopy d.fifoNextCmd bytes).fifoCommitPublish
        d.fifoNextCmd bytes
      else d'.fifoCommitWords d.fifoNextCmd 0 (bytes / 4)
    else d'.fifoCommitPublish d.fifoNextCmd bytes

/-- `FIFOCommitAll`. -/
def fifoCommitAll (d : SVGADevice) : SVGADevice := d.fifoCommit d.reservedSize

end SVGADevice

end DockerMacos
