import Mathlib.Data.List.Infix
import DockerMacos.Fifo
import DockerMacos.RingBuffer
import DockerMacos.Run

/-!
# Runs of the Command FIFO

A run of the FIFO interleaves the elementary moves of one guest thread (reserve, wait
for room, fill the reserved words, commit or abort, copy and publish) with device moves
that read one published word each. The locks of the driver let one guest thread in at a time.

## Ghost streams

Three ghost streams record what happened: `committed` (the contents of the committed
commands, in commit order), `published` (the words that `NEXT_CMD` has passed) and
`deviceRead` (the words that `STOP` has passed). `StreamLaw` is what they owe each other.

## Moves

`fifoStep` refuses a move that the program point does not allow, so a run is a list of moves
that are all allowed. The guest fills the words of its reservation in any order, as its caller
does, and commits what it has filled.

## Main definitions

* `GuestPc`: where the guest is, with the local variables that it holds there.
* `fifoStep`: the step function.
* `CommitFits`: the sum that a publication forms does not wrap.
* `StreamLaw`: the stream law.
-/

namespace DockerMacos

open SVGADevice

/-! ### The transition system -/

/-- Where the guest is in its program, with the local variables it holds there. -/
inductive GuestPc
  /-- Outside `FIFOReserve` and `FIFOCommit`, without a reservation. -/
  | idle
  /-- In the loop of `FIFOReserve`. -/
  | reserving (nextCmd bytes : ℕ)
  /-- `FIFOReserve` has returned a pointer. -/
  | reserved (nextCmd bytes : ℕ)
  /-- In the word-by-word loop of `FIFOCommit`, `left` bytes from the end. -/
  | storing (nextCmd left dword : ℕ)
  /-- Before the last statements of `FIFOCommit`. -/
  | publishing (nextCmd bytes : ℕ)

/-- A moment of a run: the FIFO, the guest's program point, the reserved words it has
filled, and the three ghost streams. -/
structure FifoRun where
  dev : SVGADevice
  pc : GuestPc
  written : ℕ → Option FifoWord
  committed : List FifoWord
  published : List FifoWord
  deviceRead : List FifoWord

/-- The moves of a run. -/
inductive FifoAction
  /-- Enter `FIFOReserve(n)`. -/
  | reserve (n : ℕ)
  /-- One iteration of the loop of `FIFOReserve`. -/
  | look
  /-- Fill word `i` of the reserved buffer. -/
  | store (i : ℕ) (v : FifoWord)
  /-- Enter `FIFOCommit(n)`, where `n` is the reserved size, or zero to abort. -/
  | commit (n : ℕ)
  /-- Enter `FIFOCommitAll()`. -/
  | commitAll
  /-- One turn of the word-by-word loop, or its end. -/
  | copyWord
  /-- The last statements of `FIFOCommit`. -/
  | publish
  /-- The device reads the word at `STOP` and advances. -/
  | device

/-- The first word of the ring. -/
def SVGADevice.ringLo (d : SVGADevice) : ℕ := d.fifoMin / 4

/-- The end of the ring, in words. -/
def SVGADevice.ringHi (d : SVGADevice) : ℕ := d.fifoMax / 4

/-- The words from byte offset `a` up to byte offset `b`. -/
def SVGADevice.wordsBetween (d : SVGADevice) (a b : ℕ) : List FifoWord :=
  ringRead d.fifo d.ringLo d.ringHi (a / 4) (ringDist d.ringLo d.ringHi (a / 4) (b / 4))

/-- The guest has filled every reserved word. -/
def filled (written : ℕ → Option FifoWord) (bytes : ℕ) : Bool :=
  (List.range (bytes / 4)).all fun i => (written i).isSome

/-- The contents of a command of `bytes` bytes. -/
def contents (written : ℕ → Option FifoWord) (bytes : ℕ) : List FifoWord :=
  (List.range (bytes / 4)).map fun i => (written i).getD 0

/-- The device state after the guest fills word `i` of a reservation at `nextCmd`. -/
def SVGADevice.fillWord (d : SVGADevice) (nextCmd i : ℕ) (v : FifoWord) : SVGADevice :=
  if d.usingBounceBuffer then
    { d with bounceBuffer := fun k => if k = i then v else d.bounceBuffer k }
  else { d with fifo := fun k => if k = nextCmd / 4 + i then v else d.fifo k }

/-- `FIFOCommit(n)` up to its first publication, for a reservation of which `written`
was filled. -/
def FifoRun.enterCommit (s : FifoRun) (n : ℕ) : FifoRun :=
  if s.dev.fifoCommitRefused n then { s with pc := .idle }
  else
    let d := { s.dev with reservedSize := 0 }
    let s' := { s with dev := d, committed := s.committed ++ contents s.written n }
    if d.usingBounceBuffer then
      if d.reservable then
        { s' with
          dev := d.fifoCommitCopy d.fifoNextCmd n
          pc := .publishing d.fifoNextCmd n }
      else { s' with pc := .storing d.fifoNextCmd n 0 }
    else { s' with pc := .publishing d.fifoNextCmd n }

/-- The step function. A move that the program point does not allow is refused. -/
def fifoStep (s : FifoRun) : FifoAction → Option FifoRun
  | .reserve n =>
      match s.pc with
      | .idle =>
          if n = 0 then none
          else if s.dev.fifoReserveRefused n then some s
          else
            some { s with
              dev := { s.dev with reservedSize := n }
              pc := .reserving s.dev.fifoNextCmd n
              written := fun _ => none }
      | _ => none
  | .look =>
      match s.pc with
      | .reserving nextCmd bytes =>
          match s.dev.fifoReserveIter nextCmd bytes with
          | some d => some { s with dev := d, pc := .reserved nextCmd bytes }
          | none => some s
      | _ => none
  | .store i v =>
      match s.pc with
      | .reserved nextCmd bytes =>
          if i < bytes / 4 then
            some { s with
              dev := s.dev.fillWord nextCmd i v
              written := fun k => if k = i then some v else s.written k }
          else none
      | _ => none
  | .commit n =>
      match s.pc with
      | .reserved _ bytes =>
          if n = 0 ∨ n = bytes ∧ filled s.written bytes then some (s.enterCommit n)
          else none
      | _ => none
  | .commitAll =>
      match s.pc with
      | .reserved _ bytes =>
          if filled s.written bytes then some (s.enterCommit s.dev.reservedSize) else none
      | _ => none
  | .copyWord =>
      match s.pc with
      | .storing nextCmd left dword =>
          if left = 0 then some { s with pc := .idle }
          else
            let d := s.dev.fifoCommitWord nextCmd dword
            some { s with
              dev := d
              pc := .storing (s.dev.nextWord nextCmd) (left - 4) (dword + 1)
              published := s.published ++ d.wordsBetween s.dev.fifoNextCmd d.fifoNextCmd }
      | _ => none
  | .publish =>
      match s.pc with
      | .publishing nextCmd bytes =>
          let d := s.dev.fifoCommitPublish nextCmd bytes
          some { s with
            dev := d
            pc := .idle
            published := s.published ++ d.wordsBetween s.dev.fifoNextCmd d.fifoNextCmd }
      | _ => none
  | .device =>
      if s.dev.fifoStop = s.dev.fifoNextCmd then none
      else
        some { s with
          dev := { s.dev with fifoStop := s.dev.nextWord s.dev.fifoStop }
          deviceRead := s.deviceRead ++ [s.dev.fifo (s.dev.fifoStop / 4)] }

/-- The state after `FIFOInit`. -/
def fifoStart (d : SVGADevice) : FifoRun where
  dev := d.fifoInit
  pc := .idle
  written := fun _ => none
  committed := []
  published := []
  deviceRead := []

/-- The condition under which a commit publishes the right offset: the sum
`NEXT_CMD + n` that it forms in `uint32_t` does not wrap. -/
def CommitFits (s : FifoRun) (a : FifoAction) : Prop :=
  match a, s.pc with
  | .publish, .publishing nextCmd bytes => nextCmd + bytes < 2 ^ 32
  | _, _ => True

/-- Whether a `FIFOCommit` is in progress. -/
def GuestPc.committing : GuestPc → Bool
  | .storing .. | .publishing .. => true
  | _ => false

/-- **The stream law.** -/
structure StreamLaw (s : FifoRun) : Prop where
  /-- The device reads the committed commands, in commit order. -/
  inOrder : s.deviceRead <+: s.committed
  /-- Outside a commit, a device that has caught up has read all of them. -/
  caughtUp : s.pc.committing = false → s.dev.fifoStop = s.dev.fifoNextCmd →
    s.deviceRead = s.committed
  /-- The unread words are still in the ring as they were published. -/
  intact : s.published =
    s.deviceRead ++ s.dev.wordsBetween s.dev.fifoStop s.dev.fifoNextCmd
  /-- `NEXT_CMD = STOP` exactly when no published word is unread. -/
  drained : s.dev.fifoNextCmd = s.dev.fifoStop ↔ s.deviceRead = s.published
  nextAligned : 4 ∣ s.dev.fifoNextCmd
  nextInside : s.dev.fifoMin ≤ s.dev.fifoNextCmd ∧ s.dev.fifoNextCmd < s.dev.fifoMax
  stopAligned : 4 ∣ s.dev.fifoStop
  stopInside : s.dev.fifoMin ≤ s.dev.fifoStop ∧ s.dev.fifoStop < s.dev.fifoMax

end DockerMacos
