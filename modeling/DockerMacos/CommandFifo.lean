import DockerMacos.FifoSystem
import DockerMacos.Hoare
import DockerMacos.Present

/-!
# Emitting Commands

The command methods of the driver as programs: a method reserves room in the FIFO, stores the
words of its command there and commits them (`FB/SVGADevice.cpp`).

## The state

`FIFOReserve` waits until the device has made room, and looks at `STOP` each time; what it sees
is part of the state here. A method that still waits at the end of that list has no result.
Sizes are those of a 64-bit `size_t`, which do not wrap.

Waiting for a fence, ringing the doorbell and the cursor registers leave this state alone and
are left out, and so are the locks. A command and its arguments are given by the words that
they take in the FIFO.

## The size of a command

A command of exactly the size of the ring passes the size checks of `FIFOReserve` but never
finds room, as one word of the ring is always free. `Fits` is what a command has to be in order
not to be such a one, and `Closes` promises a return only for commands that fit.

## Main definitions

* `Closes`: a program that leaves nothing open.
* `Opens`, `Fills`: the first half of such a program, and what it stores.

## Main results

* `fifoReserve_triple`, `fifoCommitAll_triple`, `fifoCommit_abort_triple`: a reservation, and
  the two ways to close it. A reservation that is shorter than the ring waits until the device
  has caught up at the latest.
* `Opens.emit`: a whole command leaves nothing open.
-/

namespace DockerMacos

/-- A committed command: `NEXT_CMD` before and after, and its words. -/
structure FifoCommit where
  before : ℕ
  after : ℕ
  words : List FifoWord

/-- What a look at `STOP` in `FIFOReserve` sees. -/
inductive StopRead
  /-- The device is here. -/
  | offset (stop : ℕ)
  /-- The device has processed every command. -/
  | caughtUp
  deriving DecidableEq

/-- The value of `STOP`. -/
def StopRead.value (nextCmd : ℕ) : StopRead → ℕ
  | .offset stop => stop
  | .caughtUp => nextCmd

/-- The driver's side of the FIFO. -/
structure CommandFifo where
  dev : SVGADevice
  /-- What the coming looks at `STOP` in `FIFOReserve` see. -/
  looks : List StopRead
  /-- `HasFIFOCap(SVGA_FIFO_CAP_FENCE)`. -/
  hasFence : Bool
  /-- `m_next_fence`. -/
  nextFence : ℕ
  /-- Whether `m_cursor_ptr` is set. -/
  cursorPtr : Bool
  /-- `m_width` and `m_height`. -/
  width : ℕ
  height : ℕ
  /-- `m_present_tracker` of the accelerator. -/
  presentTracker : FenceTracker
  /-- `m_primary_screen` of the accelerator. -/
  primaryScreen : ℕ × ℕ
  /-- The words stored in the open reservation. -/
  written : ℕ → Option FifoWord
  /-- The committed commands. -/
  log : List FifoCommit
  /-- How many reservations were refused while another one was open. -/
  blocked : ℕ

/-- A program of the driver. -/
abbrev FifoM := StateT CommandFifo Option

/-- A word from a number. -/
def word (n : ℕ) : FifoWord := BitVec.ofNat 32 n

/-! ### Reserving -/

/-- The loop of `FIFOReserve`; `nextCmd` is what it has read on entry. -/
def reserveLoop (d : SVGADevice) (nextCmd bytes : ℕ) :
    List StopRead → Option (SVGADevice × List StopRead)
  | [] => none
  | look :: looks =>
      let d := { d with fifoStop := look.value d.fifoNextCmd }
      match d.fifoReserveIter nextCmd bytes with
      | some d => some (d, looks)
      | none => reserveLoop d nextCmd bytes looks

/-- `FIFOReserve`: whether it returns a pointer. -/
def fifoReserve (bytes : ℕ) : FifoM Bool := fun c =>
  if c.dev.fifoReserveRefused bytes then
    some (false, { c with blocked := if c.dev.reservedSize = 0 then c.blocked else c.blocked + 1 })
  else
    match reserveLoop { c.dev with reservedSize := bytes } c.dev.fifoNextCmd bytes c.looks with
    | none => none
    | some (d, looks) => some (true, { c with dev := d, looks := looks, written := fun _ => none })

/-- Word `i` of the reservation is stored. -/
def CommandFifo.storeWord (c : CommandFifo) (i : ℕ) (v : FifoWord) : CommandFifo :=
  { c with
    dev := c.dev.fillWord c.dev.fifoNextCmd i v
    written := fun k => if k = i then some v else c.written k }

/-- The words from word `i` of the reservation on are stored. -/
def CommandFifo.storeWords (c : CommandFifo) (i : ℕ) : List FifoWord → CommandFifo
  | [] => c
  | v :: ws => (c.storeWord i v).storeWords (i + 1) ws

/-- Storing words in the reservation, from word `i` on. -/
def store (i : ℕ) (ws : List FifoWord) : FifoM Unit := modify fun c => c.storeWords i ws

/-- `FIFOReserveCmd`. -/
def fifoReserveCmd (type : ℕ) (bytes : ℕ) : FifoM Bool := do
  if ← fifoReserve (bytes + 4) then
    store 0 [word type]
    return true
  else return false

/-- `SVGA_CMD_ESCAPE`. -/
def svgaCmdEscape : ℕ := 33

/-- `FIFOReserveEscape`. -/
def fifoReserveEscape (nsid bytes : ℕ) : FifoM Bool := do
  if ← fifoReserve ((bytes + 3) / 4 * 4 + 12) then
    store 0 [word svgaCmdEscape, word nsid, word bytes]
    return true
  else return false

/-- `SVGA3D::FIFOReserve`. -/
def fifoReserve3D (cmd cmdSize : ℕ) : FifoM Bool := do
  if ← fifoReserve (8 + cmdSize) then
    store 0 [word cmd, word cmdSize]
    return true
  else return false

/-! ### Committing -/

/-- `FIFOCommit`. -/
def fifoCommit (bytes : ℕ) : FifoM Unit := modify fun c =>
  let dev := c.dev.fifoCommit bytes
  if c.dev.fifoCommitRefused bytes || bytes = 0 then { c with dev := dev }
  else
    { c with
      dev := dev
      log := c.log ++ [⟨c.dev.fifoNextCmd, dev.fifoNextCmd, contents c.written bytes⟩] }

/-- `FIFOCommitAll`. -/
def fifoCommitAll : FifoM Unit := do
  let c ← get
  fifoCommit c.dev.reservedSize

/-- A command of type `type` with the given arguments. -/
def emitCmd (type : ℕ) (args : List FifoWord) : FifoM Bool := do
  if ← fifoReserveCmd type (4 * args.length) then
    store 1 args
    fifoCommitAll
    return true
  else return false

/-- A command of SVGA3D with the given arguments. -/
def emit3D (cmd : ℕ) (args : List FifoWord) : FifoM Bool := do
  if ← fifoReserve3D cmd (4 * args.length) then
    store 2 args
    fifoCommitAll
    return true
  else return false

/-- An escape of a namespace with the given data. -/
def emitEscape (nsid : ℕ) (args : List FifoWord) : FifoM Bool := do
  if ← fifoReserveEscape nsid (4 * args.length) then
    store 3 args
    fifoCommitAll
    return true
  else return false

/-- `SVGA_CMD_FENCE`. -/
def svgaCmdFence : ℕ := 30

/-- `InsertFence`. -/
def insertFence : FifoM ℕ := do
  let c ← get
  if !c.hasFence then return 1
  else
    let fence := if c.nextFence = 0 then 1 else c.nextFence
    modify fun c => { c with nextFence := add32 fence 1 }
    if ← fifoReserve 8 then
      store 0 [word svgaCmdFence, word fence]
      fifoCommitAll
      return fence
    else return 0

/-! ### What is left open -/

/-- The commits of `log` take `NEXT_CMD` from `a` to `b`, and nothing else changes it. -/
def Chain (a : ℕ) : List FifoCommit → ℕ → Prop
  | [], b => a = b
  | e :: es, b => a = e.before ∧ Chain e.after es b

/-- A commit at the end of a chain. -/
theorem Chain.append {a b : ℕ} {es : List FifoCommit} (h : Chain a es b) (e : FifoCommit)
    (he : b = e.before) : Chain a (es ++ [e]) e.after := by
  induction es generalizing a with
  | nil => exact ⟨h.trans he, rfl⟩
  | cons x es ih => exact ⟨h.1, ih h.2⟩

/-- A command of `bytes` bytes that passes the size checks of `FIFOReserve` is shorter than the
ring. One word of the ring is always free, so a command as long as the ring never fits. -/
def SVGADevice.Fits (d : SVGADevice) (bytes : ℕ) : Prop :=
  bytes ≤ bounceBufferSize → bytes % 4 = 0 → bytes ≠ d.fifoMax - d.fifoMin

instance (d : SVGADevice) (bytes : ℕ) : Decidable (d.Fits bytes) :=
  inferInstanceAs (Decidable (_ → _ → _))

/-- How often the device will be seen to have caught up. -/
instance : Credit CommandFifo where
  credit c := c.looks.count .caughtUp

/-- The ring of the FIFO. -/
structure RingBounds (d : SVGADevice) : Prop where
  min_lt : d.fifoMin < d.fifoMax
  max_lt : d.fifoMax < 2 ^ 32
  next_lt : d.fifoNextCmd < 2 ^ 32
  next_max : d.reservable = true → d.fifoNextCmd < d.fifoMax

/-- Since `c₀`, `NEXT_CMD` has moved by the logged commands only. -/
def Since (c₀ c : CommandFifo) : Prop :=
  ∃ new, c.log = c₀.log ++ new ∧ Chain c₀.dev.fifoNextCmd new c.dev.fifoNextCmd

/-- What holds at every moment since `c₀`. -/
structure Kept (c₀ c : CommandFifo) : Prop where
  bounds : RingBounds c.dev
  /-- The limits of the ring have not changed. -/
  ring : c.dev.fifoMin = c₀.dev.fifoMin ∧ c.dev.fifoMax = c₀.dev.fifoMax
  since : Since c₀ c
  cursor : c.cursorPtr = c₀.cursorPtr
  blocked : c.blocked = c₀.blocked

/-- No reservation is open. -/
structure Closed (c₀ c : CommandFifo) : Prop extends Kept c₀ c where
  reserved : c.dev.reservedSize = 0

/-- A reservation of `bytes` bytes is open. -/
structure Opened (c₀ : CommandFifo) (bytes : ℕ) (c : CommandFifo) : Prop extends Kept c₀ c where
  reserved : c.dev.reservedSize = bytes
  aligned : bytes % 4 = 0
  le : bytes ≤ c.dev.fifoMax - c.dev.fifoMin
  bounce : 4 < bytes → c.dev.reservable = true ∨ c.dev.usingBounceBuffer = true

/-- A program that leaves nothing open, when no cursor is being defined at its start, and that
reserves room for commands of the given sizes at most. If these fit, it comes to its end when
the device catches up once for each of them. -/
def Closes {α : Type} (sizes : List ℕ) (m : FifoM α) : Prop :=
  ∀ c₀ : CommandFifo, c₀.cursorPtr = false →
    Triple (∀ bytes ∈ sizes, c₀.dev.Fits bytes) sizes.length (Closed c₀) m fun _ => Closed c₀

/-- Nothing has happened since. -/
theorem Since.refl (c : CommandFifo) : Since c c := ⟨[], (List.append_nil _).symm, rfl⟩

/-- The loop of `FIFOReserve` changes the positions and flags of the reservation only. -/
theorem reserveLoop_eq_some {nextCmd bytes : ℕ} {looks looks' : List StopRead}
    {d d' : SVGADevice} (h : reserveLoop d nextCmd bytes looks = some (d', looks')) :
    ∃ stop bounce reserved, d' = { d with
        fifoStop := stop
        usingBounceBuffer := bounce
        fifoReserved := reserved } ∧
      (4 < bytes → d.reservable = true ∨ bounce = true) := by
  induction looks generalizing d with
  | nil => cases h
  | cons look looks ih =>
      simp only [reserveLoop] at h
      split at h
      · rename_i hiter
        cases h
        obtain ⟨bounce, reserved, rfl, -, -, hbounce⟩ := SVGADevice.fifoReserveIter_eq_some hiter
        exact ⟨look.value d.fifoNextCmd, bounce, reserved, rfl, hbounce⟩
      · obtain ⟨stop', bounce, reserved, rfl, hbounce⟩ := ih h
        exact ⟨stop', bounce, reserved, rfl, hbounce⟩

/-- A device that has caught up has room for every command that is shorter than the ring. -/
theorem fifoReserveIter_caughtUp {d : SVGADevice} {bytes : ℕ} (hd : RingBounds d)
    (hless : bytes < d.fifoMax - d.fifoMin) :
    ({ d with fifoStop := d.fifoNextCmd }.fifoReserveIter d.fifoNextCmd bytes).isSome = true := by
  obtain ⟨hmin, hmax, hnext, -⟩ := hd
  -- the free space comes to the whole ring, wherever `NEXT_CMD` is
  have hfree : add32 (sub32 d.fifoMax d.fifoNextCmd) (sub32 d.fifoNextCmd d.fifoMin) =
      d.fifoMax - d.fifoMin := by
    rw [add32]
    rcases sub32_cases hmax hnext with ⟨hle, h⟩ | ⟨hlt, h⟩ <;>
      rcases sub32_cases hnext (hmin.trans hmax) with ⟨hle', h'⟩ | ⟨hlt', h'⟩ <;>
      rw [h, h'] <;> omega
  simp only [SVGADevice.fifoReserveIter, SVGADevice.placement, hfree, if_neg (not_le.mpr hless),
    ge_iff_le, le_refl, if_true]
  split_ifs <;> rfl

/-- The loop goes on at the latest when the device has caught up. -/
theorem reserveLoop_spent {d : SVGADevice} {bytes : ℕ} (hd : RingBounds d)
    (hless : bytes < d.fifoMax - d.fifoMin) (looks : List StopRead) :
    (∀ d' looks', reserveLoop d d.fifoNextCmd bytes looks = some (d', looks') →
      looks.count .caughtUp ≤ looks'.count .caughtUp + 1) ∧
    (reserveLoop d d.fifoNextCmd bytes looks = none → looks.count .caughtUp = 0) := by
  induction looks generalizing d with
  | nil => exact ⟨fun d' looks' h => (by cases h), fun _ => rfl⟩
  | cons look looks ih =>
      simp only [reserveLoop]
      split
      · refine ⟨fun d' looks' h => ?_, fun h => by cases h⟩
        cases h
        rw [List.count_cons]
        split <;> omega
      · rename_i hiter
        cases look with
        | offset stop =>
            rw [List.count_cons_of_ne (by rintro ⟨⟩)]
            exact ih (d := { d with fifoStop := stop }) ⟨hd.1, hd.2, hd.3, hd.4⟩ hless
        | caughtUp =>
            have hsome := fifoReserveIter_caughtUp hd hless
            rw [StopRead.value] at hiter
            rw [hiter] at hsome
            cases hsome

variable {c₀ : CommandFifo}

/-- What `FIFOReserve` does. -/
theorem fifoReserve_cases (c : CommandFifo) (bytes : ℕ) :
    c.dev.fifoReserveRefused bytes = true ∧ (fifoReserve bytes).run c = some (false,
      { c with blocked := if c.dev.reservedSize = 0 then c.blocked else c.blocked + 1 }) ∨
    c.dev.fifoReserveRefused bytes = false ∧ (fifoReserve bytes).run c =
      (reserveLoop { c.dev with reservedSize := bytes } c.dev.fifoNextCmd bytes c.looks).map
        fun p => (true, { c with dev := p.1, looks := p.2, written := fun _ => none }) := by
  simp only [StateT.run, fifoReserve]
  split
  · exact .inl ⟨‹_›, rfl⟩
  · rename_i haccepted
    refine .inr ⟨by simpa using haccepted, ?_⟩
    split
    · rename_i hloop
      rw [hloop]
      rfl
    · rename_i hloop
      rw [hloop]
      rfl

/-- The limits of an accepted reservation. -/
theorem fifoReserve_accepted {d : SVGADevice} {bytes : ℕ} (hd : RingBounds d)
    (h : d.fifoReserveRefused bytes = false) : bytes ≤ bounceBufferSize ∧
      bytes ≤ d.fifoMax - d.fifoMin ∧ bytes % 4 = 0 ∧ d.reservedSize = 0 := by
  have hmin := hd.min_lt
  simp only [SVGADevice.fifoReserveRefused, Bool.or_eq_false_iff, decide_eq_false_iff_not,
    not_lt, not_not, gt_iff_lt, ne_eq] at h
  rw [sub32_of_le (by omega) hd.max_lt] at h
  exact ⟨h.1.1.1, h.1.1.2, h.1.2, h.2⟩

/-- An accepted command that fits is shorter than the ring. -/
theorem Closed.lt_ring {c : CommandFifo} {bytes : ℕ} (hc : Closed c₀ c)
    (hfits : c₀.dev.Fits bytes) (haccepted : c.dev.fifoReserveRefused bytes = false) :
    bytes < c.dev.fifoMax - c.dev.fifoMin := by
  obtain ⟨hsmall, hle, haligned, -⟩ := fifoReserve_accepted hc.bounds haccepted
  refine hle.lt_of_ne ?_
  rw [hc.ring.1, hc.ring.2]
  exact hfits hsmall haligned

/-- `FIFOReserve` opens a reservation, or is refused. -/
theorem fifoReserve_triple (c₀ : CommandFifo) (bytes : ℕ) :
    Triple (c₀.dev.Fits bytes) 1 (Closed c₀) (fifoReserve bytes)
      fun ok c => if ok then Opened c₀ bytes c else Closed c₀ c where
  post c ok t hc hrun := by
    rcases fifoReserve_cases c bytes with ⟨-, heq⟩ | ⟨haccepted, heq⟩
    · cases heq.symm.trans hrun
      have hblocked := hc.blocked
      exact ⟨⟨hc.bounds, hc.ring, hc.since, hc.cursor,
        by rw [if_pos hc.reserved]; exact hblocked⟩, hc.reserved⟩
    · rw [heq, Option.map_eq_some_iff] at hrun
      obtain ⟨⟨d, looks⟩, hloop, hrun⟩ := hrun
      cases hrun
      obtain ⟨stop, bounce, reserved, rfl, hbounce⟩ := reserveLoop_eq_some hloop
      obtain ⟨-, hle, haligned, -⟩ := fifoReserve_accepted hc.bounds haccepted
      obtain ⟨hmin, hmax, hnext, hreservable⟩ := hc.bounds
      exact ⟨⟨⟨hmin, hmax, hnext, hreservable⟩, hc.ring, hc.since, hc.cursor, hc.blocked⟩, rfl,
        haligned, hle, hbounce⟩
  spent hfits c ok t hc hrun := by
    rcases fifoReserve_cases c bytes with ⟨-, heq⟩ | ⟨haccepted, heq⟩
    · cases heq.symm.trans hrun
      exact Nat.le_succ _
    · rw [heq, Option.map_eq_some_iff] at hrun
      obtain ⟨⟨d, looks⟩, hloop, hrun⟩ := hrun
      cases hrun
      obtain ⟨hmin, hmax, hnext, hreservable⟩ := hc.bounds
      exact (reserveLoop_spent (d := { c.dev with reservedSize := bytes })
        ⟨hmin, hmax, hnext, hreservable⟩ (hc.lt_ring hfits haccepted) c.looks).1 _ _ hloop
  waits hfits c hc hrun := by
    rcases fifoReserve_cases c bytes with ⟨-, heq⟩ | ⟨haccepted, heq⟩
    · cases heq.symm.trans hrun
    · rw [heq, Option.map_eq_none_iff] at hrun
      obtain ⟨hmin, hmax, hnext, hreservable⟩ := hc.bounds
      have hzero := (reserveLoop_spent (d := { c.dev with reservedSize := bytes })
        ⟨hmin, hmax, hnext, hreservable⟩ (hc.lt_ring hfits haccepted) c.looks).2 hrun
      exact Nat.lt_one_iff.mpr hzero

/-- Storing words touches the FIFO's memory or the bounce buffer only. -/
theorem storeWords_eq (c : CommandFifo) (i : ℕ) (ws : List FifoWord) :
    ∃ fifo bounceBuffer written, c.storeWords i ws = { c with
      dev := { c.dev with fifo := fifo, bounceBuffer := bounceBuffer }
      written := written } := by
  induction ws generalizing c i with
  | nil => exact ⟨_, _, _, rfl⟩
  | cons v ws ih =>
      obtain ⟨fifo, bounceBuffer, written, heq⟩ := ih (c.storeWord i v) (i + 1)
      rw [CommandFifo.storeWords, heq, CommandFifo.storeWord, SVGADevice.fillWord]
      split
      · exact ⟨_, _, _, rfl⟩
      · exact ⟨_, _, _, rfl⟩

/-- Storing words leaves the reservation open. -/
theorem store_triple (c₀ : CommandFifo) (n bytes i : ℕ) (ws : List FifoWord) :
    Triple True n (Opened c₀ bytes) (store i ws) fun _ => Opened c₀ bytes := by
  refine .modify (fun c _ => ?_) fun c hc => ?_
  all_goals
    obtain ⟨fifo, bounceBuffer, written, heq⟩ := storeWords_eq c i ws
    rw [heq]
  · rfl
  · obtain ⟨hmin, hmax, hnext, hreservable⟩ := hc.bounds
    exact ⟨⟨⟨hmin, hmax, hnext, hreservable⟩, hc.ring, hc.since, hc.cursor, hc.blocked⟩,
      hc.reserved, hc.aligned, hc.le, hc.bounce⟩

/-- `NEXT_CMD` stays below `MAX`. -/
theorem SVGADevice.nextCommand_lt {d : SVGADevice} {nextCmd bytes : ℕ}
    (hmin : d.fifoMin < d.fifoMax)
    (hmax : d.fifoMax < 2 ^ 32) (hnext : nextCmd < d.fifoMax)
    (hle : bytes ≤ d.fifoMax - d.fifoMin) : d.nextCommand nextCmd bytes < d.fifoMax := by
  simp only [SVGADevice.nextCommand]
  rw [sub32_of_le (b := d.fifoMin) (by omega) hmax]
  have hadd : add32 nextCmd bytes ≤ nextCmd + bytes := Nat.mod_le _ _
  have hlt : add32 nextCmd bytes < 2 ^ 32 := Nat.mod_lt _ (by decide)
  split
  · rw [sub32_of_le (by omega) hlt]
    omega
  · omega

/-- A command without words leaves `NEXT_CMD` where it is. -/
theorem SVGADevice.nextCommand_zero {d : SVGADevice} {nextCmd : ℕ} (hmax : d.fifoMax < 2 ^ 32)
    (hnext : nextCmd < d.fifoMax) : d.nextCommand nextCmd 0 = nextCmd := by
  simp only [SVGADevice.nextCommand]
  rw [add32_of_lt (by omega), if_neg (by omega), Nat.add_zero]

/-- `NEXT_CMD` is a 32-bit number. -/
theorem SVGADevice.nextCommand_lt_word (d : SVGADevice) (nextCmd bytes : ℕ) :
    d.nextCommand nextCmd bytes < 2 ^ 32 := by
  simp only [SVGADevice.nextCommand]
  split
  · exact sub32_lt _ _
  · exact Nat.mod_lt _ (by decide)

/-- `NEXT_CMD` is a 32-bit number behind every word of a copy, too. -/
theorem SVGADevice.nextWord_lt {d : SVGADevice} (hmin : d.fifoMin < 2 ^ 32) (nextCmd : ℕ) :
    d.nextWord nextCmd < 2 ^ 32 := by
  simp only [SVGADevice.nextWord]
  split
  · exact hmin
  · exact Nat.mod_lt _ (by decide)

/-- The word-by-word copy leaves the limits of the ring alone. -/
theorem SVGADevice.fifoCommitWords_eq (d : SVGADevice) (nextCmd dword n : ℕ) :
    ∃ fifo next, (d.fifoMin < 2 ^ 32 → d.fifoNextCmd < 2 ^ 32 → next < 2 ^ 32) ∧
      d.fifoCommitWords nextCmd dword n = { d with fifo := fifo, fifoNextCmd := next } := by
  induction n generalizing d nextCmd dword with
  | zero => exact ⟨_, _, fun _ hnext => hnext, rfl⟩
  | succ n ih =>
      obtain ⟨fifo, next, hlt, heq⟩ :=
        ih (d.fifoCommitWord nextCmd dword) (d.nextWord nextCmd) (dword + 1)
      exact ⟨fifo, next, fun hmin _ => hlt hmin (nextWord_lt hmin nextCmd), heq⟩

/-- What an accepted `FIFOCommit` does: it moves `NEXT_CMD` over the command at once, or copies
the command out of the bounce buffer word by word. -/
theorem SVGADevice.fifoCommit_cases {d : SVGADevice} {bytes : ℕ} (hreserved : d.reservedSize ≠ 0)
    (haligned : bytes % 4 = 0) :
    (d.reservable = true ∨ d.usingBounceBuffer = false) ∧
      (∃ fifo reserved, d.fifoCommit bytes = { d with
        reservedSize := 0
        fifo := fifo
        fifoReserved := reserved
        fifoNextCmd := d.nextCommand d.fifoNextCmd bytes }) ∨
      d.reservable = false ∧ d.usingBounceBuffer = true ∧ d.fifoCommit bytes =
        { d with reservedSize := 0 }.fifoCommitWords d.fifoNextCmd 0 (bytes / 4) := by
  have haccept : ¬d.fifoCommitRefused bytes = true := by
    simp [SVGADevice.fifoCommitRefused, haligned, hreserved]
  rw [SVGADevice.fifoCommit, if_neg haccept]
  by_cases hbounce : d.usingBounceBuffer = true
  · simp only [if_pos hbounce]
    by_cases hres : d.reservable = true
    · rw [if_pos hres]
      exact .inl ⟨.inl hres, _, _, rfl⟩
    · rw [if_neg hres]
      exact .inr ⟨by simpa using hres, hbounce, rfl⟩
  · simp only [if_neg hbounce]
    exact .inl ⟨.inr (by simpa using hbounce), _, _, rfl⟩

/-- `FIFOCommit` closes the reservation and leaves the limits of the ring alone. -/
theorem fifoCommit_bounds {d : SVGADevice} {bytes : ℕ} (hd : RingBounds d)
    (hreserved : d.reservedSize ≠ 0) (haligned : bytes % 4 = 0)
    (hle : bytes ≤ d.fifoMax - d.fifoMin) :
    (d.fifoCommit bytes).reservedSize = 0 ∧ RingBounds (d.fifoCommit bytes) ∧
      (d.fifoCommit bytes).fifoMin = d.fifoMin ∧ (d.fifoCommit bytes).fifoMax = d.fifoMax := by
  obtain ⟨hmin, hmax, hnext, hreservable⟩ := hd
  rcases SVGADevice.fifoCommit_cases hreserved haligned with
    ⟨-, fifo, reserved, heq⟩ | ⟨hres, -, heq⟩
  · rw [heq]
    exact ⟨rfl, ⟨hmin, hmax, SVGADevice.nextCommand_lt_word d _ _, fun hres =>
      SVGADevice.nextCommand_lt hmin hmax (hreservable hres) hle⟩, rfl, rfl⟩
  · obtain ⟨fifo, next, hlt, hwords⟩ :=
      SVGADevice.fifoCommitWords_eq { d with reservedSize := 0 } d.fifoNextCmd 0 (bytes / 4)
    rw [heq, hwords]
    exact ⟨rfl, ⟨hmin, hmax, hlt (hmin.trans hmax) hnext,
      fun h => absurd (hres.symm.trans h) (by decide)⟩, rfl, rfl⟩

/-- `FIFOCommit(0)` leaves `NEXT_CMD` alone. -/
theorem fifoCommit_zero {d : SVGADevice} (hd : RingBounds d) (hreserved : d.reservedSize ≠ 0)
    (hbounce : d.reservable = true ∨ d.usingBounceBuffer = true) :
    (d.fifoCommit 0).fifoNextCmd = d.fifoNextCmd := by
  rcases SVGADevice.fifoCommit_cases hreserved (Nat.zero_mod 4) with
    ⟨hplace, fifo, reserved, heq⟩ | ⟨-, -, heq⟩
  · have hres : d.reservable = true := by
      rcases hplace with hres | hplace
      · exact hres
      · exact hbounce.resolve_right (by rw [hplace]; decide)
    rw [heq]
    exact SVGADevice.nextCommand_zero hd.max_lt (hd.next_max hres)
  · rw [heq]
    rfl

/-- The log grows by the command. -/
theorem Since.commit {c d : CommandFifo} (h : Since c₀ c) {words : List FifoWord}
    (hlog : d.log = c.log ++ [⟨c.dev.fifoNextCmd, d.dev.fifoNextCmd, words⟩]) : Since c₀ d := by
  obtain ⟨new, hnew, hchain⟩ := h
  refine ⟨new ++ [⟨c.dev.fifoNextCmd, d.dev.fifoNextCmd, words⟩], ?_, ?_⟩
  · rw [hlog, hnew, List.append_assoc]
  · exact hchain.append ⟨c.dev.fifoNextCmd, d.dev.fifoNextCmd, words⟩ rfl

/-- What `FIFOCommit` of a reservation does, in whole or with nothing. -/
theorem fifoCommit_opened {c : CommandFifo} {bytes : ℕ} (hpos : 0 < bytes) (hc : Opened c₀ bytes c)
    {n : ℕ} (hn : n = bytes ∨ n = 0) :
    c.dev.fifoCommitRefused n = false ∧ (c.dev.fifoCommit n).reservedSize = 0 ∧
      RingBounds (c.dev.fifoCommit n) ∧ (c.dev.fifoCommit n).fifoMin = c₀.dev.fifoMin ∧
      (c.dev.fifoCommit n).fifoMax = c₀.dev.fifoMax := by
  have hne : c.dev.reservedSize ≠ 0 := by
    rw [hc.reserved]
    omega
  have hbytes := hc.aligned
  have haligned : n % 4 = 0 := by omega
  have hle : n ≤ c.dev.fifoMax - c.dev.fifoMin := by
    have := hc.le
    omega
  obtain ⟨hclosed, hbounds, hmin, hmax⟩ := fifoCommit_bounds hc.bounds hne haligned hle
  refine ⟨?_, hclosed, hbounds, hmin.trans hc.ring.1, hmax.trans hc.ring.2⟩
  simp [SVGADevice.fifoCommitRefused, haligned, hne]

/-- `FIFOCommit` of the whole reservation closes it. -/
theorem fifoCommit_triple (c₀ : CommandFifo) (n : ℕ) {bytes : ℕ} (hpos : 0 < bytes) :
    Triple True n (Opened c₀ bytes) (fifoCommit bytes) fun _ => Closed c₀ := by
  refine .modify (fun c hc => ?_) fun c hc => ?_
  all_goals
    obtain ⟨haccept, hclosed, hbounds, hring⟩ := fifoCommit_opened hpos hc (.inl rfl)
    have hne : decide (bytes = 0) = false := decide_eq_false (by omega)
    simp only [haccept, hne, Bool.or_self, Bool.false_eq_true, if_false]
  · rfl
  · exact ⟨⟨hbounds, hring, hc.since.commit rfl, hc.cursor, hc.blocked⟩, hclosed⟩

/-- `FIFOCommitAll` closes the reservation. -/
theorem fifoCommitAll_triple (c₀ : CommandFifo) (n : ℕ) {bytes : ℕ} (hpos : 0 < bytes) :
    Triple True n (Opened c₀ bytes) fifoCommitAll fun _ => Closed c₀ := by
  have hcommit := fifoCommit_triple c₀ n hpos
  have heq : ∀ c, Opened c₀ bytes c → fifoCommitAll.run c = (fifoCommit bytes).run c := by
    intro c hc
    change (fifoCommit c.dev.reservedSize).run c = _
    rw [hc.reserved]
  exact ⟨fun c u t hc hrun => hcommit.post c u t hc (heq c hc ▸ hrun),
    fun h c u t hc hrun => hcommit.spent h c u t hc (heq c hc ▸ hrun),
    fun h c hc hrun => hcommit.waits h c hc (heq c hc ▸ hrun)⟩

/-- `FIFOCommit(0)` takes the reservation back. -/
theorem fifoCommit_abort_triple (c₀ : CommandFifo) (n : ℕ) {bytes : ℕ} (hlarge : 4 < bytes) :
    Triple True n (Opened c₀ bytes) (fifoCommit 0) fun _ => Closed c₀ := by
  refine .modify (fun c hc => ?_) fun c hc => ?_
  all_goals
    obtain ⟨haccept, hclosed, hbounds, hring⟩ := fifoCommit_opened (by omega) hc (.inr rfl)
    simp only [decide_true, Bool.or_true, if_true]
  · rfl
  · have hne : c.dev.reservedSize ≠ 0 := by
      rw [hc.reserved]
      omega
    obtain ⟨new, hnew, hchain⟩ := hc.since
    have hnext := fifoCommit_zero hc.bounds hne (hc.bounce hlarge)
    exact ⟨⟨hbounds, hring, ⟨new, hnew, hnext ▸ hchain⟩, hc.cursor, hc.blocked⟩, hclosed⟩

/-! ### Whole commands -/

/-- A program that opens a reservation, or is refused. -/
def Opens (bytes : ℕ) (m : FifoM Bool) : Prop :=
  ∀ c₀ : CommandFifo, Triple (c₀.dev.Fits bytes) 1 (Closed c₀) m
    fun ok c => if ok then Opened c₀ bytes c else Closed c₀ c

/-- A reservation whose first words are stored. -/
theorem Opens.header {bytes : ℕ} {m : FifoM Bool} (hm : Opens bytes m) (i : ℕ)
    (ws : List FifoWord) : Opens bytes (do
      if ← m then
        store i ws
        return true
      else return false) := by
  intro c₀
  have hstore : Triple True 0 (Opened c₀ bytes) (do store i ws; return true) fun ok c =>
      if ok then Opened c₀ bytes c else Closed c₀ c :=
    (store_triple c₀ 0 bytes i ws).bind (n := 0) (fun _ => .pure fun c hc => hc)
      fun h => ⟨h, trivial⟩
  exact (hm c₀).bindBool hstore (.pure fun c hc => hc) fun h => ⟨h, trivial⟩

/-- `FIFOReserveCmd` reserves its header, too. -/
theorem fifoReserveCmd_opens (type bytes : ℕ) : Opens (bytes + 4) (fifoReserveCmd type bytes) :=
  Opens.header (fun c₀ => fifoReserve_triple c₀ (bytes + 4)) 0 _

/-- `FIFOReserveEscape` reserves its header and whole words. -/
theorem fifoReserveEscape_opens (nsid bytes : ℕ) :
    Opens ((bytes + 3) / 4 * 4 + 12) (fifoReserveEscape nsid bytes) :=
  Opens.header (fun c₀ => fifoReserve_triple c₀ _) 0 _

/-- `SVGA3D::FIFOReserve` reserves a header of two words, too. -/
theorem fifoReserve3D_opens (cmd cmdSize : ℕ) : Opens (8 + cmdSize) (fifoReserve3D cmd cmdSize) :=
  Opens.header (fun c₀ => fifoReserve_triple c₀ (8 + cmdSize)) 0 _

/-- A program that stores words in an open reservation. -/
def Fills (fill : FifoM Unit) : Prop :=
  ∀ c₀ bytes, Triple True 0 (Opened c₀ bytes) fill fun _ => Opened c₀ bytes

/-- Storing words at once. -/
theorem store_fills (i : ℕ) (ws : List FifoWord) : Fills (store i ws) :=
  fun c₀ bytes => store_triple c₀ 0 bytes i ws

namespace Closes

variable {α β : Type} {k n : List ℕ} {m : FifoM α}

/-- A value without a program. -/
theorem pure (a : α) : Closes n (pure a) := fun _ _ => .pure fun _ hc => hc

/-- A change of fields that nothing about reservations depends on. -/
theorem modify {f : CommandFifo → CommandFifo} (hdev : ∀ c, (f c).dev = c.dev)
    (hlooks : ∀ c, (f c).looks = c.looks) (hlog : ∀ c, (f c).log = c.log)
    (hcursor : ∀ c, (f c).cursorPtr = c.cursorPtr) (hblocked : ∀ c, (f c).blocked = c.blocked) :
    Closes n (modify f) := by
  refine fun c₀ _ => .modify (fun c _ => congrArg (List.count .caughtUp) (hlooks c)) fun c hc => ?_
  obtain ⟨⟨hbounds, hring, ⟨new, hnew, hchain⟩, hc₁, hc₂⟩, hreserved⟩ := hc
  refine ⟨⟨?_, ?_, ⟨new, (hlog c).trans hnew, ?_⟩, (hcursor c).trans hc₁,
    (hblocked c).trans hc₂⟩, ?_⟩
  all_goals
    rw [hdev c]
    assumption

/-- A program after another reserves room for the commands of both. -/
theorem bind {f : α → FifoM β} (hm : Closes k m) (hf : ∀ a, Closes n (f a)) :
    Closes (k ++ n) (m >>= f) := by
  intro c₀ hc₀
  rw [List.length_append]
  exact (hm c₀ hc₀).bind (fun a => hf a c₀ hc₀) List.forall_mem_append.mp

/-- A program after another that reserves nothing more. -/
theorem bindNil {f : α → FifoM β} (hm : Closes k m) (hf : ∀ a, Closes [] (f a)) :
    Closes k (m >>= f) := by
  have hbind := hm.bind hf
  rwa [List.append_nil] at hbind

/-- A program that only looks at the state before it goes on. -/
theorem getBind {f : CommandFifo → FifoM β} (hf : ∀ c, Closes n (f c)) :
    Closes n (get >>= f) := by
  have hget : Closes [] (get : FifoM CommandFifo) := fun c₀ _ => .get fun c hc => hc
  exact hget.bind hf

/-- A branch with the same commands on both sides. -/
theorem ite {p : Prop} [Decidable p] {yes no : FifoM α} (hyes : p → Closes n yes)
    (hno : ¬p → Closes n no) : Closes n (if p then yes else no) := by
  split
  · exact hyes ‹_›
  · exact hno ‹_›

/-- A branch whose sides have their own commands. -/
theorem branch {p : Prop} [Decidable p] {yes no : FifoM α} (hyes : Closes k yes)
    (hno : Closes n no) : Closes (if p then k else n) (if p then yes else no) := by
  split
  · exact hyes
  · exact hno

/-- A loop reserves room for the commands of its turns. -/
theorem forM {ι : Type} {f : ι → FifoM Unit} {s : ι → List ℕ} (hf : ∀ i, Closes (s i) (f i))
    (l : List ι) : Closes (l.flatMap s) (l.forM f) := by
  intro c₀ hc₀
  rw [List.length_flatMap]
  refine (Triple.forM (fun i => hf i c₀ hc₀) l).weaken (fun h i hi bytes hbytes => ?_) le_rfl
  exact h bytes (List.mem_flatMap.mpr ⟨i, hi, hbytes⟩)

/-- A program whose result is not used. -/
theorem void (hm : Closes n m) (b : β) : Closes n (m >>= fun _ => Pure.pure b) :=
  hm.bindNil fun _ => pure b

end Closes

/-- A reservation that is filled, committed and followed by another program; or refused and
followed by one. -/
theorem Opens.completeWith {α : Type} {bytes : ℕ} {n : List ℕ} {m : FifoM Bool}
    (hm : Opens bytes m) (hpos : 0 < bytes) {fill : FifoM Unit} (hfill : Fills fill)
    {next other : FifoM α} (hnext : Closes n next) (hother : Closes n other) :
    Closes (bytes :: n) (do
      if ← m then
        fill
        fifoCommitAll
        next
      else other) := by
  intro c₀ hc₀
  rw [List.length_cons, Nat.add_comm]
  refine (hm c₀).bindBool ?_ (hother c₀ hc₀) List.forall_mem_cons.mp
  have hcommit := (fifoCommitAll_triple c₀ 0 hpos).bind (fun _ => hnext c₀ hc₀)
    fun h => ⟨trivial, h⟩
  rw [Nat.zero_add] at hcommit
  have hrest := (hfill c₀ bytes).bind (fun _ => hcommit) fun h => ⟨trivial, h⟩
  rwa [Nat.zero_add] at hrest

/-- `Opens.completeWith` for words that are stored at once. -/
theorem Opens.complete {α : Type} {bytes : ℕ} {n : List ℕ} {m : FifoM Bool} (hm : Opens bytes m)
    (hpos : 0 < bytes) (i : ℕ) (args : List FifoWord) {next other : FifoM α}
    (hnext : Closes n next) (hother : Closes n other) : Closes (bytes :: n) (do
      if ← m then
        store i args
        fifoCommitAll
        next
      else other) :=
  hm.completeWith hpos (store_fills i args) hnext hother

/-- A command that is filled and committed leaves nothing open, nor does a refused one. -/
theorem Opens.emit {bytes : ℕ} {m : FifoM Bool} (hm : Opens bytes m) (hpos : 0 < bytes) (i : ℕ)
    (args : List FifoWord) : Closes [bytes] (do
      if ← m then
        store i args
        fifoCommitAll
        return true
      else return false) :=
  hm.complete hpos i args (.pure true) (.pure false)

/-- A command of the device takes a word for its type. -/
theorem emitCmd_closes (type : ℕ) (args : List FifoWord) {bytes : ℕ}
    (hbytes : 4 * args.length + 4 = bytes) : Closes [bytes] (emitCmd type args) := by
  subst hbytes
  exact (fifoReserveCmd_opens type _).emit (by omega) 1 args

/-- A command of SVGA3D takes two words for its type and its size. -/
theorem emit3D_closes (cmd : ℕ) (args : List FifoWord) {bytes : ℕ}
    (hbytes : 8 + 4 * args.length = bytes) : Closes [bytes] (emit3D cmd args) := by
  subst hbytes
  exact (fifoReserve3D_opens cmd _).emit (by omega) 2 args

/-- An escape takes three words for its header. -/
theorem emitEscape_closes (nsid : ℕ) (args : List FifoWord) {bytes : ℕ}
    (hbytes : (4 * args.length + 3) / 4 * 4 + 12 = bytes) :
    Closes [bytes] (emitEscape nsid args) := by
  subst hbytes
  exact (fifoReserveEscape_opens nsid _).emit (by omega) 3 args

/-- A fence is a command of two words, if the device has fences at all. -/
theorem insertFence_closes : Closes [8] insertFence := by
  refine .getBind fun c => .ite (fun _ => .pure 1) fun _ => ?_
  refine Closes.bind (k := []) (.modify (fun _ => rfl) (fun _ => rfl) (fun _ => rfl)
    (fun _ => rfl) fun _ => rfl) fun _ => ?_
  exact Opens.complete (fun c₀ => fifoReserve_triple c₀ 8) (by decide) 0 _ (.pure _) (.pure 0)

/-! ### An example -/

/-- A FIFO of a device without `SVGA_FIFO_CAP_RESERVE`, which has always caught up. -/
def exampleFifo (fifoSize : ℕ) : CommandFifo where
  dev := SVGADevice.fifoInit
    { fifoSize := fifoSize
      fifoMin := 0
      fifoMax := 0
      fifoNextCmd := 0
      fifoStop := 0
      fifoReserved := 0
      reservable := false
      fifo := fun _ => 0
      bounceBuffer := fun _ => 0
      usingBounceBuffer := false
      reservedSize := 0 }
  looks := List.replicate 8 .caughtUp
  hasFence := true
  nextFence := 1
  cursorPtr := false
  width := 1024
  height := 768
  presentTracker := .init 2
  primaryScreen := (0, 0)
  written := fun _ => none
  log := []
  blocked := 0

end DockerMacos
