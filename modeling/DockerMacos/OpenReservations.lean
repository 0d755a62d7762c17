import DockerMacos.AccelCommands
import DockerMacos.FifoProgress

/-!
# No Reservation Stays Open

A run calls one command method after another, of the device, of SVGA3D, of the screens and of
the accelerator, from the state that `FIFOInit` leaves. No method that returns leaves a
reservation open behind it, whatever its arguments are and whatever is refused. So `FIFOReserve`
never refuses a command because of an earlier one.

## Methods that do not return

A method returns when the device catches up with its commands, with one exception. A command
that is as long as the ring passes the checks of `FIFOReserve` (`FifoProgress`), and its method
waits for ever with the reservation open. A ring of more than 64 KiB has no such command, since
`FIFOReserve` refuses all that do not fit into the bounce buffer.

## The condition

`MethodCall.sizes` are the sizes of the commands that a call may reserve room for, from its
arguments alone, and `MethodCall.Fits` says of each that it is shorter than the ring or refused.
A run whose calls fit returns from every call, if the looks at the device are enough.

## Main results

* `Starts.closed`: `FIFOInit` leaves nothing open.
* `Closed.returns`: calls whose commands fit return one after the other.
* `no_open_reservation`: nor does any sequence of calls leave anything open.
* `no_open_reservation_hangs`: the call that does not return.
-/

namespace DockerMacos

/-- A call of a command method. -/
inductive MethodCall
  | device (m : DeviceMethod)
  | svga3D (m : Method3D)
  | screen (m : ScreenMethod)
  | accel (m : AccelMethod)

namespace MethodCall

def run (cfg : AccelConfig) : MethodCall → FifoM Unit
  | .device m => m.run
  | .svga3D m => m.run
  | .screen m => m.run
  | .accel m => m.run cfg

/-- The sizes of the commands that a call may reserve room for. -/
def sizes (cfg : AccelConfig) : MethodCall → List ℕ
  | .device m => m.sizes
  | .svga3D m => m.sizes
  | .screen m => m.sizes
  | .accel m => m.sizes cfg

/-- No call leaves a reservation open. -/
theorem closes (cfg : AccelConfig) (call : MethodCall) :
    Closes (call.sizes cfg) (call.run cfg) := by
  cases call with
  | device m => exact m.closes
  | svga3D m => exact m.closes
  | screen m => exact m.closes
  | accel m => exact m.closes cfg

/-- The step of a run: a call that returns. -/
def step (cfg : AccelConfig) (c : CommandFifo) (call : MethodCall) : Option CommandFifo :=
  ((call.run cfg).run c).map Prod.snd

/-- The commands of the call are shorter than the ring, or refused for their size. -/
def Fits (cfg : AccelConfig) (c : CommandFifo) (call : MethodCall) : Prop :=
  ∀ bytes ∈ call.sizes cfg, c.dev.Fits bytes

instance (cfg : AccelConfig) (c : CommandFifo) (call : MethodCall) :
    Decidable (call.Fits cfg c) := inferInstanceAs (Decidable (∀ bytes ∈ _, _))

end MethodCall

/-- The state behind `FIFOInit`. -/
structure Starts (c : CommandFifo) : Prop where
  init : ∃ d : SVGADevice, c.dev = d.fifoInit ∧ svgaFifoNumRegs * 4 < d.fifoSize ∧
    d.fifoSize < 2 ^ 32
  cursor : c.cursorPtr = false

/-- **Nothing is open**, and nothing has been since `c₀`. -/
structure NoneOpen (c₀ c : CommandFifo) : Prop where
  /-- `m_reserved_size` is 0. -/
  reserved : c.dev.reservedSize = 0
  /-- `NEXT_CMD` has been moved by committed commands only, not by refused or aborted ones. -/
  since : Since c₀ c
  /-- No reservation has been refused because another one was open. -/
  blocked : c.blocked = c₀.blocked
  /-- Nor will the next one: it is refused for its size only. -/
  refused : ∀ bytes, c.dev.fifoReserveRefused bytes = true ↔
    bytes > bounceBufferSize ∨ bytes > c.dev.fifoMax - c.dev.fifoMin ∨ bytes % 4 ≠ 0

/-- `FIFOInit` leaves no reservation open. -/
theorem Starts.closed {c : CommandFifo} (h : Starts c) : Closed c c := by
  obtain ⟨⟨d, hd, hsize, hmax⟩, -⟩ := h
  refine ⟨⟨?_, ⟨rfl, rfl⟩, Since.refl c, rfl, rfl⟩, by rw [hd]; rfl⟩
  rw [hd]
  exact ⟨hsize, hmax, hsize.trans hmax, fun _ => hsize⟩

/-- What the invariant says about the next reservation. -/
theorem Closed.noneOpen {c₀ c : CommandFifo} (h : Closed c₀ c) : NoneOpen c₀ c where
  reserved := h.reserved
  since := h.since
  blocked := h.blocked
  refused bytes := by
    have hmin := h.bounds.min_lt
    simp only [SVGADevice.fifoReserveRefused, h.reserved, Bool.or_eq_true, decide_eq_true_eq,
      sub32_of_le (Nat.le_of_lt hmin) h.bounds.max_lt]
    tauto

/-- A call that returns leaves nothing open. -/
theorem Closed.step {cfg : AccelConfig} {c₀ c d : CommandFifo} {call : MethodCall}
    (hc₀ : c₀.cursorPtr = false) (hc : Closed c₀ c) (hstep : MethodCall.step cfg c call = some d) :
    Closed c₀ d := by
  rw [MethodCall.step, Option.map_eq_some_iff] at hstep
  obtain ⟨⟨u, e⟩, hrun, rfl⟩ := hstep
  exact (call.closes cfg c₀ hc₀).post c u e hc hrun

/-- Calls whose commands fit return one after the other, from any state without an open
reservation, if the device catches up once for each command. -/
theorem Closed.returns {cfg : AccelConfig} {c₀ c : CommandFifo} (hc₀ : c₀.cursorPtr = false)
    (hc : Closed c₀ c) {calls : List MethodCall} (hfits : ∀ call ∈ calls, call.Fits cfg c₀)
    (hlooks : (calls.flatMap (MethodCall.sizes cfg)).length ≤ c.looks.count .caughtUp) :
    ∃ d, Run (MethodCall.step cfg) Always c calls d := by
  induction calls generalizing c with
  | nil => exact ⟨c, Run.nil c⟩
  | cons call calls ih =>
      rw [List.flatMap_cons, List.length_append] at hlooks
      obtain ⟨hcall, hcalls⟩ := List.forall_mem_cons.mp hfits
      have hcloses := call.closes cfg c₀ hc₀
      obtain ⟨u, d, hd, hclosed⟩ := hcloses.ends hcall hc (Nat.le_of_add_right_le hlooks)
      -- the call has taken no more than its own share of the looks
      have hspent : c.looks.count .caughtUp ≤
          d.looks.count .caughtUp + (call.sizes cfg).length := hcloses.spent hcall c u d hc hd
      obtain ⟨e, hrun⟩ := ih hclosed hcalls (by omega)
      exact ⟨e, Run.cons trivial (by rw [MethodCall.step, hd]; rfl) hrun⟩

/-- **No reservation is left open.** A sequence of calls whose commands are all shorter than the
ring, or refused for their size, returns from every call when the device catches up often
enough. And whatever the commands are, the calls that have returned leave the FIFO closed and
move `NEXT_CMD` only when they commit a command. -/
theorem no_open_reservation (cfg : AccelConfig) {c₀ : CommandFifo} (hstart : Starts c₀)
    (calls : List MethodCall) :
    ((∀ call ∈ calls, call.Fits cfg c₀) →
      (calls.flatMap (MethodCall.sizes cfg)).length ≤ c₀.looks.count .caughtUp →
      ∃ c, Run (MethodCall.step cfg) Always c₀ calls c) ∧
    ∀ c, Run (MethodCall.step cfg) Always c₀ calls c →
      NoneOpen c₀ c ∧ ∀ (call : MethodCall) (d : CommandFifo),
        MethodCall.step cfg c call = some d → d.log = c.log →
          d.dev.fifoNextCmd = c.dev.fifoNextCmd := by
  refine ⟨fun hfits hlooks => hstart.closed.returns hstart.cursor hfits hlooks,
    fun c hrun => ?_⟩
  have hc : Closed c₀ c :=
    hrun.invariant (fun c call d hc _ hstep => hc.step hstart.cursor hstep) hstart.closed
  refine ⟨hc.noneOpen, fun call d hstep hlog => ?_⟩
  -- seen from `c` itself, the call has committed nothing
  have hself : Closed c c := ⟨⟨hc.bounds, ⟨rfl, rfl⟩, Since.refl c, rfl, rfl⟩, hc.reserved⟩
  obtain ⟨new, hnew, hchain⟩ := (hself.step (hc.cursor.trans hstart.cursor) hstep).since
  obtain rfl : new = [] :=
    List.append_cancel_left (hnew.symm.trans (hlog.trans (List.append_nil _).symm))
  exact hchain.symm

/-! ### Examples -/

/-- An accelerator with everything. -/
def fullConfig : AccelConfig where
  haveSVGA3D := true
  haveScreenObject := true
  haveFramebuffer := true
  hasGMR2 := true
  maxGMRPages := 1024
  regionBoundsCopy := false

/-- A FIFO with any room behind its registers is one to start with. -/
theorem exampleFifo_starts {fifoSize : ℕ} (hlarge : svgaFifoNumRegs * 4 < fifoSize)
    (hlt : fifoSize < 2 ^ 32) : Starts (exampleFifo fifoSize) :=
  ⟨⟨_, rfl, hlarge, hlt⟩, rfl⟩

/-- A shader constant of a bad type, a shader of a bad length and a context. -/
theorem no_open_reservation_small : ∃ c,
    Run (MethodCall.step fullConfig) Always (exampleFifo 0x1000)
    [.svga3D (.setShaderConst 1 0 0 7 #v[0, 0, 0, 0]), .svga3D (.defineShader 1 0 0 [] 6),
      .accel (.createContext 5)] c ∧ NoneOpen (exampleFifo 0x1000) c := by
  have hstarts : Starts (exampleFifo 0x1000) := exampleFifo_starts (by decide) (by decide)
  obtain ⟨hreturns, hopen⟩ := no_open_reservation fullConfig hstarts
    [.svga3D (.setShaderConst 1 0 0 7 #v[0, 0, 0, 0]), .svga3D (.defineShader 1 0 0 [] 6),
      .accel (.createContext 5)]
  obtain ⟨c, hrun⟩ := hreturns (by decide) (by decide)
  exact ⟨c, hrun, (hopen c hrun).1⟩

/-- A FIFO of 64 KiB whose device is seen to have caught up `n` times. -/
def caughtUpFifo (n : ℕ) : CommandFifo :=
  { exampleFifo 0x10000 with looks := List.replicate n .caughtUp }

/-- Its ring and its `NEXT_CMD`. -/
theorem caughtUpFifo_inRing (n : ℕ) : (caughtUpFifo n).dev.InRing :=
  show (exampleFifo 0x10000).dev.InRing from ⟨by decide, by decide, by decide, by decide⟩

/-- A shader of 64352 bytes makes a command as long as the ring of this FIFO. It passes the
checks of `FIFOReserve`, and `DefineShader` never returns, however often the device has caught
up. -/
theorem no_open_reservation_hangs :
    (∀ n, Starts (caughtUpFifo n)) ∧
    (∀ n, (caughtUpFifo n).dev.fifoReserveRefused (8 + (12 + 64352)) = false) ∧
    ∀ n bytecode, MethodCall.step fullConfig (caughtUpFifo n)
      (.svga3D (.defineShader 1 0 0 bytecode 64352)) = none := by
  have haccepted : ∀ n, (caughtUpFifo n).dev.fifoReserveRefused (8 + (12 + 64352)) = false :=
    fun n => show (exampleFifo 0x10000).dev.fifoReserveRefused _ = false by decide
  refine ⟨fun n => ⟨⟨_, rfl, by decide, by decide⟩, rfl⟩, haccepted, fun n bytecode => ?_⟩
  have hring : 8 + (12 + 64352) = (caughtUpFifo n).dev.fifoMax - (caughtUpFifo n).dev.fifoMin :=
    show _ = (exampleFifo 0x10000).dev.fifoMax - (exampleFifo 0x10000).dev.fifoMin by decide
  have hnever : (fifoReserve (8 + (12 + 64352))).run (caughtUpFifo n) = none := by
    have hrefused := haccepted n
    rw [hring] at hrefused ⊢
    refine fifoReserve_never (caughtUpFifo_inRing n) hrefused fun look hlook => ?_
    rw [List.eq_of_mem_replicate hlook]
    exact ⟨(caughtUpFifo_inRing n).next_ge, (caughtUpFifo_inRing n).next_lt⟩
  have hreserve : (fifoReserve3D 1059 (12 + 64352)).run (caughtUpFifo n) = none := by
    rw [fifoReserve3D, StateT.run_bind, hnever]
    rfl
  have hshader : (SVGACommands.defineShader 1 0 0 bytecode 64352).run (caughtUpFifo n) = none := by
    rw [SVGACommands.defineShader, if_neg (by decide), StateT.run_bind, hreserve]
    rfl
  rw [MethodCall.step, MethodCall.run, Method3D.run, StateT.run_bind, hshader]
  rfl

end DockerMacos
