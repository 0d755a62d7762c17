import DockerMacos.Fifo
import DockerMacos.Run
import Mathlib.Data.Multiset.AddSub

/-!
# Ringing the Doorbell

After it has put commands into the FIFO the guest rings the doorbell (`RingDoorBell` of
`FB/SVGADevice.cpp`): if the register `SVGA_FIFO_BUSY` is there and reads as true it does
nothing, else it sets the register and writes to `SVGA_REG_SYNC`, which wakes up the host.

## The host

The host keeps the promise of `vminclude/svga_reg.h`: what is in the FIFO while the register
reads as true is noticed before the host goes back to sleep. When it looks, and how often, is
its own affair.

## Interleaving

`Doorbell.step` takes one access at a time, of any number of threads of the guest and of the
host. A thread that has read the register may find itself overtaken by the host clearing it;
that another thread has set it, and is about to wake the host, is what `Covered` is about.

## Main results

* `Doorbell.Inv.step`: what one access keeps.
* `doorbell_not_lost`: a host that is not awake has noticed, or will notice, every command for
  which the doorbell has been rung, unless it is about to be woken up.
-/

namespace DockerMacos

/-- `SVGA_FIFO_BUSY`, the number of the register. -/
def svgaFifoBusy : ℕ := 290

/-- `IsFIFORegValid`. -/
def isFIFORegValid (fifoMin reg : ℕ) : Bool := fifoMin > reg * 4

/-- What a thread in `RingDoorBell` does next. -/
inductive RingPc
  /-- It reads `SVGA_FIFO_BUSY`. -/
  | test
  /-- It sets `SVGA_FIFO_BUSY`. -/
  | mark
  /-- It writes to `SVGA_REG_SYNC`. -/
  | sync
  deriving DecidableEq

/-- What the host is doing. -/
inductive DoorbellHost
  | asleep
  | awake
  /-- It has cleared `SVGA_FIFO_BUSY`, and will notice so many commands before it sleeps. -/
  | closing (owed : ℕ)
  deriving DecidableEq

/-- The guest and the host. -/
structure Doorbell where
  /-- `m_fifo_ptr[SVGA_FIFO_MIN]`. -/
  fifoMin : ℕ
  /-- The commands in the FIFO. -/
  pending : ℕ
  /-- Those of them that were there when the doorbell was rung last. -/
  rung : ℕ
  /-- `m_fifo_ptr[SVGA_FIFO_BUSY]`. -/
  fifoBusy : Bool
  /-- The threads in `RingDoorBell`. -/
  threads : Multiset RingPc
  /-- The wakeups on their way to the host. -/
  wakeups : ℕ
  host : DoorbellHost

/-- What happens next. -/
inductive DoorbellAction
  /-- A command is put into the FIFO. -/
  | commit
  /-- `RingDoorBell` is called. -/
  | ring
  /-- A thread in `RingDoorBell` goes on. -/
  | resume (pc : RingPc)
  /-- `SVGA_REG_SYNC` is written elsewhere: a full FIFO, `SyncFIFO` or `SyncToFence`. -/
  | sync
  /-- The host gets a wakeup. -/
  | wake
  /-- The host takes commands out of the FIFO. -/
  | process (n : ℕ)
  /-- The host sets `SVGA_FIFO_BUSY`. -/
  | setBusy
  /-- The host clears `SVGA_FIFO_BUSY`. -/
  | clearBusy
  /-- The host goes to sleep. -/
  | sleep

namespace Doorbell

/-- `FIFOInit` has been called, and the host has not been woken up. -/
def start (fifoMin : ℕ) : Doorbell where
  fifoMin := fifoMin
  pending := 0
  rung := 0
  fifoBusy := false
  threads := 0
  wakeups := 0
  host := .asleep

/-- A thread that goes on with `pc`. -/
def enter (w : Doorbell) (pc : RingPc) : Doorbell := { w with threads := pc ::ₘ w.threads }

/-- `RingDoorBell`, from its beginning. -/
def ring (w : Doorbell) : Doorbell :=
  w.enter (if isFIFORegValid w.fifoMin svgaFifoBusy then .test else .sync)

/-- The next access of a thread, which is no longer among the threads. -/
def advance (w : Doorbell) : RingPc → Doorbell
  | .test => if w.fifoBusy then w else w.enter .mark
  | .mark => { w with fifoBusy := true }.enter .sync
  | .sync => { w with wakeups := w.wakeups + 1 }

/-- The step function. -/
def step (w : Doorbell) : DoorbellAction → Option Doorbell
  | .commit => some { w with pending := w.pending + 1 }
  | .ring => some { w with rung := w.pending }.ring
  | .resume pc =>
      if pc ∈ w.threads then some ({ w with threads := w.threads.erase pc }.advance pc) else none
  | .sync => some { w with wakeups := w.wakeups + 1 }
  | .wake =>
      if w.wakeups = 0 then none
      else some { w with wakeups := w.wakeups - 1, host := .awake }
  | .process n =>
      match w.host with
      | .asleep => none
      | .awake => some { w with pending := w.pending - n, rung := w.rung - n }
      | .closing owed => some { w with
          pending := w.pending - n
          rung := w.rung - n
          host := .closing (owed - n) }
  | .setBusy =>
      if w.host = .asleep then none else some { w with fifoBusy := true, host := .awake }
  | .clearBusy =>
      if w.host = .awake then
        some { w with fifoBusy := false, host := .closing w.pending }
      else none
  | .sleep => if w.host = .closing 0 then some { w with host := .asleep } else none

/-- The host is about to be woken up. -/
def Covered (w : Doorbell) : Prop := w.wakeups ≠ 0 ∨ .mark ∈ w.threads ∨ .sync ∈ w.threads

/-- The commands that the host will notice without being woken up, if there is an end to it. -/
def noticed : DoorbellHost → Option ℕ
  | .asleep => some 0
  | .awake => none
  | .closing owed => some owed

/-- **The invariant** of the guest and the host. -/
structure Inv (w : Doorbell) : Prop where
  rung_le : w.rung ≤ w.pending
  /-- While the host notices no more, the register is set by a thread that wakes it up. -/
  busy : w.fifoBusy = true → w.host ≠ .awake → w.Covered
  /-- A thread cares for the commands that the host does not notice. -/
  unnoticed : ∀ n, noticed w.host = some n → n < w.rung → w.Covered ∨ .test ∈ w.threads

variable {w t : Doorbell}

/-- At the start the FIFO is empty and the host asleep. -/
theorem inv_start (fifoMin : ℕ) : Inv (start fifoMin) :=
  ⟨Nat.le_refl 0, (by rintro ⟨⟩), fun n _ hn => absurd hn (Nat.not_lt_zero n)⟩

/-- A thread that reads the register does not matter for the wakeup. -/
theorem Covered.erase_test (h : w.Covered) :
    ({ w with threads := w.threads.erase .test } : Doorbell).Covered := by
  rcases h with hwake | hmark | hsync
  · exact .inl hwake
  · exact .inr (.inl ((Multiset.mem_erase_of_ne (by decide)).mpr hmark))
  · exact .inr (.inr ((Multiset.mem_erase_of_ne (by decide)).mpr hsync))

/-- A thread that enters takes no wakeup away. -/
theorem Covered.enter (h : w.Covered) (pc : RingPc) : (w.enter pc).Covered := by
  rcases h with hwake | hmark | hsync
  · exact .inl hwake
  · exact .inr (.inl (Multiset.mem_cons_of_mem hmark))
  · exact .inr (.inr (Multiset.mem_cons_of_mem hsync))

/-- Where the host is about to be woken up, everything is cared for. -/
theorem Inv.of_covered (hrung : w.rung ≤ w.pending) (h : w.Covered) : Inv w :=
  ⟨hrung, fun _ _ => h, fun _ _ _ => .inl h⟩

/-- One access of a thread in `RingDoorBell`. -/
theorem Inv.resume (h : Inv w) (pc : RingPc) :
    Inv ({ w with threads := w.threads.erase pc }.advance pc) := by
  cases pc with
  | test =>
    rw [advance]
    split
    · -- the register is set: another thread wakes the host up, or the host notices everything
      rename_i hbusy
      refine ⟨h.rung_le, fun _ hhost => (h.busy hbusy hhost).erase_test, fun n hn _ => .inl ?_⟩
      refine (h.busy hbusy ?_).erase_test
      rintro (hawake : w.host = .awake)
      rw [show noticed w.host = none by rw [hawake]; rfl] at hn
      cases hn
    · exact .of_covered h.rung_le (.inr (.inl (Multiset.mem_cons_self _ _)))
  | mark => exact .of_covered h.rung_le (.inr (.inr (Multiset.mem_cons_self _ _)))
  | sync => exact .of_covered h.rung_le (.inl (Nat.succ_ne_zero _))

/-- `RingDoorBell` is called. -/
theorem Inv.ring (h : Inv w) : Inv ({ w with rung := w.pending } : Doorbell).ring := by
  rw [Doorbell.ring]
  split
  · refine ⟨Nat.le_refl _, fun hbusy hhost => ?_, fun n _ _ => .inr (Multiset.mem_cons_self _ _)⟩
    have hcovered : ({ w with rung := w.pending } : Doorbell).Covered := h.busy hbusy hhost
    exact hcovered.enter .test
  · exact .of_covered (Nat.le_refl _) (.inr (.inr (Multiset.mem_cons_self _ _)))

/-- The host takes commands out of the FIFO. -/
theorem Inv.process (h : Inv w) {n : ℕ} (hstep : w.step (.process n) = some t) : Inv t := by
  rw [step] at hstep
  split at hstep
  · cases hstep
  · rename_i hawake
    obtain rfl := Option.some.inj hstep
    refine ⟨Nat.sub_le_sub_right h.rung_le n, h.busy, fun k hk _ => ?_⟩
    change noticed w.host = some k at hk
    rw [hawake] at hk
    cases hk
  · rename_i owed hclosing
    obtain rfl := Option.some.inj hstep
    refine ⟨Nat.sub_le_sub_right h.rung_le n, fun hbusy _ => h.busy hbusy ?_, fun k hk hlt => ?_⟩
    · rw [hclosing]
      rintro ⟨⟩
    · obtain rfl := Option.some.inj hk
      change owed - n < w.rung - n at hlt
      exact h.unnoticed owed (by rw [hclosing]; rfl) (by omega)

/-- **One step** keeps the invariant. -/
theorem Inv.step (h : Inv w) {a : DoorbellAction} (hstep : w.step a = some t) : Inv t := by
  cases a with
  | commit =>
    obtain rfl := Option.some.inj hstep
    exact ⟨Nat.le_succ_of_le h.rung_le, h.busy, h.unnoticed⟩
  | ring =>
    obtain rfl := Option.some.inj hstep
    exact h.ring
  | resume pc =>
    rw [Doorbell.step] at hstep
    split at hstep
    · obtain rfl := Option.some.inj hstep
      exact h.resume pc
    · cases hstep
  | sync =>
    obtain rfl := Option.some.inj hstep
    exact .of_covered h.rung_le (.inl (Nat.succ_ne_zero _))
  | wake =>
    rw [Doorbell.step] at hstep
    split at hstep
    · cases hstep
    · obtain rfl := Option.some.inj hstep
      exact ⟨h.rung_le, fun _ hhost => absurd rfl hhost, (by rintro _ ⟨⟩)⟩
  | process n => exact h.process hstep
  | setBusy =>
    rw [Doorbell.step] at hstep
    split at hstep
    · cases hstep
    · obtain rfl := Option.some.inj hstep
      exact ⟨h.rung_le, fun _ hhost => absurd rfl hhost, (by rintro _ ⟨⟩)⟩
  | clearBusy =>
    rw [Doorbell.step] at hstep
    split at hstep
    · obtain rfl := Option.some.inj hstep
      refine ⟨h.rung_le, (by rintro ⟨⟩), fun n hn hlt => ?_⟩
      obtain rfl := Option.some.inj hn
      exact absurd h.rung_le (Nat.not_le_of_lt hlt)
    · cases hstep
  | sleep =>
    rw [Doorbell.step] at hstep
    split at hstep
    · rename_i hclosing
      obtain rfl := Option.some.inj hstep
      refine ⟨h.rung_le, fun hbusy _ => h.busy hbusy ?_, fun n hn hlt => ?_⟩
      · rw [hclosing]
        rintro ⟨⟩
      · obtain rfl := Option.some.inj hn
        exact h.unnoticed 0 (by rw [hclosing]; rfl) hlt
    · cases hstep

end Doorbell

open Doorbell in
/-- **No doorbell is lost**: with no wakeup on its way and no thread of the guest about to send
one, the host is awake, or will notice every command for which the doorbell has been rung. -/
theorem doorbell_not_lost {fifoMin n : ℕ} {as : List DoorbellAction} {w : Doorbell}
    (h : Run Doorbell.step Always (start fifoMin) as w) (hwakeups : w.wakeups = 0)
    (hthreads : w.threads = 0) (hn : noticed w.host = some n) : w.rung ≤ n := by
  have hinv : Inv w := h.invariant (fun _ _ _ hI _ hstep => hI.step hstep) (inv_start fifoMin)
  have hnone : ∀ pc : RingPc, pc ∉ w.threads := fun pc => by
    rw [hthreads]
    exact Multiset.notMem_zero pc
  by_contra hlt
  rcases hinv.unnoticed n hn (Nat.lt_of_not_le hlt) with (hwake | hmark | hsync) | htest
  · exact hwake hwakeups
  · exact hnone _ hmark
  · exact hnone _ hsync
  · exact hnone _ htest

/-- The doorbell wakes the host up, and is rung again while the host is awake. -/
def rungTwice : List DoorbellAction :=
  [.commit, .ring, .resume .test, .resume .mark, .resume .sync, .wake, .setBusy, .commit, .ring,
    .resume .test, .clearBusy]

/-- The host has two commands to notice before it sleeps. -/
theorem doorbell_not_lost_twice : ∃ w,
    Run Doorbell.step Always (Doorbell.start (svgaFifoNumRegs * 4)) rungTwice w ∧
      w.host = .closing 2 ∧ w.rung ≤ 2 := by
  have hrun : (rungTwice.foldlM Doorbell.step (Doorbell.start (svgaFifoNumRegs * 4))).map
      (fun w => (w.wakeups, w.threads, w.host)) = some (0, 0, .closing 2) := by decide
  obtain ⟨w, hw, hend⟩ := Option.map_eq_some_iff.mp hrun
  obtain ⟨hwakeups, hthreads, hhost⟩ : w.wakeups = 0 ∧ w.threads = 0 ∧ w.host = .closing 2 := by
    simpa using hend
  refine ⟨w, run_of_foldlM hw, hhost, ?_⟩
  exact doorbell_not_lost (run_of_foldlM hw) hwakeups hthreads (by rw [hhost]; rfl)

end DockerMacos
