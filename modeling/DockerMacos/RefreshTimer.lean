import Mathlib.Data.Multiset.AddSub
import Mathlib.Data.Multiset.Count
import DockerMacos.Run

/-!
# The Refresh Timer

On a device without host traces, with the option for it and memory for the timer call, the
framebuffer (`FB/VMsvga2.cpp`) shows changes of the screen to the device by a refresh timer that
schedules itself again each time. The timer's own
thread, mode switches and the switch of the accelerated updates all read `m_accel_updates`
and then schedule or cancel the timer, without a lock: another thread may run in between.

`RefreshTimer.step` takes one access of one thread at a time. A thread is known by what it
has left to do.

## Main results

* `refresh_not_lost`: with a refresh timer, and if calls that move the switch do not overlap, the
  timer is pending whenever the accelerated updates are off and no thread is at work.
* `overlap_loses_refresh`: with overlapping calls it can be lost for good.
* `fired_after_switch`: how often the timer may still fire once the updates are on.
-/

namespace DockerMacos

/-- What a thread that is at work on the timer does next. -/
inductive RefreshPc
  /-- `refreshTimerAction`, before it reads `m_accel_updates`. -/
  | action
  /-- `refreshTimerAction`, before it schedules the timer. -/
  | reschedule
  /-- `useAccelUpdates`, before it writes `m_accel_updates`. -/
  | store (state : Bool)
  /-- `useAccelUpdates`, before it cancels or schedules the timer. -/
  | follow (state : Bool)
  /-- `setDisplayMode`, before it cancels the timer. -/
  | modeCancel
  /-- `setDisplayMode`, after the mode has been set. -/
  | modeTest
  /-- `setDisplayMode`, before it schedules the timer. -/
  | modeSchedule
  deriving DecidableEq

/-- The refresh timer and the threads that are at work on it. -/
structure RefreshTimer where
  /-- Whether `m_refresh_call` is set. -/
  haveTimer : Bool
  /-- `m_accel_updates`. -/
  accelUpdates : Bool
  /-- Whether the timer is waiting to fire. -/
  pending : Bool
  threads : Multiset RefreshPc
  /-- How often the timer has fired. -/
  fired : ℕ

namespace RefreshTimer

/-- `scheduleRefreshTimer`. -/
def scheduleRefreshTimer (w : RefreshTimer) : RefreshTimer :=
  if w.haveTimer then { w with pending := true } else w

/-- `cancelRefreshTimer`. -/
def cancelRefreshTimer (w : RefreshTimer) : RefreshTimer :=
  if w.haveTimer then { w with pending := false } else w

/-- A thread that is at work from now on. -/
def enter (w : RefreshTimer) (pc : RefreshPc) : RefreshTimer :=
  { w with threads := pc ::ₘ w.threads }

/-- The next access of a thread, which is no longer among the threads. -/
def advance (w : RefreshTimer) : RefreshPc → RefreshTimer
  | .action => if w.accelUpdates then w else w.enter .reschedule
  | .reschedule => w.scheduleRefreshTimer
  | .store state => { w with accelUpdates := state }.enter (.follow state)
  | .follow state => if state then w.cancelRefreshTimer else w.scheduleRefreshTimer
  | .modeCancel => w.cancelRefreshTimer.enter .modeTest
  | .modeTest => if w.accelUpdates then w else w.enter .modeSchedule
  | .modeSchedule => w.scheduleRefreshTimer

/-- What may happen next. -/
inductive Action
  /-- The timer fires. -/
  | fire
  /-- `useAccelUpdates` is called, and compares the switch. -/
  | useAccelUpdates (state : Bool)
  /-- `setDisplayMode` is called with a mode to set, and reads the switch. -/
  | setDisplayMode
  /-- One of the threads goes on. -/
  | resume (pc : RefreshPc)

/-- The step function. -/
def step (w : RefreshTimer) : Action → Option RefreshTimer
  | .fire =>
      if w.pending then some ({ w with pending := false, fired := w.fired + 1 }.enter .action)
      else none
  | .useAccelUpdates state => some (if state = w.accelUpdates then w else w.enter (.store state))
  | .setDisplayMode => some (w.enter (if w.accelUpdates then .modeTest else .modeCancel))
  | .resume pc =>
      if pc ∈ w.threads then some ({ w with threads := w.threads.erase pc }.advance pc) else none

/-- The timer at the end of `start`. -/
def started (haveTimer : Bool) : RefreshTimer where
  haveTimer := haveTimer
  accelUpdates := false
  pending := haveTimer
  threads := 0
  fired := 0

/-- A call of `useAccelUpdates` past its comparison. -/
def InSwitch (pc : RefreshPc) : Prop := (∃ b, pc = .store b) ∨ ∃ b, pc = .follow b

/-- Calls that move the switch do not overlap. -/
def Serial (w : RefreshTimer) : Action → Prop
  | .useAccelUpdates _ => ∀ pc ∈ w.threads, ¬InSwitch pc
  | _ => True

variable {w t : RefreshTimer}

/-! ### The accesses -/

/-- A thread enters beside those that are there. -/
@[simp] theorem enter_threads (pc : RefreshPc) : (w.enter pc).threads = pc ::ₘ w.threads := rfl

/-- It schedules nothing by that. -/
@[simp] theorem enter_pending (pc : RefreshPc) : (w.enter pc).pending = w.pending := rfl

/-- Nor does it move the switch. -/
@[simp] theorem enter_accelUpdates (pc : RefreshPc) :
    (w.enter pc).accelUpdates = w.accelUpdates := rfl

/-- Whether there is a timer is settled at `start`. -/
@[simp] theorem enter_haveTimer (pc : RefreshPc) : (w.enter pc).haveTimer = w.haveTimer := rfl

/-- The timer does not fire by that. -/
@[simp] theorem enter_fired (pc : RefreshPc) : (w.enter pc).fired = w.fired := rfl

/-- A timer that is scheduled is pending, where there is one. -/
theorem scheduleRefreshTimer_eq :
    w.scheduleRefreshTimer = { w with pending := w.pending || w.haveTimer } := by
  obtain ⟨haveTimer, on, pending, threads, fired⟩ := w
  cases haveTimer <;> simp [scheduleRefreshTimer]

/-- A timer that is cancelled is not pending, where there is one. -/
theorem cancelRefreshTimer_eq :
    w.cancelRefreshTimer = { w with pending := w.pending && !w.haveTimer } := by
  obtain ⟨haveTimer, on, pending, threads, fired⟩ := w
  cases haveTimer <;> simp [cancelRefreshTimer]

/-! ### The refresh is not lost -/

/-- The thread will see to it that the timer is scheduled, while the updates are off. -/
def Rearms : RefreshPc → Prop
  | .store _ => False
  | .follow state => state = false
  | _ => True

/-- The timer is pending, or a thread will see to it. -/
def Alive (w : RefreshTimer) : Prop := w.pending = true ∨ ∃ pc ∈ w.threads, Rearms pc

/-- At most one thread is past its comparison with the switch, and it knows the switch. -/
structure OneSwitch (w : RefreshTimer) : Prop where
  one : ∀ pc ∈ w.threads, InSwitch pc → ∀ q ∈ w.threads.erase pc, ¬InSwitch q
  store : ∀ b, .store b ∈ w.threads → w.accelUpdates = !b
  follow : ∀ b, .follow b ∈ w.threads → w.accelUpdates = b

/-- **The invariant** while calls that move the switch do not overlap. -/
structure SerialInv (w : RefreshTimer) : Prop extends OneSwitch w where
  alive : w.accelUpdates = false → w.haveTimer = true → w.Alive
  timer : w.pending = true → w.haveTimer = true

/-- A thread that enters takes nothing away. -/
theorem Alive.enter (h : w.Alive) (pc : RefreshPc) : (w.enter pc).Alive := by
  rcases h with hpending | ⟨q, hq, hr⟩
  · exact .inl hpending
  · exact .inr ⟨q, Multiset.mem_cons_of_mem hq, hr⟩

/-- A thread that will schedule the timer is enough. -/
theorem alive_enter {pc : RefreshPc} (h : Rearms pc) : (w.enter pc).Alive :=
  .inr ⟨pc, Multiset.mem_cons_self _ _, h⟩

namespace OneSwitch

/-- A thread that does not move the switch joins the others. -/
theorem enter (h : OneSwitch w) {pc : RefreshPc} (hpc : ¬InSwitch pc) :
    OneSwitch (w.enter pc) where
  one q hq hin r hr := by
    rcases Multiset.mem_cons.mp hq with rfl | hq
    · exact absurd hin hpc
    · rw [enter_threads, Multiset.erase_cons_tail_of_mem hq] at hr
      rcases Multiset.mem_cons.mp hr with rfl | hr
      · exact hpc
      · exact h.one q hq hin r hr
  store b hb := by
    rcases Multiset.mem_cons.mp hb with rfl | hb
    · exact absurd (.inl ⟨b, rfl⟩) hpc
    · exact h.store b hb
  follow b hb := by
    rcases Multiset.mem_cons.mp hb with rfl | hb
    · exact absurd (.inr ⟨b, rfl⟩) hpc
    · exact h.follow b hb

/-- A thread that knows the switch joins others that do not move it. -/
theorem enterSwitch {pc : RefreshPc} (hnone : ∀ q ∈ w.threads, ¬InSwitch q)
    (hstore : ∀ b, pc = .store b → w.accelUpdates = !b)
    (hfollow : ∀ b, pc = .follow b → w.accelUpdates = b) : OneSwitch (w.enter pc) where
  one q hq hin r hr := by
    rcases Multiset.mem_cons.mp hq with rfl | hq
    · rw [enter_threads, Multiset.erase_cons_head] at hr
      exact hnone r hr
    · exact absurd hin (hnone q hq)
  store b hb := by
    rcases Multiset.mem_cons.mp hb with heq | hb
    · exact hstore b heq.symm
    · exact absurd (.inl ⟨b, rfl⟩) (hnone _ hb)
  follow b hb := by
    rcases Multiset.mem_cons.mp hb with heq | hb
    · exact hfollow b heq.symm
    · exact absurd (.inr ⟨b, rfl⟩) (hnone _ hb)

/-- A thread ends. -/
theorem leave (h : OneSwitch w) (pc : RefreshPc) :
    OneSwitch { w with threads := w.threads.erase pc } where
  one q hq hin r hr := by
    refine h.one q (Multiset.mem_of_mem_erase hq) hin r ?_
    rw [Multiset.erase_comm] at hr
    exact Multiset.mem_of_mem_erase hr
  store b hb := h.store b (Multiset.mem_of_mem_erase hb)
  follow b hb := h.follow b (Multiset.mem_of_mem_erase hb)

/-- The timer itself plays no part. -/
theorem timer (h : OneSwitch w) (pending : Bool) (fired : ℕ) :
    OneSwitch { w with pending := pending, fired := fired } := ⟨h.one, h.store, h.follow⟩

end OneSwitch

/-- Only two places of a thread are past the comparison. -/
theorem not_inSwitch {pc : RefreshPc} (hstore : ∀ b, pc ≠ .store b)
    (hfollow : ∀ b, pc ≠ .follow b) :
    ¬InSwitch pc := by
  rintro (⟨b, hb⟩ | ⟨b, hb⟩)
  · exact hstore b hb
  · exact hfollow b hb

/-- The timer is only scheduled where there is one. -/
theorem pending_schedule (h : w.pending = true → w.haveTimer = true) :
    (w.pending || w.haveTimer) = true → w.haveTimer = true := by
  rw [Bool.or_eq_true]
  rintro (hpending | htimer)
  · exact h hpending
  · exact htimer

/-- An access of a thread keeps the invariant. -/
theorem SerialInv.advance (h : SerialInv w) {pc : RefreshPc} (hpc : pc ∈ w.threads) :
    SerialInv ({ w with threads := w.threads.erase pc }.advance pc) := by
  have hleave := h.leave pc
  have hcancel : (w.pending && !w.haveTimer) = true → w.haveTimer = true :=
    fun hp => h.timer (Bool.and_eq_true_iff.mp hp).1
  cases pc with
  | action =>
    rw [RefreshTimer.advance]
    split
    · next hon => exact ⟨hleave, fun hoff => absurd (hon.symm.trans hoff) Bool.true_eq_false.mp,
        h.timer⟩
    · exact ⟨hleave.enter (not_inSwitch (by simp) (by simp)), fun _ _ => alive_enter trivial,
        h.timer⟩
  | reschedule =>
    rw [RefreshTimer.advance, scheduleRefreshTimer_eq]
    exact ⟨hleave.timer _ _, fun _ htimer => .inl (by simpa using .inr htimer),
      pending_schedule h.timer⟩
  | store b =>
    rw [RefreshTimer.advance]
    refine ⟨.enterSwitch (h.one _ hpc (.inl ⟨b, rfl⟩)) (by simp) (by simp), ?_, h.timer⟩
    rintro (rfl : b = false) -
    exact alive_enter rfl
  | follow b =>
    rw [RefreshTimer.advance]
    have hb := h.follow b hpc
    split
    · next hon =>
      rw [cancelRefreshTimer_eq]
      refine ⟨hleave.timer _ _, fun hoff => ?_, hcancel⟩
      exact absurd ((hb.trans hon).symm.trans hoff) Bool.true_eq_false.mp
    · rw [scheduleRefreshTimer_eq]
      exact ⟨hleave.timer _ _, fun _ htimer => .inl (by simpa using .inr htimer),
        pending_schedule h.timer⟩
  | modeCancel =>
    rw [RefreshTimer.advance, cancelRefreshTimer_eq]
    exact ⟨(hleave.timer _ _).enter (not_inSwitch (by simp) (by simp)),
      fun _ _ => alive_enter trivial, hcancel⟩
  | modeTest =>
    rw [RefreshTimer.advance]
    split
    · next hon => exact ⟨hleave, fun hoff => absurd (hon.symm.trans hoff) Bool.true_eq_false.mp,
        h.timer⟩
    · exact ⟨hleave.enter (not_inSwitch (by simp) (by simp)), fun _ _ => alive_enter trivial,
        h.timer⟩
  | modeSchedule =>
    rw [RefreshTimer.advance, scheduleRefreshTimer_eq]
    exact ⟨hleave.timer _ _, fun _ htimer => .inl (by simpa using .inr htimer),
      pending_schedule h.timer⟩

/-- **Step lemma.** -/
theorem SerialInv.step (h : SerialInv w) {a : Action} (hserial : Serial w a)
    (hstep : w.step a = some t) : SerialInv t := by
  cases a with
  | fire =>
    rw [RefreshTimer.step] at hstep
    split at hstep
    · cases hstep
      exact ⟨(h.toOneSwitch.timer _ _).enter (not_inSwitch (by simp) (by simp)),
        fun _ _ => alive_enter trivial, fun hp => absurd hp Bool.false_ne_true⟩
    · cases hstep
  | useAccelUpdates state =>
    rw [RefreshTimer.step] at hstep
    split at hstep
    · exact Option.some.inj hstep ▸ h
    · next hne =>
      cases hstep
      refine ⟨.enterSwitch hserial ?_ (by simp), fun hoff htimer => (h.alive hoff htimer).enter _,
        h.timer⟩
      rintro b heq
      obtain rfl : state = b := by simpa using heq
      exact Bool.eq_not.mpr (Ne.symm hne)
  | setDisplayMode =>
    cases hstep
    refine ⟨h.enter ?_, fun hoff htimer => (h.alive hoff htimer).enter _, h.timer⟩
    split
    · exact not_inSwitch (by simp) (by simp)
    · exact not_inSwitch (by simp) (by simp)
  | resume pc =>
    rw [RefreshTimer.step] at hstep
    split at hstep
    · next hpc =>
      cases hstep
      exact h.advance hpc
    · cases hstep

/-- The timer is pending at the end of `start`, and no thread is there. -/
theorem serialInv_started (haveTimer : Bool) : SerialInv (started haveTimer) where
  one pc hpc := absurd hpc (Multiset.notMem_zero pc)
  store _ hb := absurd hb (Multiset.notMem_zero _)
  follow _ hb := absurd hb (Multiset.notMem_zero _)
  alive _ htimer := .inl htimer
  timer htimer := htimer

/-- The invariant in every state of a run whose switches do not overlap. -/
theorem SerialInv.reachable {haveTimer : Bool} {as : List Action}
    (hrun : Run RefreshTimer.step Serial (started haveTimer) as t) : SerialInv t :=
  hrun.invariant (fun _ _ _ h hC hstep => h.step hC hstep) (serialInv_started haveTimer)

/-- Where there is a timer, no step takes it away. -/
theorem step_haveTimer {a : Action} (hstep : w.step a = some t) : t.haveTimer = w.haveTimer := by
  cases a with
  | fire =>
    rw [step] at hstep
    split at hstep <;> cases hstep
    rfl
  | useAccelUpdates state =>
    rw [step] at hstep
    split at hstep <;> cases hstep <;> rfl
  | setDisplayMode =>
    cases hstep
    rfl
  | resume pc =>
    rw [step] at hstep
    split at hstep
    · cases hstep
      cases pc <;> simp only [advance, scheduleRefreshTimer_eq, cancelRefreshTimer_eq] <;>
        first | rfl | (split <;> rfl)
    · cases hstep

/-- **The refresh is not lost.** Where there is a refresh timer, in every interleaving of the timer,
of mode switches and of calls that move the switch one after another: while the accelerated
updates are off, the timer is pending or a thread at work will schedule it. So it is pending
when no thread is at work. -/
theorem refresh_not_lost {as : List Action} (hrun : Run step Serial (started true) as t)
    (hoff : t.accelUpdates = false) :
    t.Alive ∧ (t.threads = 0 → t.pending = true) := by
  have htimer : t.haveTimer = true :=
    hrun.invariant (I := fun t => t.haveTimer = true)
      (fun _ _ _ h _ hstep => (step_haveTimer hstep).trans h) rfl
  have halive := (SerialInv.reachable hrun).alive hoff htimer
  refine ⟨halive, fun hnone => halive.resolve_right ?_⟩
  rintro ⟨pc, hpc, -⟩
  rw [hnone] at hpc
  exact Multiset.notMem_zero pc hpc

/-- A refresh goes on through a mode switch that overlaps with the timer. -/
theorem refresh_not_lost_mode_switch : ∃ t,
    Run step Serial (started true)
      [.fire, .setDisplayMode, .resume .action, .resume .modeCancel, .resume .reschedule,
        .resume .modeTest, .resume .modeSchedule] t ∧
    t.accelUpdates = false ∧ t.Alive ∧ (t.threads = 0 → t.pending = true) := by
  have hrun : ∃ t, Run step Serial (started true)
      [.fire, .setDisplayMode, .resume .action, .resume .modeCancel, .resume .reschedule,
        .resume .modeTest, .resume .modeSchedule] t ∧ t.accelUpdates = false :=
    ⟨_, .cons trivial rfl (.cons trivial rfl (.cons trivial rfl (.cons trivial rfl
      (.cons trivial rfl (.cons trivial rfl (.single trivial rfl)))))), rfl⟩
  obtain ⟨t, hrun, hoff⟩ := hrun
  exact ⟨t, hrun, hoff, refresh_not_lost hrun hoff⟩

/-- **The calls must not overlap.** A call that switches the updates on stores the switch, a
second one switches them off again and schedules the timer, and then the first one cancels
it: the updates are off, no thread is at work, and the timer never fires again. -/
theorem overlap_loses_refresh : ∃ t,
    Run step Always (started true)
      [.useAccelUpdates true, .resume (.store true), .useAccelUpdates false,
        .resume (.store false), .resume (.follow false), .resume (.follow true)] t ∧
    t.accelUpdates = false ∧ t.haveTimer = true ∧ ¬t.Alive := by
  refine ⟨_, .cons trivial rfl (.cons trivial rfl (.cons trivial rfl (.cons trivial rfl
    (.cons trivial rfl (.single trivial rfl))))), rfl, rfl, ?_⟩
  rintro (hpending | ⟨pc, hpc, -⟩)
  · exact Bool.false_ne_true hpending
  · exact Multiset.notMem_zero pc hpc

/-! ### After the updates have been switched on -/

/-- A thread that has read the switch while it was off, and schedules the timer next. -/
def late : RefreshPc → Bool
  | .reschedule | .modeSchedule => true
  | .follow state => !state
  | _ => false

/-- The number of such threads. -/
def lateThreads (w : RefreshTimer) : ℕ := w.threads.countP fun pc => late pc = true

/-- How often the timer can fire at most, while the updates stay on. -/
def mayFire (w : RefreshTimer) : ℕ := (if w.pending then 1 else 0) + w.lateThreads

/-- The updates stay on: nobody is about to switch them off. -/
structure StaysOn (w : RefreshTimer) : Prop where
  on : w.accelUpdates = true
  none : .store false ∉ w.threads

/-- No call switches the updates off. -/
def KeepsOn (_ : RefreshTimer) (a : Action) : Prop := a ≠ .useAccelUpdates false

/-- A thread that enters counts if it is late. -/
theorem lateThreads_enter (pc : RefreshPc) :
    (w.enter pc).lateThreads = w.lateThreads + if late pc then 1 else 0 :=
  Multiset.countP_cons _ _ _

/-- The count of the threads with and without one of them. -/
theorem lateThreads_leave {pc : RefreshPc} (hpc : pc ∈ w.threads) :
    w.lateThreads =
      lateThreads { w with threads := w.threads.erase pc } + if late pc then 1 else 0 := by
  rw [lateThreads, lateThreads, ← Multiset.countP_cons, Multiset.cons_erase hpc]

/-- After a schedule the timer can fire once more than there are late threads. -/
theorem mayFire_schedule : w.scheduleRefreshTimer.mayFire ≤ w.lateThreads + 1 := by
  rw [scheduleRefreshTimer_eq, mayFire]
  show _ + w.lateThreads ≤ _
  split <;> omega

/-- A cancel does not raise the bound. -/
theorem mayFire_cancel : w.cancelRefreshTimer.mayFire ≤ w.mayFire := by
  rw [cancelRefreshTimer_eq, mayFire, mayFire]
  show _ + w.lateThreads ≤ _
  cases w.pending <;> cases w.haveTimer <;> simp

/-- Nor does a thread that enters in time. -/
theorem mayFire_enter {pc : RefreshPc} (hpc : late pc = false) :
    (w.enter pc).mayFire = w.mayFire := by
  rw [mayFire, mayFire, lateThreads_enter, hpc]
  rfl

/-- An access of a thread does not raise the bound. -/
theorem StaysOn.advance (h : StaysOn w) {pc : RefreshPc} (hpc : pc ∈ w.threads) {v : RefreshTimer}
    (hv : v = { w with threads := w.threads.erase pc }) :
    StaysOn (v.advance pc) ∧ (v.advance pc).fired = w.fired ∧
      (v.advance pc).mayFire ≤ w.mayFire := by
  have hnone : .store false ∉ v.threads := by
    rw [hv]
    exact fun hmem => h.none (Multiset.mem_of_mem_erase hmem)
  have hon : v.accelUpdates = true := by rw [hv]; exact h.on
  have hfired : v.fired = w.fired := by rw [hv]
  have hcount : w.mayFire = v.mayFire + if late pc then 1 else 0 := by
    rw [mayFire, mayFire, lateThreads_leave hpc, hv, Nat.add_assoc]
  have hschedule : late pc = true → v.scheduleRefreshTimer.mayFire ≤ w.mayFire := by
    intro hlate
    have := @mayFire_schedule v
    have hle : v.lateThreads ≤ v.mayFire := Nat.le_add_left _ _
    rw [hlate, if_pos rfl] at hcount
    omega
  have hcancel : v.cancelRefreshTimer.mayFire ≤ w.mayFire := by
    have := @mayFire_cancel v
    omega
  have hstill : StaysOn v := ⟨hon, hnone⟩
  have hscheduled : StaysOn v.scheduleRefreshTimer ∧ v.scheduleRefreshTimer.fired = w.fired := by
    rw [scheduleRefreshTimer_eq]
    exact ⟨⟨hon, hnone⟩, hfired⟩
  have hcancelled : StaysOn v.cancelRefreshTimer ∧ v.cancelRefreshTimer.fired = w.fired := by
    rw [cancelRefreshTimer_eq]
    exact ⟨⟨hon, hnone⟩, hfired⟩
  cases pc with
  | action | modeTest =>
    rw [RefreshTimer.advance, if_pos hon]
    exact ⟨hstill, hfired, by omega⟩
  | reschedule | modeSchedule => exact ⟨hscheduled.1, hscheduled.2, hschedule rfl⟩
  | store b =>
    obtain rfl : b = true := by
      by_contra hb
      exact h.none (by simpa [hb] using hpc)
    refine ⟨⟨rfl, by simpa [RefreshTimer.advance] using hnone⟩, hfired, ?_⟩
    rw [RefreshTimer.advance, mayFire_enter rfl]
    show v.mayFire ≤ w.mayFire
    omega
  | follow b =>
    cases b with
    | true => exact ⟨hcancelled.1, hcancelled.2, hcancel⟩
    | false => exact ⟨hscheduled.1, hscheduled.2, hschedule rfl⟩
  | modeCancel =>
    refine ⟨⟨hcancelled.1.on, ?_⟩, hcancelled.2, ?_⟩
    · simpa [RefreshTimer.advance] using hcancelled.1.none
    · rw [RefreshTimer.advance, mayFire_enter rfl]
      exact hcancel

/-- **Step lemma.** While the updates stay on, every firing lowers the bound by one. -/
theorem StaysOn.step (h : StaysOn w) {a : Action} (hkeeps : KeepsOn w a)
    (hstep : w.step a = some t) :
    StaysOn t ∧ t.fired + t.mayFire ≤ w.fired + w.mayFire := by
  cases a with
  | fire =>
    rw [RefreshTimer.step] at hstep
    split at hstep
    · next hpending =>
      cases hstep
      refine ⟨⟨h.on, by simpa using h.none⟩, ?_⟩
      rw [mayFire_enter rfl, mayFire, mayFire, hpending]
      show w.fired + 1 + ((if false then 1 else 0) + w.lateThreads) ≤
        w.fired + ((if true then 1 else 0) + w.lateThreads)
      simp only [Bool.false_eq_true, if_false, if_true]
      omega
    · cases hstep
  | useAccelUpdates state =>
    obtain rfl : state = true := by
      by_contra hstate
      exact hkeeps (by simp [hstate])
    rw [RefreshTimer.step, if_pos h.on.symm] at hstep
    cases hstep
    exact ⟨h, le_rfl⟩
  | setDisplayMode =>
    rw [RefreshTimer.step, if_pos h.on] at hstep
    cases hstep
    refine ⟨⟨h.on, by simpa using h.none⟩, ?_⟩
    rw [mayFire_enter rfl]
    rfl
  | resume pc =>
    rw [RefreshTimer.step] at hstep
    split at hstep
    · next hpc =>
      cases hstep
      obtain ⟨hon, hfired, hle⟩ := h.advance hpc rfl
      exact ⟨hon, by omega⟩
    · cases hstep

/-- **The timer runs out.** Once a call has switched the updates on and cancelled the timer,
the timer fires at most once more for each thread that had read the switch before, in every
interleaving in which no call switches the updates off again. -/
theorem fired_after_switch {haveTimer : Bool} {as bs : List Action} {s : RefreshTimer}
    (hrun : Run step Serial (started haveTimer) as w)
    (hswitch : w.step (.resume (.follow true)) = some s) (hrest : Run step KeepsOn s bs t) :
    t.accelUpdates = true ∧ t.fired + t.mayFire ≤ w.fired + w.lateThreads := by
  have hinv := SerialInv.reachable hrun
  rw [step] at hswitch
  split at hswitch
  · next hpc =>
    cases hswitch
    have hon := hinv.follow true hpc
    -- no other thread moves the switch
    have hnone : .store false ∉ w.threads := fun hmem => by
      have := hinv.store false hmem
      have := hinv.one (.follow true) hpc (.inr ⟨true, rfl⟩) (.store false)
        ((Multiset.mem_erase_of_ne (by simp)).mpr hmem)
      exact this (.inl ⟨false, rfl⟩)
    obtain ⟨hstays, hfired, -⟩ := StaysOn.advance ⟨hon, hnone⟩ hpc rfl
    have hbound : (advance { w with threads := w.threads.erase (.follow true) }
        (.follow true)).mayFire = w.lateThreads := by
      rw [advance, if_pos rfl, cancelRefreshTimer_eq, mayFire]
      show (if (w.pending && !w.haveTimer) = true then 1 else 0) + _ = _
      have hpending : (w.pending && !w.haveTimer) = false := by
        cases hp : w.pending with
        | false => rfl
        | true => rw [hinv.timer hp]; rfl
      rw [hpending, lateThreads_leave hpc]
      simp [late, lateThreads]
    obtain ⟨hend, hle⟩ := hrest.invariant
      (I := fun t => StaysOn t ∧ t.fired + t.mayFire ≤ w.fired + w.lateThreads)
      (fun u a v hu hC hstep => by
        obtain ⟨hstays', hle'⟩ := hu.1.step hC hstep
        exact ⟨hstays', hle'.trans hu.2⟩)
      ⟨hstays, by rw [hfired, hbound]⟩
    exact ⟨hend.on, hle⟩
  · cases hswitch

/-- The timer has read the switch just before a call turns it: it fires once more. -/
theorem fired_after_switch_once : ∃ w s t,
    Run step Serial (started true)
      [.fire, .resume .action, .useAccelUpdates true, .resume (.store true)] w ∧
    w.step (.resume (.follow true)) = some s ∧
    Run step KeepsOn s [.resume .reschedule, .fire, .resume .action] t ∧
    t.fired = 2 ∧ t.accelUpdates = true ∧ t.fired + t.mayFire ≤ w.fired + w.lateThreads := by
  have hserial : ∀ pc ∈ (RefreshPc.reschedule ::ₘ 0 : Multiset RefreshPc), ¬InSwitch pc := by
    intro pc hpc
    obtain rfl := Multiset.mem_singleton.mp hpc
    exact not_inSwitch (by simp) (by simp)
  have hrun : ∃ w s t,
      Run step Serial (started true)
        [.fire, .resume .action, .useAccelUpdates true, .resume (.store true)] w ∧
      w.step (.resume (.follow true)) = some s ∧
      Run step KeepsOn s [.resume .reschedule, .fire, .resume .action] t ∧ t.fired = 2 :=
    ⟨_, _, _, .cons trivial rfl (.cons trivial rfl (.cons hserial rfl (.single trivial rfl))), rfl,
      .cons (by simp [KeepsOn]) rfl (.cons (by simp [KeepsOn]) rfl
        (.single (by simp [KeepsOn]) rfl)), rfl⟩
  obtain ⟨w, s, t, hrun, hswitch, hrest, hfired⟩ := hrun
  exact ⟨w, s, t, hrun, hswitch, hrest, hfired, fired_after_switch hrun hswitch hrest⟩

end RefreshTimer

end DockerMacos
