import DockerMacos.IOReturn
import DockerMacos.Run

/-!
# Accelerated Updates

With accelerated updates the GA plugin tells the device what has changed on the screen, and the
device need not watch the frame buffer: the host traces are off and the framebuffer's refresh
timer is not scheduled. The accelerator (`AC/VMsvga2Accel.cpp`) remembers the task that has
switched them on, in `m_updating_ga`, and disregards the requests of other tasks; a 2D context
(`AC/UC/VMsvga22DContext.cpp`) switches them off when it is closed.

## Grants

`holders` records what the requests amount to, without `m_updating_ga`: a request to switch on
is granted if every context that holds a grant belongs to the same task, and a request to switch
off, or a close, ends the grants of all contexts of its task. A context is known by its number,
and keeps the task that it was started for.

The owner is a task and not a context, by an explicit comparison in the source. So a second
context of the task may switch off what the first has switched on
(`shared_task_switched_off`).

## The invariant

`UpdatesInv` says that `m_updating_ga` is the task of the contexts with a grant, or null when
there is none, and that the framebuffer's switch follows it. The framebuffer's own invariant
(`Follows`) says that traces and timer follow the switch; every call keeps both.

## Main results

* `UpdatesInv.step`: every call keeps the owner, the switch and the grants in step.
* `accelUpdates_owned`: traces and timer are off exactly while an open context holds a grant.
-/

namespace DockerMacos

/-- A 2D context. -/
structure UpdateContext where
  /-- Whether `m_provider` is set. -/
  provider : Bool
  /-- `m_owning_task`, `0` for none. -/
  owningTask : ℕ
  deriving DecidableEq

/-- The switch of the accelerated updates, and the contexts. -/
structure Updates where
  /-- `m_updating_ga`, `0` for none. -/
  updatingGa : ℕ
  /-- Whether the accelerator's `m_framebuffer` is set. -/
  haveFramebuffer : Bool
  /-- The framebuffer's `m_accel_updates`. -/
  accelUpdates : Bool
  /-- `HasCapability(SVGA_CAP_TRACES)`. -/
  haveTraces : Bool
  /-- The register `SVGA_REG_TRACES`. -/
  traces : Bool
  /-- Whether `m_refresh_call` is set. -/
  haveTimer : Bool
  /-- Whether the refresh timer is scheduled. -/
  timer : Bool
  contexts : ℕ → Option UpdateContext
  /-- Whether the last request of a context that succeeded was to switch on. -/
  switchedOn : ℕ → Bool
  /-- The contexts that hold a grant. -/
  holders : List ℕ

namespace Updates

/-! ### The framebuffer -/

/-- `scheduleRefreshTimer`. -/
def scheduleRefreshTimer (w : Updates) : Updates :=
  if w.haveTimer then { w with timer := true } else w

/-- `cancelRefreshTimer`. -/
def cancelRefreshTimer (w : Updates) : Updates :=
  if w.haveTimer then { w with timer := false } else w

/-- `WriteReg(SVGA_REG_TRACES, ...)`, on a device that has the capability. -/
def writeTraces (w : Updates) (on : Bool) : Updates :=
  if w.haveTraces then { w with traces := on } else w

/-- `VMsvga2::useAccelUpdates`. -/
def useAccelUpdatesFB (w : Updates) (state : Bool) : Updates :=
  if state = w.accelUpdates then w
  else if state then ({ w with accelUpdates := state }.cancelRefreshTimer).writeTraces false
  else ({ w with accelUpdates := state }.scheduleRefreshTimer).writeTraces true

/-- `refreshTimerAction`, once the timer has fired. -/
def refreshTimerAction (w : Updates) : Updates :=
  if w.accelUpdates then { w with timer := false }
  else { w with timer := false }.scheduleRefreshTimer

/-- The refresh timer in `setDisplayMode`. -/
def setDisplayMode (w : Updates) : Updates :=
  if w.accelUpdates then w else w.cancelRefreshTimer.scheduleRefreshTimer

/-! ### The accelerator and its contexts -/

/-- `VMsvga2Accel::useAccelUpdates`. -/
def useAccelUpdatesAC (w : Updates) (state : Bool) (owningTask : ℕ) : IOReturn × Updates :=
  if w.updatingGa ≠ 0 ∧ w.updatingGa ≠ owningTask then (.success, w)
  else if !w.haveFramebuffer then (.noDevice, w)
  else (.success,
    { w with updatingGa := if state then owningTask else 0 }.useAccelUpdatesFB state)

/-- `VMsvga22DContext::useAccelUpdates`. -/
def useAccelUpdates (w : Updates) (c : UpdateContext) (state : Bool) : IOReturn × Updates :=
  if !c.provider then (.notReady, w) else w.useAccelUpdatesAC state c.owningTask

/-- `VMsvga22DContext::clientClose`, as far as the updates go. -/
def clientClose (w : Updates) (id : ℕ) (c : UpdateContext) : Updates :=
  let w := if c.provider then (w.useAccelUpdatesAC false c.owningTask).2 else w
  { w with contexts := Function.update w.contexts id (some ⟨false, 0⟩) }

/-! ### Grants -/

/-- The task of a context, `0` for none. -/
def taskOf (w : Updates) (id : ℕ) : ℕ := ((w.contexts id).map UpdateContext.owningTask).getD 0

/-- The contexts with a grant after a request of a context. -/
def regrant (w : Updates) (id : ℕ) (state : Bool) : List ℕ :=
  if state then
    if ∀ d ∈ w.holders, w.taskOf d = w.taskOf id then id :: w.holders else w.holders
  else w.holders.filter fun d => w.taskOf d ≠ w.taskOf id

/-- The calls. -/
inductive Action
  /-- A task opens a 2D context. -/
  | create (id task : ℕ)
  | useAccelUpdates (id : ℕ) (state : Bool)
  | clientClose (id : ℕ)
  | refreshTimerAction
  | setDisplayMode

/-- The step function. A context is opened once, by a task, while there is a framebuffer; the
timer fires when it is scheduled. -/
def step (w : Updates) : Action → Option Updates
  | .create id task =>
    if w.contexts id = none ∧ task ≠ 0 ∧ w.haveFramebuffer then
      some { w with contexts := Function.update w.contexts id (some ⟨true, task⟩) }
    else none
  | .useAccelUpdates id state =>
    (w.contexts id).map fun c =>
      let (ret, w') := w.useAccelUpdates c state
      if ret = .success then
        { w' with
          switchedOn := Function.update w.switchedOn id state
          holders := w.regrant id state }
      else w'
  | .clientClose id =>
    (w.contexts id).map fun c =>
      { w.clientClose id c with
        holders := if c.provider then w.regrant id false else w.holders }
  | .refreshTimerAction => if w.timer then some w.refreshTimerAction else none
  | .setDisplayMode => some w.setDisplayMode

/-- The driver after it has been started on a device. -/
def started (haveTraces haveTimer : Bool) : Updates where
  updatingGa := 0
  haveFramebuffer := true
  accelUpdates := false
  haveTraces := haveTraces
  traces := haveTraces
  haveTimer := haveTimer
  timer := haveTimer
  contexts := fun _ => none
  switchedOn := fun _ => false
  holders := []

/-- The context is open. -/
def IsOpen (w : Updates) (id : ℕ) : Prop := ∃ c, w.contexts id = some c ∧ c.provider = true

/-- Host traces and the refresh timer are off. -/
def Off (w : Updates) : Prop := w.traces = false ∧ w.timer = false

/-! ### The invariant -/

/-- Traces and timer follow the switch. -/
structure Follows (w : Updates) : Prop where
  traces : w.traces = (w.haveTraces && !w.accelUpdates)
  timer : w.timer = (w.haveTimer && !w.accelUpdates)

/-- The switch follows the owner, and the owner is the task of the contexts with a grant. -/
structure UpdatesInv (w : Updates) : Prop extends Follows w where
  haveFramebuffer : w.haveFramebuffer = true
  switch : w.accelUpdates = true ↔ w.updatingGa ≠ 0
  owner : w.updatingGa ≠ 0 ↔ w.holders ≠ []
  holder : ∀ d ∈ w.holders,
    w.IsOpen d ∧ w.taskOf d = w.updatingGa ∧ w.switchedOn d = true
  task : ∀ id c, w.contexts id = some c → c.provider = true → c.owningTask ≠ 0

section Calls

variable {w : Updates}

/-- The framebuffer's switch moves traces and timer with it. -/
theorem Follows.useAccelUpdatesFB (h : Follows w) (state : Bool) :
    w.useAccelUpdatesFB state = { w with
      accelUpdates := state
      traces := w.haveTraces && !state
      timer := w.haveTimer && !state } := by
  obtain ⟨htraces, htimer⟩ := h
  obtain ⟨ga, fb, on, haveTraces, traces, haveTimer, timer, contexts, switchedOn, holders⟩ := w
  simp only at htraces htimer
  subst htraces htimer
  obtain _ | _ := on <;> obtain _ | _ := state <;> obtain _ | _ := haveTraces <;>
    obtain _ | _ := haveTimer <;> rfl

/-- The timer is scheduled again when it has fired. -/
theorem Follows.refreshTimerAction (h : Follows w) (htimer : w.timer = true) :
    w.refreshTimerAction = w := by
  have hfollows := h.timer
  obtain ⟨ga, fb, on, haveTraces, traces, haveTimer, timer, contexts, switchedOn, holders⟩ := w
  simp only at htimer hfollows
  subst htimer
  obtain ⟨rfl, hon⟩ := Bool.and_eq_true_iff.mp hfollows.symm
  obtain rfl : on = false := by simpa using hon
  rfl

/-- `setDisplayMode` finds the timer and the traces as they should be. -/
theorem Follows.setDisplayMode (h : Follows w) : w.setDisplayMode = w := by
  have hfollows := h.timer
  obtain ⟨ga, fb, on, haveTraces, traces, haveTimer, timer, contexts, switchedOn, holders⟩ := w
  simp only at hfollows
  subst hfollows
  obtain _ | _ := on <;> obtain _ | _ := haveTimer <;> rfl

/-- The accelerator disregards the requests of a task that does not own the updates. -/
theorem UpdatesInv.useAccelUpdatesAC (h : UpdatesInv w) (state : Bool) (task : ℕ) :
    w.useAccelUpdatesAC state task = (.success,
      if w.updatingGa ≠ 0 ∧ w.updatingGa ≠ task then w
      else { w with
        updatingGa := if state then task else 0
        accelUpdates := state
        traces := w.haveTraces && !state
        timer := w.haveTimer && !state }) := by
  rw [Updates.useAccelUpdatesAC]
  split
  · rfl
  · have hfb : ¬(!w.haveFramebuffer) = true := by simp [h.haveFramebuffer]
    have hfollows : Follows { w with updatingGa := if state then task else 0 } :=
      ⟨h.traces, h.timer⟩
    rw [if_neg hfb, hfollows.useAccelUpdatesFB]

/-- Another task's request changes no grant. -/
theorem UpdatesInv.regrant_other (h : UpdatesInv w) {id : ℕ} (hother : w.updatingGa ≠ 0)
    (hne : w.updatingGa ≠ w.taskOf id) (state : Bool) : w.regrant id state = w.holders := by
  obtain ⟨d, hd⟩ := List.exists_mem_of_ne_nil _ (h.owner.mp hother)
  have htask : ∀ d ∈ w.holders, w.taskOf d ≠ w.taskOf id := fun d hd heq =>
    hne ((h.holder d hd).2.1.symm.trans heq)
  rw [regrant]
  split
  · exact if_neg fun hall => htask d hd (hall d hd)
  · exact List.filter_eq_self.mpr fun d hd => decide_eq_true (htask d hd)

/-- The owner's requests decide about the grants of its contexts, and so do those of every
task when there is no owner. -/
theorem UpdatesInv.regrant_own (h : UpdatesInv w) {id : ℕ}
    (hown : ¬(w.updatingGa ≠ 0 ∧ w.updatingGa ≠ w.taskOf id)) (state : Bool) :
    (∀ d ∈ w.holders, w.taskOf d = w.taskOf id) ∧
      w.regrant id state = if state then id :: w.holders else [] := by
  have htask : ∀ d ∈ w.holders, w.taskOf d = w.taskOf id := by
    intro d hd
    have hne := h.owner.mpr (List.ne_nil_of_mem hd)
    have hga : w.updatingGa = w.taskOf id := by
      by_contra hga
      exact hown ⟨hne, hga⟩
    exact (h.holder d hd).2.1.trans hga
  refine ⟨htask, ?_⟩
  obtain _ | _ := state
  · exact List.filter_eq_nil_iff.mpr fun d hd => by simp [htask d hd]
  · exact if_pos htask

/-- The request of an open context. -/
theorem UpdatesInv.request (h : UpdatesInv w) {id task : ℕ}
    (hid : w.contexts id = some ⟨true, task⟩) (state : Bool) :
    UpdatesInv { (w.useAccelUpdatesAC state task).2 with
      switchedOn := Function.update w.switchedOn id state
      holders := w.regrant id state } := by
  have htask : w.taskOf id = task := by simp [taskOf, hid]
  have hpos : task ≠ 0 := h.task id _ hid rfl
  rw [h.useAccelUpdatesAC]
  by_cases hother : w.updatingGa ≠ 0 ∧ w.updatingGa ≠ task
  · simp only [if_pos hother]
    rw [h.regrant_other hother.1 (htask ▸ hother.2)]
    refine ⟨⟨h.traces, h.timer⟩, h.haveFramebuffer, h.switch, h.owner, fun d hd => ?_, h.task⟩
    obtain ⟨hopen, hga, hon⟩ := h.holder d hd
    have hne : d ≠ id := by
      rintro rfl
      exact hother.2 (hga.symm.trans htask)
    exact ⟨hopen, hga, (Function.update_of_ne hne _ _).trans hon⟩
  · simp only [if_neg hother]
    obtain ⟨hsame, hgrant⟩ := h.regrant_own (htask ▸ hother) state
    rw [hgrant]
    obtain _ | _ := state
    · exact ⟨⟨by simp, by simp⟩, h.haveFramebuffer, by simp, by simp, by simp, h.task⟩
    · refine ⟨⟨by simp, by simp⟩, h.haveFramebuffer, by simpa using hpos, by simpa using hpos,
        fun d hd => ?_, h.task⟩
      obtain rfl | hd := List.mem_cons.mp hd
      · exact ⟨⟨_, hid, rfl⟩, htask, by simp⟩
      · obtain ⟨hopen, -, hon⟩ := h.holder d hd
        refine ⟨hopen, (hsame d hd).trans htask, ?_⟩
        by_cases hd : d = id
        · simp [hd]
        · simpa [Function.update_of_ne hd] using hon

/-- A context that is not open holds no grant. -/
theorem UpdatesInv.not_holder (h : UpdatesInv w) {id : ℕ}
    (hid : ∀ c, w.contexts id = some c → c.provider = false) : id ∉ w.holders := by
  intro hmem
  obtain ⟨⟨c, hc, hopen⟩, -⟩ := h.holder id hmem
  rw [hid c hc] at hopen
  cases hopen

/-- A context without a grant is opened or closed. -/
theorem UpdatesInv.replace (h : UpdatesInv w) {id : ℕ} (hid : id ∉ w.holders) (c : UpdateContext)
    (hc : c.provider = true → c.owningTask ≠ 0) (on : Bool) :
    UpdatesInv { w with
      contexts := Function.update w.contexts id (some c)
      switchedOn := Function.update w.switchedOn id on } := by
  refine ⟨h.toFollows.rec fun h₁ h₂ => ⟨h₁, h₂⟩, h.haveFramebuffer, h.switch, h.owner,
    fun d hd => ?_, fun d c' hd hp => ?_⟩
  · have hne : d ≠ id := fun heq => hid (heq ▸ hd)
    obtain ⟨hopen, hga, hon⟩ := h.holder d hd
    simp only [IsOpen, taskOf, Function.update_of_ne hne] at hopen hga ⊢
    exact ⟨hopen, hga, hon⟩
  · simp only [Function.update_apply] at hd
    split at hd
    · exact Option.some.inj hd ▸ hc (Option.some.inj hd ▸ hp)
    · exact h.task d c' hd hp

end Calls

/-- **Step lemma.** Every call keeps the owner, the switch and the grants in step. -/
theorem UpdatesInv.step {w t : Updates} (h : UpdatesInv w) {a : Action}
    (hstep : w.step a = some t) : UpdatesInv t := by
  obtain ⟨id, task⟩ | ⟨id, state⟩ | id | _ | _ := a
  · simp only [Updates.step] at hstep
    split at hstep
    · next hguard =>
      have hout : id ∉ w.holders := h.not_holder fun c hc => by simp [hguard.1] at hc
      have hopened := h.replace hout ⟨true, task⟩ (fun _ => hguard.2.1) (w.switchedOn id)
      rw [Function.update_eq_self] at hopened
      exact Option.some.inj hstep ▸ hopened
    · exact absurd hstep (by simp)
  · obtain ⟨⟨provider, task⟩, hid, rfl⟩ := Option.map_eq_some_iff.mp hstep
    obtain _ | _ := provider
    · exact h
    · have hrequest := h.request hid state
      simp only [Updates.useAccelUpdates, h.useAccelUpdatesAC] at hrequest ⊢
      exact hrequest
  · obtain ⟨⟨provider, task⟩, hid, rfl⟩ := Option.map_eq_some_iff.mp hstep
    obtain _ | _ := provider
    · have hout : id ∉ w.holders := h.not_holder fun c hc => by
        rw [hid, Option.some.injEq] at hc
        rw [← hc]
      have hclosed := h.replace hout ⟨false, 0⟩ (by simp) (w.switchedOn id)
      rw [Function.update_eq_self] at hclosed
      exact hclosed
    · have hout : id ∉ w.regrant id false := by simp [regrant]
      have hclosed := (h.request hid false).replace hout ⟨false, 0⟩ (by simp) (w.switchedOn id)
      simp only [Function.update_idem, Function.update_eq_self, h.useAccelUpdatesAC] at hclosed
      simp only [Updates.clientClose, h.useAccelUpdatesAC, if_true]
      by_cases hother : w.updatingGa ≠ 0 ∧ w.updatingGa ≠ task
      · simp only [if_pos hother] at hclosed ⊢
        exact hclosed
      · simp only [if_neg hother] at hclosed ⊢
        exact hclosed
  · simp only [Updates.step] at hstep
    split at hstep
    · next htimer =>
      rw [h.toFollows.refreshTimerAction htimer] at hstep
      exact Option.some.inj hstep ▸ h
    · exact absurd hstep (by simp)
  · simp only [Updates.step, h.toFollows.setDisplayMode, Option.some.injEq] at hstep
    exact hstep ▸ h

/-- The invariant holds when the driver has been started. -/
theorem UpdatesInv.started (haveTraces haveTimer : Bool) :
    UpdatesInv (Updates.started haveTraces haveTimer) := by
  refine ⟨⟨?_, ?_⟩, rfl, ?_, ?_, fun d hd => ?_, fun id c hc => ?_⟩
  · simp [Updates.started]
  · simp [Updates.started]
  · simp [Updates.started]
  · simp [Updates.started]
  · exact absurd hd List.not_mem_nil
  · cases hc

/-- **Who owns the accelerated updates.** In every run the host traces, on a device that has
them, and the refresh timer, where it is set up, are off exactly while an open context holds a
grant; and a context with a grant has switched the updates on and not off again. -/
theorem accelUpdates_owned {haveTraces haveTimer : Bool} {as : List Action} {t : Updates}
    (hrun : Run Updates.step Always (Updates.started haveTraces haveTimer) as t) :
    (t.haveTraces = true → (t.traces = false ↔ ∃ d, t.IsOpen d ∧ d ∈ t.holders)) ∧
      (t.haveTimer = true → (t.timer = false ↔ ∃ d, t.IsOpen d ∧ d ∈ t.holders)) ∧
      ∀ d ∈ t.holders, t.IsOpen d ∧ t.switchedOn d = true := by
  have h : UpdatesInv t := hrun.invariant (I := UpdatesInv)
    (fun _ _ _ hI _ hstep => hI.step hstep) (UpdatesInv.started _ _)
  have hholders : t.accelUpdates = true ↔ ∃ d, t.IsOpen d ∧ d ∈ t.holders := by
    rw [h.switch, h.owner]
    constructor
    · intro hne
      obtain ⟨d, hd⟩ := List.exists_mem_of_ne_nil _ hne
      exact ⟨d, (h.holder d hd).1, hd⟩
    · rintro ⟨d, -, hd⟩
      exact List.ne_nil_of_mem hd
  refine ⟨fun htraces => ?_, fun htimer => ?_, fun d hd => ⟨(h.holder d hd).1, (h.holder d hd).2.2⟩⟩
  · rw [← hholders, h.traces, htraces]
    simp
  · rw [← hholders, h.timer, htimer]
    simp

/-- Two contexts of one task switch the updates on, and one of them off again. -/
def sharedTask : List Action :=
  [.create 1 7, .create 2 7, .useAccelUpdates 1 true, .useAccelUpdates 2 true,
    .useAccelUpdates 1 false]

/-- A context of a task, and one of another task, before the first is closed. -/
theorem accelUpdates_owned_session :
    ∃ t, Run Updates.step Always (Updates.started true false)
        [.create 1 7, .create 2 8, .useAccelUpdates 1 true, .useAccelUpdates 2 true,
          .clientClose 2] t ∧
      (t.traces = false ↔ ∃ d, t.IsOpen d ∧ d ∈ t.holders) := by
  have hfold : (([.create 1 7, .create 2 8, .useAccelUpdates 1 true, .useAccelUpdates 2 true,
      .clientClose 2] : List Action).foldlM Updates.step (Updates.started true false)).map
      (fun t => (t.haveTraces, t.traces)) = some (true, false) := by decide +kernel
  obtain ⟨t, ht, hfields⟩ := Option.map_eq_some_iff.mp hfold
  have hrun := run_of_foldlM ht
  exact ⟨t, hrun, (accelUpdates_owned hrun).1 (congrArg Prod.fst hfields)⟩

/-- The other context still has the updates switched on, and the host traces again. -/
theorem shared_task_switched_off :
    ∃ t, Run Updates.step Always (Updates.started true false) sharedTask t ∧
      ¬(t.Off ↔ ∃ d, t.IsOpen d ∧ t.switchedOn d = true) := by
  have hfold : (sharedTask.foldlM Updates.step (Updates.started true false)).map
      (fun t => (t.traces, t.contexts 2, t.switchedOn 2)) = some (true, some ⟨true, 7⟩, true) := by
    decide +kernel
  obtain ⟨t, ht, hfields⟩ := Option.map_eq_some_iff.mp hfold
  simp only [Prod.mk.injEq] at hfields
  obtain ⟨htraces, hcontext, hon⟩ := hfields
  refine ⟨t, run_of_foldlM ht, fun h => ?_⟩
  have hoff := h.mpr ⟨2, ⟨_, hcontext, rfl⟩, hon⟩
  rw [hoff.1] at htraces
  cases htraces

end Updates

end DockerMacos
