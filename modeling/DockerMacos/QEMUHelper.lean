import DockerMacos.ResourceLog
import DockerMacos.Run

/-!
# The Helper

`QEMUHelper` (`QEMUHelper/src/kern_start.cpp`) waits for the framebuffer and makes some seconds
later an attempt to patch its properties, five attempts in all; with two of them it raises the
memory limits of the processes that it knows.

## Framebuffers

The system tells the helper about every framebuffer that appears, and the helper keeps the last
one in `gFramebuffer`. The notification is never removed, so framebuffers that appear after
`stop` are kept as well. The EDID is also set when a framebuffer or a display appears; those
calls are not attempts, and are left out.

## Time

An action of the system has the time at which it happens, and the timer has a deadline. A new
timeout takes the place of an earlier one, so a framebuffer that appears between two attempts
puts off the next. `OnTime` says that the timer fires when it is due; without it an attempt may
be late.

## Main results

* `helper_attempts`: how many attempts and scans there are, whatever framebuffers appear.
* `helper_timeline`: when they are made, with one framebuffer and a timer that is on time.
* `helper_framebuffers`: what is retained, and what `stop` releases of it.
-/

namespace DockerMacos

/-- The helper, and what it has done since `start`. -/
structure QEMUHelper where
  /-- The time in milliseconds. -/
  now : ℕ
  running : Bool
  /-- Whether `timer` is set. -/
  timer : Bool
  /-- When the timer fires, if it is set. -/
  deadline : Option ℕ
  patchAttempts : ℕ
  gFramebuffer : Option ℕ
  /-- The framebuffers that have appeared, and when. -/
  matched : List (ℕ × ℕ)
  /-- How many of them had appeared at `stop`. -/
  atStop : ℕ
  /-- When the attempts were made. -/
  fired : List ℕ
  /-- When the limits were raised. -/
  scans : List ℕ
  /-- What has been done with the framebuffers. -/
  log : List (ResourceUse ℕ)

/-- What happens next. -/
inductive HelperAction
  /-- Time passes. -/
  | tick (ms : ℕ)
  /-- A framebuffer appears. -/
  | framebufferMatched (fb : ℕ)
  /-- The timer fires. -/
  | timerFired
  | stop

namespace QEMUHelper

/-- `start`; `timer` tells whether there is a work loop and a timer for it. -/
def start (now : ℕ) (timer : Bool) : QEMUHelper where
  now := now
  running := true
  timer := timer
  deadline := none
  patchAttempts := 0
  gFramebuffer := none
  matched := []
  atStop := 0
  fired := []
  scans := []
  log := []

/-- `setTimeoutMS`, which forgets an earlier timeout. -/
def setTimeoutMS (w : QEMUHelper) (ms : ℕ) : QEMUHelper := { w with deadline := some (w.now + ms) }

/-- `framebufferMatched`. -/
def framebufferMatched (w : QEMUHelper) (fb : ℕ) : QEMUHelper :=
  let w := { w with
    gFramebuffer := some fb
    matched := w.matched ++ [(w.now, fb)]
    log := w.log ++ [ResourceUse.acquire fb, ResourceUse.use fb] }
  if w.timer then w.setTimeoutMS 5000 else w

/-- `patchVRAM` and `patchEDID`, one more time. -/
def patch (w : QEMUHelper) (fb : ℕ) : QEMUHelper :=
  { w with
    patchAttempts := w.patchAttempts + 1
    fired := w.fired ++ [w.now]
    log := w.log ++ [ResourceUse.use fb, ResourceUse.use fb] }

/-- `raiseJetsamLimits`, by its time. -/
def raiseJetsamLimits (w : QEMUHelper) : QEMUHelper := { w with scans := w.scans ++ [w.now] }

/-- `timerFired` -/
def timerFired (w : QEMUHelper) : QEMUHelper :=
  match w.gFramebuffer with
  | none => w
  | some fb =>
      let w := w.patch fb
      let w :=
        if w.patchAttempts = 2 ∨ w.patchAttempts = 4 then w.raiseJetsamLimits else w
      if w.patchAttempts < 5 then w.setTimeoutMS 10000 else w

/-- `stop` -/
def stop (w : QEMUHelper) : QEMUHelper :=
  { w with
    running := false
    timer := false
    deadline := if w.timer then none else w.deadline
    gFramebuffer := none
    atStop := w.matched.length
    log := w.log ++ w.gFramebuffer.toList.map ResourceUse.release }

/-- The step function. -/
def step (w : QEMUHelper) : HelperAction → Option QEMUHelper
  | .tick ms => some { w with now := w.now + ms }
  | .framebufferMatched fb => some (w.framebufferMatched fb)
  | .timerFired =>
      match w.deadline with
      | none => none
      | some d => if d ≤ w.now then some { w with deadline := none }.timerFired else none
  | .stop => if w.running then some w.stop else none

variable {w t : QEMUHelper}

/-! ### The attempts -/

/-- The scans of so many attempts. -/
def scansOf (attempts : ℕ) : ℕ :=
  (if 2 ≤ attempts then 1 else 0) + if 4 ≤ attempts then 1 else 0

/-- The scan that comes with an attempt. -/
def scanAt (attempt now : ℕ) : List ℕ := if attempt = 2 ∨ attempt = 4 then [now] else []

/-- The helper after the scan that comes with an attempt. -/
def scanned (w : QEMUHelper) : QEMUHelper :=
  { w with scans := w.scans ++ scanAt w.patchAttempts w.now }

/-- The test of the source, as the scan that comes with an attempt. -/
theorem scanned_eq (w : QEMUHelper) :
    (if w.patchAttempts = 2 ∨ w.patchAttempts = 4 then w.raiseJetsamLimits else w) =
      w.scanned := by
  rw [scanned, scanAt]
  split
  · rfl
  · rw [List.append_nil]

/-- One more attempt has the scan that comes with it. -/
theorem scansOf_succ (n now : ℕ) :
    scansOf (n + 1) = scansOf n + (scanAt (n + 1) now).length := by
  match n with
  | 0 => rfl
  | 1 => rfl
  | 2 => rfl
  | 3 => rfl
  | n + 4 =>
    rw [scanAt, if_neg (by omega), scansOf, scansOf, if_pos (by omega), if_pos (by omega),
      if_pos (by omega), if_pos (by omega)]
    rfl

/-- **The invariant** of the attempts. -/
structure Attempts (w : QEMUHelper) : Prop where
  count : w.fired.length = w.patchAttempts
  bound : w.patchAttempts + (if w.deadline.isSome then 1 else 0) ≤ 4 + w.matched.length
  unmatched : w.matched = [] → w.deadline = none ∧ w.patchAttempts = 0
  scans : w.scans.length = scansOf w.patchAttempts
  past : ∀ f ∈ w.fired, f ≤ w.now
  gap : w.fired.Pairwise fun f g => f + 5000 ≤ g
  next : ∀ d, w.deadline = some d → ∀ f ∈ w.fired, f + 5000 ≤ d

/-- No attempt has been made at the start, and none is pending. -/
theorem attempts_start (now : ℕ) (timer : Bool) : Attempts (start now timer) :=
  ⟨rfl, Nat.zero_le _, fun _ => ⟨rfl, rfl⟩, rfl, (by rintro _ ⟨⟩), .nil, (by rintro _ ⟨⟩)⟩

namespace Attempts

/-- A timeout of at least five seconds. -/
theorem setTimeoutMS (h : Attempts w) {ms : ℕ} (hms : 5000 ≤ ms)
    (hbound : w.patchAttempts + 1 ≤ 4 + w.matched.length) (hmatched : w.matched ≠ []) :
    Attempts (w.setTimeoutMS ms) := by
  refine ⟨h.count, hbound, fun hnone => absurd hnone hmatched, h.scans, h.past, h.gap, ?_⟩
  intro d hd f hf
  obtain rfl := Option.some.inj hd
  have := h.past f hf
  omega

/-- A framebuffer allows four attempts more, or one more than there were. -/
theorem framebufferMatched (h : Attempts w) (fb : ℕ) : Attempts (w.framebufferMatched fb) := by
  have hbound := h.bound
  have hone : (if w.deadline.isSome then 1 else 0) ≤ 1 := by split <;> omega
  have hmatched : w.matched ++ [(w.now, fb)] ≠ [] := by simp
  have hadded : Attempts { w with
      gFramebuffer := some fb
      matched := w.matched ++ [(w.now, fb)]
      log := w.log ++ [ResourceUse.acquire fb, ResourceUse.use fb] } := by
    refine ⟨h.count, ?_, fun hnone => absurd hnone hmatched, h.scans, h.past, h.gap, h.next⟩
    simp only [List.length_append, List.length_singleton]
    omega
  rw [QEMUHelper.framebufferMatched]
  dsimp only
  split
  · refine hadded.setTimeoutMS (Nat.le_refl _) ?_ hmatched
    simp only [List.length_append, List.length_singleton]
    omega
  · exact hadded

/-- An attempt, with the scan that belongs to it. -/
theorem patch (h : Attempts w) {d : ℕ} (hdeadline : w.deadline = some d) (hd : d ≤ w.now)
    (hbound : w.patchAttempts + 1 ≤ 4 + w.matched.length) (hmatched : w.matched ≠ []) (fb : ℕ) :
    Attempts (({ w with deadline := none } : QEMUHelper).patch fb).scanned := by
  have hlast : ∀ f ∈ w.fired, f + 5000 ≤ w.now := fun f hf => (h.next d hdeadline f hf).trans hd
  have hpast : ∀ f ∈ w.fired ++ [w.now], f ≤ w.now := by
    intro f hf
    rcases List.mem_append.mp hf with hf | hf
    · exact h.past f hf
    · rw [List.mem_singleton.mp hf]
  have hgap : (w.fired ++ [w.now]).Pairwise fun f g => f + 5000 ≤ g := by
    refine List.pairwise_append.mpr ⟨h.gap, List.pairwise_singleton _ _, fun f hf g hg => ?_⟩
    rw [List.mem_singleton.mp hg]
    exact hlast f hf
  have hcount : (w.fired ++ [w.now]).length = w.patchAttempts + 1 := by
    rw [List.length_append, h.count, List.length_singleton]
  refine ⟨hcount, hbound, fun hnone => absurd hnone hmatched, ?_, hpast, hgap, (by rintro _ ⟨⟩)⟩
  change (w.scans ++ scanAt (w.patchAttempts + 1) w.now).length = scansOf (w.patchAttempts + 1)
  rw [List.length_append, h.scans, scansOf_succ w.patchAttempts w.now]

/-- The timer makes an attempt, and sets the next one until there have been five. -/
theorem timerFired (h : Attempts w) {d : ℕ} (hdeadline : w.deadline = some d) (hd : d ≤ w.now) :
    Attempts ({ w with deadline := none } : QEMUHelper).timerFired := by
  have hmatched : w.matched ≠ [] := by
    intro hnone
    rw [(h.unmatched hnone).1] at hdeadline
    cases hdeadline
  have hbound : w.patchAttempts + 1 ≤ 4 + w.matched.length := by
    have := h.bound
    rwa [hdeadline] at this
  rw [QEMUHelper.timerFired]
  dsimp only
  split
  · exact ⟨h.count, Nat.le_of_succ_le hbound, fun hnone => absurd hnone hmatched, h.scans, h.past,
      h.gap, (by rintro _ ⟨⟩)⟩
  rename_i fb _
  have hscanned := h.patch hdeadline hd hbound hmatched fb
  rw [scanned_eq]
  split
  · rename_i hfew
    have hfew' : w.patchAttempts + 1 < 5 := hfew
    refine hscanned.setTimeoutMS (by decide) ?_ hmatched
    have hsome := List.length_pos_of_ne_nil hmatched
    change w.patchAttempts + 1 + 1 ≤ 4 + w.matched.length
    omega
  · exact hscanned

/-- **A step** keeps the bound on the attempts. -/
theorem step (h : Attempts w) {a : HelperAction} (hstep : w.step a = some t) : Attempts t := by
  cases a with
  | tick ms =>
    obtain rfl := Option.some.inj hstep
    exact ⟨h.count, h.bound, h.unmatched, h.scans,
      fun f hf => (h.past f hf).trans (Nat.le_add_right _ _), h.gap, h.next⟩
  | framebufferMatched fb =>
    obtain rfl := Option.some.inj hstep
    exact h.framebufferMatched fb
  | timerFired =>
    rw [QEMUHelper.step] at hstep
    split at hstep
    · cases hstep
    rename_i d hdeadline
    split at hstep
    · rename_i hd
      obtain rfl := Option.some.inj hstep
      exact h.timerFired hdeadline hd
    · cases hstep
  | stop =>
    rw [QEMUHelper.step] at hstep
    split at hstep
    · obtain rfl := Option.some.inj hstep
      refine ⟨h.count, ?_, fun hnone => ⟨?_, (h.unmatched hnone).2⟩, h.scans, h.past, h.gap,
        fun d hd => h.next d ?_⟩
      · refine (Nat.add_le_add_left ?_ _).trans h.bound
        change (if (if w.timer then none else w.deadline).isSome then 1 else 0) ≤ _
        cases w.timer with
        | true => exact Nat.zero_le _
        | false => exact Nat.le_refl _
      · change (if w.timer then none else w.deadline) = none
        rw [(h.unmatched hnone).1, ite_self]
      · change (if w.timer then none else w.deadline) = some d at hd
        split at hd
        · cases hd
        · exact hd
    · cases hstep

end Attempts

/-! ### The timeline -/

/-- The timer is on time. -/
def OnTime (w : QEMUHelper) : HelperAction → Prop
  | .tick ms => ∀ d ∈ w.deadline, w.now + ms ≤ d
  | _ => True

instance (w : QEMUHelper) : (a : HelperAction) → Decidable (OnTime w a)
  | .tick _ => inferInstanceAs (Decidable (∀ _ ∈ w.deadline, _))
  | .framebufferMatched _ => .isTrue trivial
  | .timerFired => .isTrue trivial
  | .stop => .isTrue trivial

/-- When attempt `k` is made, after a framebuffer that has appeared at `m`. -/
def attemptTime (m k : ℕ) : ℕ := m + 5000 + 10000 * k

/-- No framebuffer has appeared yet. -/
structure Idle (w : QEMUHelper) : Prop where
  attempts : w.patchAttempts = 0
  fired : w.fired = []
  scans : w.scans = []
  deadline : w.deadline = none
  timer : w.timer = w.running

/-- One framebuffer has appeared, at the time `m`. -/
structure Single (m fb : ℕ) (w : QEMUHelper) : Prop where
  le : w.patchAttempts ≤ 5
  fired : w.fired = (List.range w.patchAttempts).map (attemptTime m)
  scans : w.scans = (List.range w.patchAttempts).flatMap fun k => scanAt (k + 1) (attemptTime m k)
  running : w.running = true → w.timer = true ∧ w.gFramebuffer = some fb ∧
    w.deadline = if w.patchAttempts < 5 then some (attemptTime m w.patchAttempts) else none
  stopped : w.running = false → w.deadline = none
  onTime : ∀ d, w.deadline = some d → w.now ≤ d

/-- **The invariant** while one framebuffer at most has appeared. -/
def Timeline (w : QEMUHelper) : Prop :=
  match w.matched with
  | [] => Idle w
  | [(m, fb)] => Single m fb w
  | _ => True

/-- At the start nothing has happened. -/
theorem timeline_start (now : ℕ) : Timeline (start now true) :=
  (⟨rfl, rfl, rfl, rfl, rfl⟩ : Idle (start now true))

/-- An attempt on time. -/
theorem Single.timerFired {m fb d : ℕ} (h : Single m fb w) (hdeadline : w.deadline = some d)
    (hd : d ≤ w.now) : Single m fb ({ w with deadline := none } : QEMUHelper).timerFired := by
  have hrunning : w.running = true := by
    cases hrun : w.running with
    | true => rfl
    | false =>
      rw [h.stopped hrun] at hdeadline
      cases hdeadline
  obtain ⟨htimer, hfb, hnext⟩ := h.running hrunning
  rw [hdeadline] at hnext
  split at hnext
  swap
  · cases hnext
  rename_i hfew
  obtain rfl := Option.some.inj hnext
  have hnow : w.now = attemptTime m w.patchAttempts :=
    Nat.le_antisymm (h.onTime _ hdeadline) hd
  have hlater : attemptTime m (w.patchAttempts + 1) = w.now + 10000 := by
    rw [hnow, attemptTime, attemptTime]
    omega
  rw [QEMUHelper.timerFired]
  dsimp only
  rw [hfb]
  dsimp only
  rw [scanned_eq]
  have hfired : w.fired ++ [w.now] =
      (List.range (w.patchAttempts + 1)).map (attemptTime m) := by
    rw [List.range_succ, List.map_append, h.fired, hnow]
    rfl
  have hscans : w.scans ++ scanAt (w.patchAttempts + 1) w.now =
      (List.range (w.patchAttempts + 1)).flatMap fun k => scanAt (k + 1) (attemptTime m k) := by
    rw [List.range_succ, List.flatMap_append, h.scans, hnow, List.flatMap_singleton]
  split
  · rename_i hmore
    have hmore' : w.patchAttempts + 1 < 5 := hmore
    refine ⟨Nat.le_of_lt hmore', hfired, hscans, fun _ => ⟨htimer, rfl, ?_⟩, fun hstopped => ?_,
      fun d' hd' => ?_⟩
    · change some (w.now + 10000) = if w.patchAttempts + 1 < 5 then
        some (attemptTime m (w.patchAttempts + 1)) else none
      rw [if_pos hmore', hlater]
    · change w.running = false at hstopped
      rw [hrunning] at hstopped
      cases hstopped
    · obtain rfl := Option.some.inj hd'
      exact Nat.le_add_right _ _
  · rename_i hlast
    have hlast' : ¬w.patchAttempts + 1 < 5 := hlast
    refine ⟨hfew, hfired, hscans, fun _ => ⟨htimer, rfl, ?_⟩, fun _ => rfl, (by rintro _ ⟨⟩)⟩
    change none = if w.patchAttempts + 1 < 5 then
      some (attemptTime m (w.patchAttempts + 1)) else none
    rw [if_neg hlast']

/-- `stop`, with a framebuffer. -/
theorem Single.stop {m fb : ℕ} (h : Single m fb w) (hrunning : w.running = true) :
    Single m fb w.stop := by
  have hnone : w.stop.deadline = none := by
    rw [QEMUHelper.stop, (h.running hrunning).1]
    rfl
  exact ⟨h.le, h.fired, h.scans, (by rintro ⟨⟩), fun _ => hnone, fun d hd => by
    rw [hnone] at hd
    cases hd⟩

/-- The first framebuffer appears. -/
theorem Idle.framebufferMatched (h : Idle w) (fb : ℕ) :
    Single w.now fb (w.framebufferMatched fb) := by
  have hle : w.patchAttempts ≤ 5 := by
    rw [h.attempts]
    exact Nat.zero_le _
  have hfired : w.fired = (List.range w.patchAttempts).map (attemptTime w.now) := by
    rw [h.attempts, h.fired]
    rfl
  have hscans : w.scans =
      (List.range w.patchAttempts).flatMap fun k => scanAt (k + 1) (attemptTime w.now k) := by
    rw [h.attempts, h.scans]
    rfl
  rw [QEMUHelper.framebufferMatched]
  dsimp only
  split
  · rename_i htimer
    refine ⟨hle, hfired, hscans, fun _ => ⟨htimer, rfl, ?_⟩, fun hstopped => ?_, fun d hd => ?_⟩
    · change some (w.now + 5000) =
        if w.patchAttempts < 5 then some (attemptTime w.now w.patchAttempts) else none
      rw [h.attempts]
      rfl
    · change w.running = false at hstopped
      rw [← h.timer, htimer] at hstopped
      cases hstopped
    · obtain rfl := Option.some.inj hd
      exact Nat.le_add_right _ _
  · rename_i htimer
    -- The helper has been stopped.
    have hnone : w.deadline = none := h.deadline
    refine ⟨hle, hfired, hscans, fun hrunning => ?_, fun _ => hnone, fun d hd => ?_⟩
    · change w.running = true at hrunning
      rw [h.timer] at htimer
      exact absurd hrunning htimer
    · change w.deadline = some d at hd
      rw [hnone] at hd
      cases hd

/-- Before the first framebuffer. -/
theorem timeline_of_nil (hnone : w.matched = []) : Timeline w ↔ Idle w := by
  rw [Timeline, hnone]

/-- After the first one. -/
theorem timeline_of_single {m fb : ℕ} (hone : w.matched = [(m, fb)]) :
    Timeline w ↔ Single m fb w := by
  rw [Timeline, hone]

/-- After the second one nothing is said of the times. -/
theorem timeline_of_two {p q : ℕ × ℕ} {rest : List (ℕ × ℕ)}
    (hmore : w.matched = p :: q :: rest) : Timeline w := by
  rw [Timeline, hmore]
  trivial

/-- What keeps the framebuffers that have appeared, keeps the timeline if it does so in both
cases. -/
theorem Timeline.of_matched (h : Timeline w) (hmatched : t.matched = w.matched)
    (hidle : Idle w → Idle t) (hsingle : ∀ m fb, Single m fb w → Single m fb t) :
    Timeline t := by
  rw [Timeline, hmatched]
  rw [Timeline] at h
  split
  · rename_i heq
    rw [heq] at h
    exact hidle h
  · rename_i m fb heq
    rw [heq] at h
    exact hsingle m fb h
  · trivial

/-- **A step** on time keeps the times of the attempts. -/
theorem Timeline.step (h : Timeline w) {a : HelperAction} (honTime : OnTime w a)
    (hstep : w.step a = some t) : Timeline t := by
  cases a with
  | tick ms =>
    obtain rfl := Option.some.inj hstep
    exact h.of_matched rfl (fun hi => ⟨hi.attempts, hi.fired, hi.scans, hi.deadline, hi.timer⟩)
      fun m fb hs => ⟨hs.le, hs.fired, hs.scans, hs.running, hs.stopped, honTime⟩
  | framebufferMatched fb =>
    obtain rfl := Option.some.inj hstep
    have hmatched : (w.framebufferMatched fb).matched = w.matched ++ [(w.now, fb)] := by
      rw [QEMUHelper.framebufferMatched]
      dsimp only
      split <;> rfl
    cases hw : w.matched with
    | nil =>
      rw [hw] at hmatched
      rw [timeline_of_nil hw] at h
      exact (timeline_of_single hmatched).mpr (h.framebufferMatched fb)
    | cons p rest =>
      rw [hw] at hmatched
      cases rest with
      | nil => exact timeline_of_two hmatched
      | cons q rest => exact timeline_of_two hmatched
  | timerFired =>
    rw [QEMUHelper.step] at hstep
    split at hstep
    · cases hstep
    rename_i d hdeadline
    split at hstep
    · rename_i hd
      obtain rfl := Option.some.inj hstep
      have hmatched : ({ w with deadline := none } : QEMUHelper).timerFired.matched =
          w.matched := by
        rw [QEMUHelper.timerFired]
        dsimp only
        split
        · rfl
        · rw [scanned_eq]
          split <;> rfl
      refine h.of_matched hmatched (fun hi => ?_) fun m fb hs => hs.timerFired hdeadline hd
      rw [hi.deadline] at hdeadline
      cases hdeadline
    · cases hstep
  | stop =>
    rw [QEMUHelper.step] at hstep
    split at hstep
    · rename_i hrunning
      obtain rfl := Option.some.inj hstep
      refine h.of_matched rfl (fun hi => ?_) fun m fb hs => hs.stop hrunning
      refine ⟨hi.attempts, hi.fired, hi.scans, ?_, rfl⟩
      change (if w.timer then none else w.deadline) = none
      rw [hi.deadline, ite_self]
    · cases hstep

/-! ### The framebuffers -/

/-- The framebuffers that the helper has retained and not released: of those that had appeared
at `stop`, the last one has been released. -/
def retained (w : QEMUHelper) : Multiset ℕ :=
  ((if w.running then w.matched
    else (w.matched.take w.atStop).dropLast ++ w.matched.drop w.atStop).map Prod.snd : List ℕ)

/-- **The invariant** of the framebuffers. -/
structure Retains (w : QEMUHelper) : Prop where
  held : holdings w.log = some w.retained
  atStop : w.atStop ≤ w.matched.length
  current : w.running = true → w.gFramebuffer = w.matched.getLast?.map Prod.snd
  timer : w.timer = false → w.deadline = none
  stopped : w.running = false → w.timer = false

/-- At the start nothing is retained. -/
theorem retains_start (now : ℕ) (timer : Bool) : Retains (start now timer) :=
  ⟨rfl, Nat.le_refl _, fun _ => rfl, fun _ => rfl, (by rintro ⟨⟩)⟩

namespace Retains

/-- While the helper runs, `gFramebuffer` has the last framebuffer. -/
theorem retained_eq (h : Retains w) (hrunning : w.running = true) :
    w.retained = heldBy w.gFramebuffer (w.matched.dropLast.map Prod.snd) := by
  rw [retained, if_pos hrunning, h.current hrunning]
  rcases List.eq_nil_or_concat w.matched with hnil | ⟨init, p, hp⟩
  · rw [hnil]
    rfl
  · rw [hp, List.concat_eq_append, List.dropLast_concat, List.getLast?_concat, List.map_append]
    exact Multiset.coe_eq_coe.mpr (List.perm_append_singleton _ _)

/-- The framebuffer is used. -/
theorem use (h : Retains w) (hrunning : w.running = true) {fb : ℕ}
    (hfb : w.gFramebuffer = some fb) :
    [ResourceUse.use fb, ResourceUse.use fb].foldlM ResourceUse.next w.retained =
      some w.retained := by
  rw [h.retained_eq hrunning, hfb]
  have huses : (List.replicate 2 (ResourceUse.use fb)).foldlM ResourceUse.next
      (fb ::ₘ ((w.matched.dropLast.map Prod.snd : List ℕ) : Multiset ℕ)) = some (fb ::ₘ _) :=
    foldlM_use 2
  exact huses

/-- A timer that is set belongs to a helper that runs. -/
theorem running_of_deadline (h : Retains w) {d : ℕ} (hdeadline : w.deadline = some d) :
    w.running = true := by
  cases hrunning : w.running with
  | true => rfl
  | false =>
    rw [h.timer (h.stopped hrunning)] at hdeadline
    cases hdeadline

/-- The framebuffer that has appeared is retained on top of those before it. -/
theorem framebufferMatched (h : Retains w) (fb : ℕ) : Retains (w.framebufferMatched fb) := by
  have hmatched : (w.framebufferMatched fb).matched = w.matched ++ [(w.now, fb)] := by
    rw [QEMUHelper.framebufferMatched]
    dsimp only
    split <;> rfl
  have hretained : (w.framebufferMatched fb).retained = fb ::ₘ w.retained := by
    have hother : (w.framebufferMatched fb).running = w.running ∧
        (w.framebufferMatched fb).atStop = w.atStop := by
      rw [QEMUHelper.framebufferMatched]
      dsimp only
      split <;> exact ⟨rfl, rfl⟩
    have hlate : (if w.running then w.matched ++ [(w.now, fb)]
        else ((w.matched ++ [(w.now, fb)]).take w.atStop).dropLast ++
          (w.matched ++ [(w.now, fb)]).drop w.atStop) =
        (if w.running then w.matched
          else (w.matched.take w.atStop).dropLast ++ w.matched.drop w.atStop) ++
          [(w.now, fb)] := by
      split
      · rfl
      · rw [List.take_append_of_le_length h.atStop, List.drop_append_of_le_length h.atStop,
          List.append_assoc]
    rw [retained, hother.1, hother.2, hmatched, hlate, List.map_append]
    exact Multiset.coe_eq_coe.mpr (List.perm_append_singleton _ _)
  have hlog : (w.framebufferMatched fb).log =
      w.log ++ [ResourceUse.acquire fb, ResourceUse.use fb] := by
    rw [QEMUHelper.framebufferMatched]
    dsimp only
    split <;> rfl
  have hheld : holdings (w.framebufferMatched fb).log =
      some (w.framebufferMatched fb).retained := by
    rw [hlog, holdings_append_of h.held, hretained, List.foldlM_cons, next_acquire,
      Option.bind_eq_bind, Option.bind_some, List.foldlM_cons, next_use]
    rfl
  have hcurrent : some fb = (w.matched ++ [(w.now, fb)]).getLast?.map Prod.snd := by
    rw [List.getLast?_concat]
    rfl
  have hatStop : w.atStop ≤ (w.matched ++ [(w.now, fb)]).length := by
    rw [List.length_append]
    exact h.atStop.trans (Nat.le_add_right _ _)
  by_cases htimer : w.timer = true
  · rw [QEMUHelper.framebufferMatched] at hheld ⊢
    dsimp only at hheld ⊢
    rw [if_pos htimer] at hheld ⊢
    refine ⟨hheld, hatStop, fun _ => hcurrent, fun hnone => ?_, h.stopped⟩
    change w.timer = false at hnone
    rw [htimer] at hnone
    cases hnone
  · rw [QEMUHelper.framebufferMatched] at hheld ⊢
    dsimp only at hheld ⊢
    rw [if_neg htimer] at hheld ⊢
    exact ⟨hheld, hatStop, fun _ => hcurrent, h.timer, h.stopped⟩

/-- The timer uses the framebuffer that is retained. -/
theorem timerFired (h : Retains w) {d : ℕ} (hdeadline : w.deadline = some d) :
    Retains ({ w with deadline := none } : QEMUHelper).timerFired := by
  have hrunning := h.running_of_deadline hdeadline
  rw [QEMUHelper.timerFired]
  dsimp only
  split
  · exact ⟨h.held, h.atStop, h.current, fun _ => rfl, h.stopped⟩
  rename_i fb hfb
  have hpatched : Retains (({ w with deadline := none } : QEMUHelper).patch fb).scanned := by
    refine ⟨?_, h.atStop, h.current, fun _ => rfl, h.stopped⟩
    change holdings (w.log ++ [ResourceUse.use fb, ResourceUse.use fb]) = some w.retained
    rw [holdings_append_of h.held, h.use hrunning hfb]
  rw [scanned_eq]
  split
  · refine ⟨hpatched.held, hpatched.atStop, hpatched.current, fun hnone => ?_, hpatched.stopped⟩
    change w.timer = false at hnone
    rw [h.timer hnone] at hdeadline
    cases hdeadline
  · exact hpatched

/-- **A step** keeps the account of the framebuffers. -/
theorem step (h : Retains w) {a : HelperAction} (hstep : w.step a = some t) : Retains t := by
  cases a with
  | tick ms =>
    obtain rfl := Option.some.inj hstep
    exact ⟨h.held, h.atStop, h.current, h.timer, h.stopped⟩
  | framebufferMatched fb =>
    obtain rfl := Option.some.inj hstep
    exact h.framebufferMatched fb
  | timerFired =>
    rw [QEMUHelper.step] at hstep
    split at hstep
    · cases hstep
    rename_i d hdeadline
    split at hstep
    · obtain rfl := Option.some.inj hstep
      exact h.timerFired hdeadline
    · cases hstep
  | stop =>
    rw [QEMUHelper.step] at hstep
    split at hstep
    · rename_i hrunning
      obtain rfl := Option.some.inj hstep
      refine ⟨?_, Nat.le_refl _, (by rintro ⟨⟩), fun _ => ?_, fun _ => rfl⟩
      · change holdings (w.log ++ w.gFramebuffer.toList.map ResourceUse.release) =
          some ((((w.matched.take w.matched.length).dropLast ++
            w.matched.drop w.matched.length).map Prod.snd : List ℕ) : Multiset ℕ)
        rw [holdings_append_of h.held, h.retained_eq hrunning, release_heldBy, List.take_length,
          List.drop_length, List.append_nil]
      · change (if w.timer then none else w.deadline) = none
        split
        · rfl
        · rename_i htimer
          exact h.timer (Bool.not_eq_true _ ▸ htimer)
    · cases hstep

end Retains

end QEMUHelper

open QEMUHelper

/-- **Attempts and scans**: after the first four attempts each framebuffer that appears is good
for one more at most, the attempts are five seconds apart, and there are two scans at most. -/
theorem helper_attempts {now : ℕ} {timer : Bool} {as : List HelperAction} {w : QEMUHelper}
    (h : Run QEMUHelper.step Always (QEMUHelper.start now timer) as w) :
    (w.fired.length ≤ if w.matched = [] then 0 else 4 + w.matched.length) ∧
      (w.fired.Pairwise fun f g => f + 5000 ≤ g) ∧ w.scans.length ≤ 2 := by
  have hinv : Attempts w :=
    h.invariant (fun _ _ _ hI _ hstep => hI.step hstep) (attempts_start now timer)
  refine ⟨?_, hinv.gap, ?_⟩
  · rw [hinv.count]
    split
    · rename_i hnone
      exact Nat.le_of_eq (hinv.unmatched hnone).2
    · exact (Nat.le_add_right _ _).trans hinv.bound
  · rw [hinv.scans, scansOf]
    split <;> split <;> omega

/-- Two framebuffers appear, and one more after the helper has been stopped. -/
def threeFramebuffers : List HelperAction :=
  [.framebufferMatched 7, .tick 5000, .timerFired, .tick 10000, .timerFired,
    .framebufferMatched 8, .stop, .framebufferMatched 9]

/-- Seven attempts were possible, and two have been made. -/
theorem helper_attempts_twice : ∃ w,
    Run QEMUHelper.step Always (QEMUHelper.start 0 true) threeFramebuffers w ∧
      w.fired = [5000, 15000] ∧ w.fired.length ≤ 7 ∧ w.scans.length ≤ 2 := by
  have hrun : (threeFramebuffers.foldlM QEMUHelper.step (QEMUHelper.start 0 true)).map
      (fun w => (w.fired, w.matched.length)) = some ([5000, 15000], 3) := by decide
  obtain ⟨w, hw, hend⟩ := Option.map_eq_some_iff.mp hrun
  obtain ⟨hfired, hmatched⟩ : w.fired = [5000, 15000] ∧ w.matched.length = 3 := by
    simpa using hend
  have hattempts := helper_attempts (run_of_foldlM hw)
  rw [if_neg (List.ne_nil_of_length_eq_add_one hmatched), hmatched] at hattempts
  exact ⟨w, run_of_foldlM hw, hfired, hattempts.1, hattempts.2.2⟩

/-- **The timeline** of a framebuffer that has appeared at `m`, if it is the only one and the
timer is on time: attempts after 5, 15, 25, 35 and 45 seconds, scans after 15 and 35. -/
theorem helper_timeline {now m fb : ℕ} {as : List HelperAction} {w : QEMUHelper}
    (h : Run QEMUHelper.step OnTime (QEMUHelper.start now true) as w)
    (hmatched : w.matched = [(m, fb)]) :
    w.fired = (List.range w.fired.length).map (attemptTime m) ∧
      (∀ s, s ∈ w.scans ↔ s = m + 15000 ∧ 2 ≤ w.fired.length ∨
        s = m + 35000 ∧ 4 ≤ w.fired.length) ∧
      w.fired.length ≤ 5 ∧
      (w.running = true → ∀ k < 5, attemptTime m k < w.now → k < w.fired.length) := by
  have hinv : Single m fb w := (timeline_of_single hmatched).mp
    (h.invariant (fun _ _ _ hI hC hstep => Timeline.step hI hC hstep) (timeline_start now))
  have hlength : w.fired.length = w.patchAttempts := by
    rw [hinv.fired, List.length_map, List.length_range]
  have hfirst : attemptTime m 1 = m + 15000 := by
    unfold attemptTime
    omega
  have hsecond : attemptTime m 3 = m + 35000 := by
    unfold attemptTime
    omega
  rw [hlength]
  refine ⟨hinv.fired, fun s => ?_, hinv.le, fun hrunning k hk hpast => ?_⟩
  · rw [hinv.scans, List.mem_flatMap]
    constructor
    · rintro ⟨k, hk, hs⟩
      rw [List.mem_range] at hk
      rw [scanAt] at hs
      split at hs
      · rename_i hscan
        rw [List.mem_singleton.mp hs, attemptTime]
        omega
      · cases hs
    · rintro (⟨rfl, hk⟩ | ⟨rfl, hk⟩)
      · refine ⟨1, List.mem_range.mpr hk, ?_⟩
        rw [scanAt, if_pos (.inl rfl), List.mem_singleton, hfirst]
      · refine ⟨3, List.mem_range.mpr hk, ?_⟩
        rw [scanAt, if_pos (.inr rfl), List.mem_singleton, hsecond]
  · by_contra hmore
    have hle := Nat.le_of_not_lt hmore
    have hnext := (hinv.running hrunning).2.2
    rw [if_pos (by omega)] at hnext
    have hnow := hinv.onTime _ hnext
    rw [attemptTime] at hnow hpast
    omega

/-- A framebuffer that appears after a second, and all of its attempts. -/
def fiveAttempts : List HelperAction :=
  [.tick 1000, .framebufferMatched 7, .tick 5000, .timerFired, .tick 10000, .timerFired,
    .tick 10000, .timerFired, .tick 10000, .timerFired, .tick 10000, .timerFired, .tick 60000]

/-- There are five attempts. -/
theorem helper_timeline_five : ∃ w,
    Run QEMUHelper.step OnTime (QEMUHelper.start 0 true) fiveAttempts w ∧
      w.fired.length = 5 ∧ ∀ s, s ∈ w.scans ↔ s = 16000 ∨ s = 36000 := by
  have hrun : (fiveAttempts.foldlM (guarded QEMUHelper.step OnTime)
      (QEMUHelper.start 0 true)).map (fun w => (w.matched, w.fired.length)) =
        some ([(1000, 7)], 5) := by decide
  obtain ⟨w, hw, hend⟩ := Option.map_eq_some_iff.mp hrun
  obtain ⟨hmatched, hfired⟩ : w.matched = [(1000, 7)] ∧ w.fired.length = 5 := by
    simpa using hend
  refine ⟨w, run_of_guarded hw, hfired, fun s => ?_⟩
  rw [(helper_timeline (run_of_guarded hw) hmatched).2.1 s, hfired]
  omega

end DockerMacos
