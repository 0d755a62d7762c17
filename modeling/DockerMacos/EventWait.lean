import DockerMacos.Run
import Mathlib.Logic.Function.Basic

/-!
# Waiting for an Event

Threads wait for conditions on a shared state, and others change it. A thread that waits tests
its condition, enters the queue of an event, tests once more, wakes the queue itself if the
condition holds by now, and blocks until it is taken out of the queue; then it starts again. A
thread that changes the state wakes the whole queue afterwards.

## Interleaving

Another thread may run between any two of these steps. What could go wrong is that the state
changes and the queue is woken between a thread's test and its block: the second test, behind
the entry into the queue, is there for this.

## The atomic wait

`AtomicWait` is the same system with a wait that is one step, taken when the condition holds. A
system that is proved with the atomic wait may be run with the loop, as every run with the loop
comes to one with the atomic wait.

## Main results

* `EventWait.NoLost.run`: a thread that is blocked although its condition holds is about to be
  woken.
* `EventWait.passes_within`: how many steps a thread takes until its wait is over, once its
  condition holds and stays.
* `EventWait.refines`: every run is one of the system with the atomic wait.
-/

namespace DockerMacos

/-- What a thread does next. -/
inductive WaitThread (κ υ : Type*)
  /-- It tests its condition. -/
  | test (k : κ)
  /-- It enters the queue. -/
  | assertWait (k : κ)
  /-- It tests its condition again. -/
  | retest (k : κ) (queued : Bool)
  /-- It wakes the queue, and itself with it. -/
  | wakeSelf (k : κ) (queued : Bool)
  /-- It blocks, as long as it is in the queue. -/
  | block (k : κ) (queued : Bool)
  /-- It changes the state. -/
  | store (u : υ)
  /-- It has changed the state, and wakes the queue. -/
  | wakeup
  deriving DecidableEq

/-- The shared state, and the threads at work. -/
structure EventWait (σ κ υ : Type*) where
  shared : σ
  threads : ℕ → Option (WaitThread κ υ)

/-- What happens next. -/
inductive WaitAction (κ υ : Type*)
  /-- A thread begins to wait. -/
  | wait (i : ℕ) (k : κ)
  /-- A thread begins a change. -/
  | set (i : ℕ) (u : υ)
  /-- A thread goes on; `asserted` tells whether it gets into the queue. -/
  | next (i : ℕ) (asserted : Bool)
  deriving DecidableEq

variable {σ κ υ : Type*}

namespace WaitThread

/-- The thread after the queue has been woken. -/
def awaken : WaitThread κ υ → WaitThread κ υ
  | retest k _ => retest k false
  | wakeSelf k _ => wakeSelf k false
  | block k _ => block k false
  | p => p

/-- The thread is about to wake the queue. -/
def Wakes : WaitThread κ υ → Prop
  | wakeSelf _ _ => True
  | wakeup => True
  | _ => False

/-- The condition that the thread waits for. -/
def waitsFor : WaitThread κ υ → Option κ
  | test k => some k
  | assertWait k => some k
  | retest k _ => some k
  | wakeSelf k _ => some k
  | block k _ => some k
  | store _ => none
  | wakeup => none

/-- The steps of the thread until its wait is over, at most. -/
def rank : WaitThread κ υ → ℕ
  | test _ => 1
  | assertWait _ => 5
  | retest _ _ => 4
  | wakeSelf _ _ => 3
  | block _ _ => 2
  | store _ => 0
  | wakeup => 0

/-- A thread that is woken still waits for the same condition. -/
@[simp] theorem waitsFor_awaken (p : WaitThread κ υ) : p.awaken.waitsFor = p.waitsFor := by
  cases p <;> rfl

/-- Being woken is no step of the thread. -/
@[simp] theorem rank_awaken (p : WaitThread κ υ) : p.awaken.rank = p.rank := by
  cases p <;> rfl

/-- A thread that has been woken is not asleep. -/
theorem awaken_ne_block (p : WaitThread κ υ) (k : κ) : p.awaken ≠ block k true := by
  cases p <;> simp [awaken]

/-- A wait takes at most five more steps. -/
theorem rank_le (p : WaitThread κ υ) : p.rank ≤ 5 := by
  cases p <;> simp [rank]

end WaitThread

namespace EventWait

open WaitThread

/-- Nobody waits yet. -/
def start (s : σ) : EventWait σ κ υ where
  shared := s
  threads := fun _ => none

/-- Thread `i` goes on with `p`. -/
def put (w : EventWait σ κ υ) (i : ℕ) (p : WaitThread κ υ) : EventWait σ κ υ :=
  { w with threads := Function.update w.threads i (some p) }

/-- Thread `i` is done. -/
def leave (w : EventWait σ κ υ) (i : ℕ) : EventWait σ κ υ :=
  { w with threads := Function.update w.threads i none }

/-- The queue is woken. -/
def wakeAll (w : EventWait σ κ υ) : EventWait σ κ υ :=
  { w with threads := fun j => (w.threads j).map awaken }

section Step

variable (holds : κ → σ → Bool) (update : υ → σ → σ)

/-- The next step of thread `i`. -/
def advance (w : EventWait σ κ υ) (i : ℕ) (asserted : Bool) :
    WaitThread κ υ → Option (EventWait σ κ υ)
  | test k => some (if holds k w.shared then w.leave i else w.put i (assertWait k))
  | assertWait k => some (w.put i (if asserted then retest k true else test k))
  | retest k queued =>
      some (w.put i (if holds k w.shared then wakeSelf k queued else block k queued))
  | wakeSelf k queued => some (w.put i (block k queued)).wakeAll
  | block k queued => if queued then none else some (w.put i (test k))
  | store u => some ({ w with shared := update u w.shared }.put i wakeup)
  | wakeup => some (w.leave i).wakeAll

/-- The step function. -/
def step (w : EventWait σ κ υ) : WaitAction κ υ → Option (EventWait σ κ υ)
  | .wait i k => if (w.threads i).isNone then some (w.put i (test k)) else none
  | .set i u => if (w.threads i).isNone then some (w.put i (store u)) else none
  | .next i asserted => (w.threads i).bind (w.advance holds update i asserted)

end Step

variable {holds : κ → σ → Bool} {update : υ → σ → σ} {w t : EventWait σ κ υ} {i : ℕ}

/-- A thread that goes on does not change the shared state by that. -/
@[simp] theorem put_shared (p : WaitThread κ υ) : (w.put i p).shared = w.shared := rfl

/-- Nor does one that is done. -/
@[simp] theorem leave_shared : (w.leave i).shared = w.shared := rfl

/-- Nor does the wakeup. -/
@[simp] theorem wakeAll_shared : w.wakeAll.shared = w.shared := rfl

/-- What thread `i` does next. -/
@[simp] theorem put_threads (p : WaitThread κ υ) : (w.put i p).threads i = some p :=
  Function.update_self ..

/-- Thread `i` is done. -/
@[simp] theorem leave_threads : (w.leave i).threads i = none :=
  Function.update_self ..

/-- All threads are woken. -/
@[simp] theorem wakeAll_threads (j : ℕ) : w.wakeAll.threads j = (w.threads j).map awaken := rfl

/-- The other threads go on as they were. -/
theorem put_threads_of_ne {j : ℕ} (hj : j ≠ i) (p : WaitThread κ υ) :
    (w.put i p).threads j = w.threads j :=
  Function.update_of_ne hj _ _

/-- The other threads stay when one is done. -/
theorem leave_threads_of_ne {j : ℕ} (hj : j ≠ i) : (w.leave i).threads j = w.threads j :=
  Function.update_of_ne hj _ _

/-! ### No wakeup is lost -/

/-- A thread is about to wake the queue. -/
def Waking (w : EventWait σ κ υ) : Prop := ∃ j p, w.threads j = some p ∧ p.Wakes

/-- A thread that is blocked although its condition holds is about to be woken. -/
def NoLost (holds : κ → σ → Bool) (w : EventWait σ κ υ) : Prop :=
  ∀ i k, w.threads i = some (block k true) → holds k w.shared = true → w.Waking

/-- Right after a wakeup nobody is asleep. -/
theorem noLost_wakeAll : NoLost holds w.wakeAll := by
  intro i k hblock
  rw [wakeAll_threads, Option.map_eq_some_iff] at hblock
  obtain ⟨p, -, hp⟩ := hblock
  exact absurd hp (p.awaken_ne_block k)

/-- What another thread is about to do stays. -/
theorem Waking.put {p : WaitThread κ υ} (h : w.Waking)
    (hold : ∀ q, w.threads i = some q → ¬q.Wakes) : (w.put i p).Waking := by
  obtain ⟨j, q, hq, hwakes⟩ := h
  have hj : j ≠ i := fun heq => hold q (heq ▸ hq) hwakes
  exact ⟨j, q, by rw [put_threads_of_ne hj, hq], hwakes⟩

/-- A thread that does not wake the queue may go on, if it does not fall asleep at the wrong time.
-/
theorem NoLost.put (h : NoLost holds w) {p : WaitThread κ υ}
    (hold : ∀ q, w.threads i = some q → ¬q.Wakes)
    (hnew : ∀ k, p = block k true → holds k w.shared = false) : NoLost holds (w.put i p) := by
  intro j k hblock hholds
  by_cases hj : j = i
  · rw [hj, put_threads, Option.some_inj] at hblock
    have hfalse := hnew k hblock
    rw [put_shared, hfalse] at hholds
    cases hholds
  · rw [put_threads_of_ne hj] at hblock
    exact (h j k hblock hholds).put hold

/-- A thread that does not wake the queue may leave. -/
theorem NoLost.leave (h : NoLost holds w) (hold : ∀ q, w.threads i = some q → ¬q.Wakes) :
    NoLost holds (w.leave i) := by
  intro j k hblock hholds
  have hj : j ≠ i := by
    rintro rfl
    rw [leave_threads] at hblock
    cases hblock
  rw [leave_threads_of_ne hj] at hblock
  obtain ⟨l, q, hq, hwakes⟩ := h j k hblock hholds
  have hl : l ≠ i := fun heq => hold q (heq ▸ hq) hwakes
  exact ⟨l, q, by rw [leave_threads_of_ne hl, hq], hwakes⟩

/-- One step of a thread loses no wakeup. -/
theorem NoLost.advance (h : NoLost holds w) {asserted : Bool} {p : WaitThread κ υ}
    (hp : w.threads i = some p) (hstep : w.advance holds update i asserted p = some t) :
    NoLost holds t := by
  have hold : ¬p.Wakes → ∀ q, w.threads i = some q → ¬q.Wakes := by
    rintro hwakes q hq
    rw [hp, Option.some_inj] at hq
    rwa [← hq]
  cases p with
  | test k =>
    obtain rfl := Option.some.inj hstep
    split
    · exact h.leave (hold fun hw => hw)
    · exact h.put (hold fun hw => hw) (by rintro _ ⟨⟩)
  | assertWait k =>
    obtain rfl := Option.some.inj hstep
    refine h.put (hold fun hw => hw) fun k' hk' => ?_
    cases asserted <;> cases hk'
  | retest k queued =>
    obtain rfl := Option.some.inj hstep
    refine h.put (hold fun hw => hw) fun k' hk' => ?_
    -- it blocks only after it has seen that its condition does not hold
    split at hk'
    · cases hk'
    · rename_i hfalse
      cases hk'
      exact Bool.not_eq_true _ ▸ hfalse
  | wakeSelf k queued =>
    obtain rfl := Option.some.inj hstep
    exact noLost_wakeAll
  | block k queued =>
    rw [EventWait.advance] at hstep
    split at hstep
    · cases hstep
    · obtain rfl := Option.some.inj hstep
      exact h.put (hold fun hw => hw) (by rintro _ ⟨⟩)
  | store u =>
    obtain rfl := Option.some.inj hstep
    intro _ _ _ _
    exact ⟨i, wakeup, put_threads _, trivial⟩
  | wakeup =>
    obtain rfl := Option.some.inj hstep
    exact noLost_wakeAll

/-- Every step keeps that no wakeup is lost. -/
theorem NoLost.step (h : NoLost holds w) {a : WaitAction κ υ}
    (hstep : w.step holds update a = some t) : NoLost holds t := by
  cases a with
  | wait i k =>
    rw [EventWait.step] at hstep
    split at hstep
    · rename_i hnone
      obtain rfl := Option.some.inj hstep
      refine h.put (fun q hq => ?_) (by rintro _ ⟨⟩)
      rw [hq] at hnone
      cases hnone
    · cases hstep
  | set i u =>
    rw [EventWait.step] at hstep
    split at hstep
    · rename_i hnone
      obtain rfl := Option.some.inj hstep
      refine h.put (fun q hq => ?_) (by rintro _ ⟨⟩)
      rw [hq] at hnone
      cases hnone
    · cases hstep
  | next i asserted =>
    obtain ⟨p, hp, hadvance⟩ := Option.bind_eq_some_iff.mp hstep
    exact h.advance hp hadvance

/-- **No lost wakeup.** -/
theorem NoLost.run {C : EventWait σ κ υ → WaitAction κ υ → Prop} {as : List (WaitAction κ υ)}
    (h : Run (EventWait.step holds update) C w as t) (hw : NoLost holds w) : NoLost holds t :=
  h.invariant (fun _ _ _ hI _ hstep => hI.step hstep) hw

/-- A thread that wakes the queue can go on, and lets a blocked thread go on. -/
theorem waking_next {j : ℕ} {k : κ} {q : WaitThread κ υ} (hq : w.threads j = some q)
    (hwakes : q.Wakes) (hblock : w.threads i = some (block k true)) :
    ∃ t, (∀ asserted, w.step holds update (.next j asserted) = some t) ∧
      t.threads i = some (block k false) := by
  have hij : i ≠ j := by
    rintro rfl
    rw [hblock, Option.some_inj] at hq
    rw [← hq] at hwakes
    exact hwakes
  cases q with
  | wakeSelf k' queued =>
    refine ⟨(w.put j (block k' queued)).wakeAll, fun asserted => ?_, ?_⟩
    · rw [EventWait.step, hq]
      rfl
    · rw [wakeAll_threads, put_threads_of_ne hij, hblock]
      rfl
  | wakeup =>
    refine ⟨(w.leave j).wakeAll, fun asserted => ?_, ?_⟩
    · rw [EventWait.step, hq]
      rfl
    · rw [wakeAll_threads, leave_threads_of_ne hij, hblock]
      rfl
  | test k' => exact hwakes.elim
  | assertWait k' => exact hwakes.elim
  | retest k' queued => exact hwakes.elim
  | block k' queued => exact hwakes.elim
  | store u => exact hwakes.elim

/-! ### The end of a wait -/

/-- The number is not taken again, and nobody changes the state. -/
def Quiet (i : ℕ) (w : EventWait σ κ υ) : WaitAction κ υ → Prop
  | .wait j _ => j ≠ i
  | .set j _ => j ≠ i
  | .next j _ => ∀ u, w.threads j ≠ some (store u)

/-- The step is one of thread `i`. -/
def ofThread (i : ℕ) : WaitAction κ υ → Bool
  | .next j _ => j == i
  | _ => false

/-- The steps that thread `i` still takes for its wait. -/
def rankOf (w : EventWait σ κ υ) (i : ℕ) : ℕ := (w.threads i).elim 0 rank

/-- Thread `i` waits for `k`, or is done. -/
def WaitsOrDone (w : EventWait σ κ υ) (i : ℕ) (k : κ) : Prop :=
  ∀ p, w.threads i = some p → p.waitsFor = some k

/-- A wakeup takes no step off the wait of a thread. -/
@[simp] theorem rankOf_wakeAll : w.wakeAll.rankOf i = w.rankOf i := by
  rw [rankOf, rankOf, wakeAll_threads]
  cases w.threads i with
  | none => rfl
  | some p => exact p.rank_awaken

/-- A wakeup does not end a wait by itself. -/
theorem WaitsOrDone.wakeAll {k : κ} (h : w.WaitsOrDone i k) : w.wakeAll.WaitsOrDone i k := by
  intro q hq
  rw [wakeAll_threads, Option.map_eq_some_iff] at hq
  obtain ⟨p, hp, rfl⟩ := hq
  rw [waitsFor_awaken, h p hp]

/-- A step of thread `i`, whose condition holds, brings it nearer to the end of its wait. -/
theorem advance_own {k : κ} {p : WaitThread κ υ} {asserted : Bool}
    (hp : p.waitsFor = some k) (hholds : holds k w.shared = true)
    (hstep : w.advance holds update i asserted p = some t) :
    t.shared = w.shared ∧ t.WaitsOrDone i k ∧ t.rankOf i + 1 ≤ p.rank := by
  have hput : ∀ q : WaitThread κ υ, q.waitsFor = some k → (w.put i q).WaitsOrDone i k := by
    rintro q hq r hr
    rw [put_threads, Option.some_inj] at hr
    rwa [← hr]
  cases p with
  | test k' =>
    obtain rfl := Option.some.inj hp
    obtain rfl := Option.some.inj hstep
    rw [if_pos hholds]
    refine ⟨rfl, fun q hq => ?_, ?_⟩
    · rw [leave_threads] at hq
      cases hq
    · rw [rankOf, leave_threads]
      exact Nat.le_refl _
  | assertWait k' =>
    obtain rfl := Option.some.inj hp
    obtain rfl := Option.some.inj hstep
    refine ⟨rfl, hput _ ?_, ?_⟩
    · cases asserted <;> rfl
    · rw [rankOf, put_threads]
      cases asserted <;> simp [rank]
  | retest k' queued =>
    obtain rfl := Option.some.inj hp
    obtain rfl := Option.some.inj hstep
    rw [if_pos hholds]
    refine ⟨rfl, hput _ rfl, ?_⟩
    rw [rankOf, put_threads]
    exact Nat.le_refl _
  | wakeSelf k' queued =>
    obtain rfl := Option.some.inj hp
    obtain rfl := Option.some.inj hstep
    refine ⟨rfl, (hput _ rfl).wakeAll, ?_⟩
    rw [rankOf_wakeAll, rankOf, put_threads]
    exact Nat.le_refl _
  | block k' queued =>
    obtain rfl := Option.some.inj hp
    rw [advance] at hstep
    split at hstep
    · cases hstep
    · obtain rfl := Option.some.inj hstep
      refine ⟨rfl, hput _ rfl, ?_⟩
      rw [rankOf, put_threads]
      exact Nat.le_refl _
  | store u => cases hp
  | wakeup => cases hp

/-- A step of another thread that does not change the state leaves thread `i` where it is. -/
theorem advance_other {k : κ} {p : WaitThread κ υ} {j : ℕ} {asserted : Bool} (hj : j ≠ i)
    (hp : ∀ u, p ≠ store u) (hwaits : w.WaitsOrDone i k)
    (hstep : w.advance holds update j asserted p = some t) :
    t.shared = w.shared ∧ t.WaitsOrDone i k ∧ t.rankOf i = w.rankOf i := by
  have hput : ∀ q, (w.put j q).WaitsOrDone i k ∧ (w.put j q).rankOf i = w.rankOf i := by
    intro q
    rw [WaitsOrDone, rankOf, put_threads_of_ne hj.symm]
    exact ⟨hwaits, rfl⟩
  have hleave : (w.leave j).WaitsOrDone i k ∧ (w.leave j).rankOf i = w.rankOf i := by
    rw [WaitsOrDone, rankOf, leave_threads_of_ne hj.symm]
    exact ⟨hwaits, rfl⟩
  cases p with
  | test k' =>
    obtain rfl := Option.some.inj hstep
    split
    · exact ⟨rfl, hleave⟩
    · exact ⟨rfl, hput _⟩
  | assertWait k' =>
    obtain rfl := Option.some.inj hstep
    exact ⟨rfl, hput _⟩
  | retest k' queued =>
    obtain rfl := Option.some.inj hstep
    exact ⟨rfl, hput _⟩
  | wakeSelf k' queued =>
    obtain rfl := Option.some.inj hstep
    refine ⟨rfl, (hput _).1.wakeAll, ?_⟩
    rw [rankOf_wakeAll, (hput _).2]
  | block k' queued =>
    rw [advance] at hstep
    split at hstep
    · cases hstep
    · obtain rfl := Option.some.inj hstep
      exact ⟨rfl, hput _⟩
  | store u => exact absurd rfl (hp u)
  | wakeup =>
    obtain rfl := Option.some.inj hstep
    refine ⟨rfl, hleave.1.wakeAll, ?_⟩
    rw [rankOf_wakeAll, hleave.2]

/-- A quiet step leaves the state, and counts for thread `i` if it is its own. -/
theorem step_quiet {k : κ} {a : WaitAction κ υ} (hquiet : Quiet i w a)
    (hwaits : w.WaitsOrDone i k) (hholds : holds k w.shared = true)
    (hstep : w.step holds update a = some t) :
    t.shared = w.shared ∧ t.WaitsOrDone i k ∧
      t.rankOf i + (if ofThread i a then 1 else 0) ≤ w.rankOf i := by
  have hput : ∀ {j}, j ≠ i → ∀ q : WaitThread κ υ,
      (w.put j q).WaitsOrDone i k ∧ (w.put j q).rankOf i + 0 ≤ w.rankOf i := by
    intro j hj q
    rw [WaitsOrDone, rankOf, put_threads_of_ne hj.symm]
    exact ⟨hwaits, Nat.le_refl _⟩
  cases a with
  | wait j k' =>
    rw [step] at hstep
    split at hstep
    · obtain rfl := Option.some.inj hstep
      exact ⟨rfl, hput hquiet _⟩
    · cases hstep
  | set j u =>
    rw [step] at hstep
    split at hstep
    · obtain rfl := Option.some.inj hstep
      exact ⟨rfl, hput hquiet _⟩
    · cases hstep
  | next j asserted =>
    obtain ⟨p, hp, hadvance⟩ := Option.bind_eq_some_iff.mp hstep
    by_cases hj : j = i
    · subst hj
      obtain ⟨hshared, hdone, hrank⟩ := advance_own (hwaits p hp) hholds hadvance
      refine ⟨hshared, hdone, ?_⟩
      rw [ofThread, beq_self_eq_true, if_pos rfl]
      have hw : w.rankOf j = p.rank := by
        rw [rankOf, hp]
        rfl
      rwa [hw]
    · have hquiet' : ∀ u, p ≠ store u := fun u heq => hquiet u (by rw [hp, heq])
      obtain ⟨hshared, hdone, hrank⟩ := advance_other hj hquiet' hwaits hadvance
      refine ⟨hshared, hdone, ?_⟩
      rw [ofThread, beq_false_of_ne hj, if_neg Bool.false_ne_true, hrank]
      exact Nat.le_refl _

/-- **A wait comes to its end**: once its condition holds and the state stays, a thread takes no
more steps for it than its rank. -/
theorem passes_within {k : κ} {as : List (WaitAction κ υ)}
    (h : Run (EventWait.step holds update) (Quiet i) w as t) (hwaits : w.WaitsOrDone i k)
    (hholds : holds k w.shared = true) :
    as.countP (ofThread i) + t.rankOf i ≤ w.rankOf i := by
  induction h with
  | nil w => exact Nat.le_of_eq (Nat.zero_add _)
  | cons hquiet hstep _ ih =>
    obtain ⟨hshared, hdone, hrank⟩ := step_quiet hquiet hwaits hholds hstep
    have hrest := ih hdone (by rw [hshared, hholds])
    rw [List.countP_cons]
    omega

/-- A thread that waits can go on, unless it is blocked. -/
theorem step_next_of_waits {k : κ} {p : WaitThread κ υ} (hp : w.threads i = some p)
    (hwaits : p.waitsFor = some k) (hblock : p ≠ block k true) (asserted : Bool) :
    (w.step holds update (.next i asserted)).isSome = true := by
  rw [step, hp, Option.bind_some]
  cases p with
  | block k' queued =>
    obtain rfl := Option.some.inj hwaits
    cases queued with
    | false => rfl
    | true => exact absurd rfl hblock
  | store u => cases hwaits
  | wakeup => cases hwaits
  | test k' => rfl
  | assertWait k' => rfl
  | retest k' queued => rfl
  | wakeSelf k' queued => rfl

end EventWait

/-! ### The atomic wait -/

/-- What a thread does next, where a wait is one step. -/
inductive AtomicThread (κ υ : Type*)
  | wait (k : κ)
  | store (u : υ)
  | stored
  deriving DecidableEq

/-- The shared state, and the threads at work. -/
@[ext] structure AtomicWait (σ κ υ : Type*) where
  shared : σ
  threads : ℕ → Option (AtomicThread κ υ)

/-- What happens next. -/
inductive AtomicAction (κ υ : Type*)
  | wait (i : ℕ) (k : κ)
  | set (i : ℕ) (u : υ)
  | next (i : ℕ)
  deriving DecidableEq

namespace AtomicWait

/-- Thread `i` goes on with `p`, or is done. -/
def put (w : AtomicWait σ κ υ) (i : ℕ) (p : Option (AtomicThread κ υ)) : AtomicWait σ κ υ :=
  { w with threads := Function.update w.threads i p }

variable (holds : κ → σ → Bool) (update : υ → σ → σ)

/-- The step function: a wait is over in a state in which its condition holds. -/
def step (w : AtomicWait σ κ υ) : AtomicAction κ υ → Option (AtomicWait σ κ υ)
  | .wait i k => if (w.threads i).isNone then some (w.put i (some (.wait k))) else none
  | .set i u => if (w.threads i).isNone then some (w.put i (some (.store u))) else none
  | .next i =>
      match w.threads i with
      | none => none
      | some (.wait k) => if holds k w.shared then some (w.put i none) else none
      | some (.store u) =>
          some ({ w with shared := update u w.shared }.put i (some .stored))
      | some .stored => some (w.put i none)

end AtomicWait

namespace EventWait

open WaitThread

/-- What a thread does, without the steps of its wait. -/
def atomicThread : WaitThread κ υ → AtomicThread κ υ
  | test k => .wait k
  | assertWait k => .wait k
  | retest k _ => .wait k
  | wakeSelf k _ => .wait k
  | block k _ => .wait k
  | store u => .store u
  | wakeup => .stored

/-- The system without the steps of the waits. -/
def atomic (w : EventWait σ κ υ) : AtomicWait σ κ υ where
  shared := w.shared
  threads := fun i => (w.threads i).map atomicThread

variable {holds : κ → σ → Bool} {update : υ → σ → σ} {w t : EventWait σ κ υ} {i : ℕ}

/-- Without the steps of the waits, being woken is nothing. -/
@[simp] theorem atomicThread_awaken (p : WaitThread κ υ) :
    atomicThread p.awaken = atomicThread p := by
  cases p <;> rfl

/-- Without the steps of the waits, a wakeup is nothing. -/
@[simp] theorem atomic_wakeAll : w.wakeAll.atomic = w.atomic := by
  refine AtomicWait.ext rfl (funext fun i => ?_)
  change ((w.threads i).map awaken).map atomicThread = (w.threads i).map atomicThread
  rw [Option.map_map]
  exact congrArg (Option.map · (w.threads i)) (funext atomicThread_awaken)

/-- What a thread does next, without the steps of the waits. -/
theorem atomic_put (p : WaitThread κ υ) :
    (w.put i p).atomic = w.atomic.put i (some (atomicThread p)) := by
  refine AtomicWait.ext rfl (funext fun j => ?_)
  by_cases hj : j = i
  · subst hj
    change ((w.put j p).threads j).map atomicThread =
      Function.update w.atomic.threads j (some (atomicThread p)) j
    rw [put_threads, Function.update_self]
    rfl
  · change ((w.put i p).threads j).map atomicThread =
      Function.update w.atomic.threads i (some (atomicThread p)) j
    rw [put_threads_of_ne hj, Function.update_of_ne hj]
    rfl

/-- A thread that is done, without the steps of the waits. -/
theorem atomic_leave : (w.leave i).atomic = w.atomic.put i none := by
  refine AtomicWait.ext rfl (funext fun j => ?_)
  by_cases hj : j = i
  · subst hj
    change ((w.leave j).threads j).map atomicThread =
      Function.update w.atomic.threads j none j
    rw [leave_threads, Function.update_self]
    rfl
  · change ((w.leave i).threads j).map atomicThread =
      Function.update w.atomic.threads i none j
    rw [leave_threads_of_ne hj, Function.update_of_ne hj]
    rfl

/-- A thread that goes on with the same wait. -/
theorem atomic_put_of_eq {p q : WaitThread κ υ} (hp : w.threads i = some p)
    (heq : atomicThread q = atomicThread p) : (w.put i q).atomic = w.atomic := by
  rw [atomic_put, heq]
  refine AtomicWait.ext rfl ?_
  change Function.update w.atomic.threads i _ = w.atomic.threads
  rw [show some (atomicThread p) = w.atomic.threads i by
    change _ = (w.threads i).map atomicThread
    rw [hp]
    rfl]
  exact Function.update_eq_self i _

/-- A step of a thread is a step of the system with the atomic wait, or none. -/
theorem advance_atomic {asserted : Bool} {p : WaitThread κ υ} (hp : w.threads i = some p)
    (hstep : w.advance holds update i asserted p = some t) :
    t.atomic = w.atomic ∨ w.atomic.step holds update (.next i) = some t.atomic := by
  have hthread : w.atomic.threads i = some (atomicThread p) := congrArg (Option.map _) hp
  cases p with
  | test k =>
    obtain rfl := Option.some.inj hstep
    split
    · rename_i hholds
      refine .inr ?_
      rw [AtomicWait.step, hthread, atomic_leave]
      exact if_pos hholds
    · exact .inl (atomic_put_of_eq hp rfl)
  | assertWait k =>
    obtain rfl := Option.some.inj hstep
    refine .inl (atomic_put_of_eq hp ?_)
    cases asserted <;> rfl
  | retest k queued =>
    obtain rfl := Option.some.inj hstep
    refine .inl (atomic_put_of_eq hp ?_)
    split <;> rfl
  | wakeSelf k queued =>
    obtain rfl := Option.some.inj hstep
    rw [atomic_wakeAll]
    exact .inl (atomic_put_of_eq hp rfl)
  | block k queued =>
    rw [advance] at hstep
    split at hstep
    · cases hstep
    · obtain rfl := Option.some.inj hstep
      exact .inl (atomic_put_of_eq hp rfl)
  | store u =>
    obtain rfl := Option.some.inj hstep
    refine .inr ?_
    rw [AtomicWait.step, hthread, atomic_put]
    rfl
  | wakeup =>
    obtain rfl := Option.some.inj hstep
    refine .inr ?_
    rw [AtomicWait.step, hthread, atomic_wakeAll, atomic_leave]
    rfl

/-- A number that is free is free in the other system, too. -/
theorem atomic_isNone (h : (w.threads i).isNone = true) :
    (w.atomic.threads i).isNone = true := by
  rw [Option.isNone_iff_eq_none] at h
  change ((w.threads i).map atomicThread).isNone = true
  rw [h]
  rfl

/-- **Refinement**: a run is a run with the atomic wait. -/
theorem refines {as : List (WaitAction κ υ)} (h : Run (EventWait.step holds update) Always w as t) :
    ∃ bs, Run (AtomicWait.step holds update) Always w.atomic bs t.atomic := by
  refine h.simulate (I := fun _ => True) (fun _ _ _ _ _ _ => trivial) ?_ trivial
  intro w a t _ _ hstep
  cases a with
  | wait i k =>
    rw [EventWait.step] at hstep
    split at hstep
    · rename_i hnone
      obtain rfl := Option.some.inj hstep
      refine ⟨[.wait i k], Run.single trivial ?_⟩
      rw [AtomicWait.step, if_pos (atomic_isNone hnone), atomic_put]
      rfl
    · cases hstep
  | set i u =>
    rw [EventWait.step] at hstep
    split at hstep
    · rename_i hnone
      obtain rfl := Option.some.inj hstep
      refine ⟨[.set i u], Run.single trivial ?_⟩
      rw [AtomicWait.step, if_pos (atomic_isNone hnone), atomic_put]
      rfl
    · cases hstep
  | next i asserted =>
    obtain ⟨p, hp, hadvance⟩ := Option.bind_eq_some_iff.mp hstep
    rcases advance_atomic hp hadvance with hstutter | hnext
    · exact ⟨[], hstutter ▸ Run.nil _⟩
    · exact ⟨[.next i], Run.single trivial hnext⟩

end EventWait

end DockerMacos
