import DockerMacos.EventWait

/-!
# Waiting for the Switch

`CustomMode` waits for a value of `m_custom_switch` that another thread stores
(`FB/VMsvga2.cpp`). `CustomSwitchStepWait` is the loop around `assert_wait` and `thread_block`,
`CustomSwitchStepSet` stores the value and calls `thread_wakeup`; neither holds a lock.

## A wait as one step

With this loop a wait for the switch is as good as one step, as `ModeRun.step` takes it. A call
that sets the switch keeps its two steps, the store and the return. What is left of the loop is
that the wait comes to an end, which is what this module adds: nobody sleeps on a value that is
there.

## Threads

Any number of threads wait and store, and any of them may run between any two steps of another.
A woken thread looks again, and may find that the value has changed in the meantime.

## Main results

* `customSwitch_wait`: a wait whose value is there comes to its end.
-/

namespace DockerMacos

/-- `m_custom_switch`, and the threads that wait for values of it or store them. -/
abbrev CustomSwitch := EventWait ℕ ℕ ℕ

namespace CustomSwitch

/-- The test of the loop in `CustomSwitchStepWait`. -/
def reached (value customSwitch : ℕ) : Bool := customSwitch == value

/-- The assignment of `CustomSwitchStepSet`. -/
def assign (value _customSwitch : ℕ) : ℕ := value

/-- The step function: `wait` calls `CustomSwitchStepWait`, `set` calls `CustomSwitchStepSet`. -/
def step (w : CustomSwitch) : WaitAction ℕ ℕ → Option CustomSwitch :=
  EventWait.step reached assign w

/-- The step function where `CustomSwitchStepWait` is one step; `CustomSwitchStepSet` is two, the
assignment and the rest. -/
def atomicStep (w : AtomicWait ℕ ℕ ℕ) : AtomicAction ℕ ℕ → Option (AtomicWait ℕ ℕ ℕ) :=
  AtomicWait.step reached assign w

end CustomSwitch

open CustomSwitch EventWait

/-- **A wait comes to its end** when the switch has its value: the thread can go on, or another
one can that lets it go on; and if the value stays, it takes at most five more steps. What the
threads do is also a run in which each wait is one step. -/
theorem customSwitch_wait {as : List (WaitAction ℕ ℕ)} {w : CustomSwitch} {i value : ℕ}
    {p : WaitThread ℕ ℕ} (h : Run step Always (EventWait.start 0) as w)
    (hp : w.threads i = some p) (hwaits : p.waitsFor = some value) (hvalue : w.shared = value) :
    ((∀ asserted, (step w (.next i asserted)).isSome = true) ∨
      ∃ j t, (∀ asserted, step w (.next j asserted) = some t) ∧
        ∀ asserted, (step t (.next i asserted)).isSome = true) ∧
    (∀ bs t, Run step (Quiet i) w bs t → bs.countP (ofThread i) ≤ 5) ∧
    ∃ bs, Run atomicStep Always ⟨0, fun _ => none⟩ bs w.atomic := by
  have hholds : reached value w.shared = true := by rw [reached, hvalue, beq_self_eq_true]
  refine ⟨?_, fun bs t hrun => ?_, refines h⟩
  · by_cases hblock : p = .block value true
    · right
      have hlost : NoLost reached w := NoLost.run h (by rintro _ _ ⟨⟩)
      obtain ⟨j, q, hq, hwakes⟩ := hlost i value (hblock ▸ hp) hholds
      rw [hblock] at hp
      obtain ⟨t, hstep, hthread⟩ := waking_next hq hwakes hp
      exact ⟨j, t, hstep, step_next_of_waits hthread rfl (by rintro ⟨⟩)⟩
    · exact .inl (step_next_of_waits hp hwaits hblock)
  · have hdone : w.WaitsOrDone i value := by
      intro q hq
      rw [hp, Option.some_inj] at hq
      rwa [← hq]
    have hcount := passes_within hrun hdone hholds
    have hrank : w.rankOf i = p.rank := by
      rw [rankOf, hp]
      rfl
    have hle := p.rank_le
    omega

/-- A call that waits for the value 2 is blocked, and another one has just stored it. -/
def blockedWait : List (WaitAction ℕ ℕ) :=
  [.wait 0 2, .next 0 true, .next 0 true, .next 0 true, .set 1 2, .next 1 true]

/-- The other call lets the blocked one go on. -/
theorem customSwitch_wait_blocked : ∃ w,
    Run step Always (EventWait.start 0) blockedWait w ∧ w.threads 0 = some (.block 2 true) ∧
      ∃ j t, (∀ asserted, step w (.next j asserted) = some t) ∧
        ∀ asserted, (step t (.next 0 asserted)).isSome = true := by
  have hrun : (blockedWait.foldlM step (EventWait.start 0)).map
      (fun w => (w.threads 0, w.shared)) = some (some (.block 2 true), 2) := by decide
  obtain ⟨w, hw, hend⟩ := Option.map_eq_some_iff.mp hrun
  obtain ⟨hblock, hvalue⟩ := Prod.mk.inj hend
  have hwait := (customSwitch_wait (run_of_foldlM hw) hblock rfl hvalue).1
  refine ⟨w, run_of_foldlM hw, hblock, hwait.resolve_left fun hnext => ?_⟩
  have hstuck : step w (.next 0 true) = none := by
    rw [CustomSwitch.step, EventWait.step, hblock]
    rfl
  have hsome := hnext true
  rw [hstuck] at hsome
  cases hsome

end DockerMacos
