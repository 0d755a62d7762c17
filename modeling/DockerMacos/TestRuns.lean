import DockerMacos.Run
import Mathlib.Logic.Function.Basic

/-!
# Concurrent Test Runs

`run_phase` (`scripts/test-runner.sh`) runs one phase of the regression test: it removes the
containers of the phase that it finds, launches its own, looks for a serial log that is new,
waits for the boot marker in it, has the monitor dump the screen to a file and compares the
picture.

## What invocations share

The container (`scripts/test.sh`) names its sockets by the phase and its log by the phase and
the second. So invocations of one phase share a `Bench`, and those of different phases share
nothing but the clock. A runner notes in `sources` of whose VM the data came that its verdict is
computed from; the script keeps no such note.

## Alone

An invocation has its phase to itself (`Bench.Alone`) if no other one is in progress when it
starts, it finds no container and no log of the current second. This is a condition on each step
that starts an invocation, and the invariant says what a runner may rely on at each of its stages
from then on.

## Main results

* `Bench.Inv.step`: a step leaves a runner that has its phase to itself with the phase to itself.
* `test_runs_independent`: a runner that is started with the phase to itself removes no one
  else's container and computes its verdict from its own VM.
-/

namespace DockerMacos

/-- The two screendumps of a phase; phase 3 makes the second one. -/
inductive Shot
  | boot
  | input
  deriving DecidableEq

/-- How far an invocation of `run_phase` has come. -/
inductive RunnerStage
  | start
  /-- The containers still to be removed. -/
  | evicting (stale : List ℕ)
  /-- `start_ts` has been taken. -/
  | stamped (startTs : ℕ)
  /-- The container has been launched. -/
  | waiting (startTs : ℕ)
  /-- The serial log has been found, by the second in its name. -/
  | polling (second : ℕ)
  /-- The screen has settled, and is dumped next. -/
  | settled (shot : Shot)
  | dumped (shot : Shot)
  | converted (shot : Shot)
  /-- The first comparison has been passed, and the input is verified next. -/
  | passed
  /-- The verdict is there. -/
  | decided
  deriving DecidableEq

/-- An invocation of `run_phase`. -/
structure Runner where
  stage : RunnerStage
  /-- The invocations from whose VMs it has used data. -/
  sources : List ℕ

/-- How far the container of an invocation has come. -/
inductive VmStage
  | created
  /-- `BOOT_TS` has been taken. -/
  | booting (second : ℕ)
  | running (second : ℕ)
  deriving DecidableEq

/-- A serial log. -/
structure SerialLog where
  mtime : ℕ
  /-- The invocations whose VMs have written it. -/
  writers : List ℕ

/-- What belongs to a phase. Invocations have a number, which stands for the unique suffix of
the container's name as well. -/
structure Bench where
  /-- The number of the next invocation. -/
  fresh : ℕ
  runners : ℕ → Option Runner
  containers : ℕ → Option VmStage
  /-- The serial logs, by the second in their names. -/
  logs : ℕ → Option SerialLog
  /-- The invocation whose VM listens on the sockets. -/
  monitor : Option ℕ
  /-- The invocation whose VM's screen is in the file, for the PPM and the PNG files. -/
  ppm : Shot → Option ℕ
  png : Shot → Option ℕ

namespace Bench

def setRunner (b : Bench) (i : ℕ) (r : Option Runner) : Bench :=
  { b with runners := Function.update b.runners i r }

/-- `docker rm -f`, or the end of a container that is removed when it stops. -/
def remove (b : Bench) (c : ℕ) : Bench :=
  { b with
    containers := Function.update b.containers c none
    monitor := if b.monitor = some c then none else b.monitor }

/-- The commands of `run_phase`, with what the environment decides about them. -/
inductive RunnerStep
  /-- `docker ps` lists the containers of the phase. -/
  | list
  | evict
  | stamp
  | launch
  /-- The newest log is the one with this second. -/
  | findLog (second : ℕ)
  /-- The markers of a boot or of a failure are found, or the time is up. -/
  | poll (boot : Bool)
  /-- The monitor takes the command; QEMU writes the file or fails to. -/
  | screendump (written : Bool)
  | convert
  | compare (pass : Bool)
  | driveInput
  /-- `teardown` and return. -/
  | finish

/-- The log of that second is at least as new as all others. -/
def newest (b : Bench) (clock : ℕ) (l : SerialLog) : Bool :=
  (List.range (clock + 1)).all fun m =>
    ((b.logs m).map fun l' => decide (l'.mtime ≤ l.mtime)).getD true

/-- The next command of invocation `i`. -/
def runnerStep (phase clock : ℕ) (b : Bench) (i : ℕ) (r : Runner) :
    RunnerStep → Option Bench
  | .list =>
    if r.stage = .start then
      some (b.setRunner i (some { r with
        stage := .evicting ((List.range b.fresh).filter fun c => (b.containers c).isSome) }))
    else none
  | .evict =>
    match r.stage with
    | .evicting (c :: rest) =>
      some ((b.remove c).setRunner i (some { r with stage := .evicting rest }))
    | _ => none
  | .stamp =>
    if r.stage = .evicting [] then
      some (b.setRunner i (some { r with stage := .stamped clock }))
    else none
  | .launch =>
    match r.stage with
    | .stamped startTs =>
      some ({ b with containers := Function.update b.containers i (some .created) }.setRunner i
        (some { r with stage := .waiting startTs }))
    | _ => none
  | .findLog second =>
    match r.stage, b.logs second with
    | .waiting startTs, some l =>
      if startTs ≤ l.mtime ∧ b.newest clock l then
        some (b.setRunner i (some { r with stage := .polling second }))
      else none
    | _, _ => none
  | .poll boot =>
    match r.stage with
    | .polling second =>
      some (b.setRunner i (some ⟨if boot then .settled .boot else .decided,
        ((b.logs second).map SerialLog.writers).getD [] ++ r.sources⟩))
    | _ => none
  | .screendump written =>
    match r.stage, b.monitor with
    | .settled shot, some vm =>
      some ({ b with
        ppm := if written then Function.update b.ppm shot (some vm) else b.ppm }.setRunner
        i (some ⟨.dumped shot, vm :: r.sources⟩))
    | _, _ => none
  | .convert =>
    match r.stage with
    | .dumped shot =>
      (b.ppm shot).map fun vm =>
        { b with png := Function.update b.png shot (some vm) }.setRunner i
          (some { r with stage := .converted shot })
    | _ => none
  | .compare pass =>
    match r.stage with
    | .converted shot =>
      (b.png shot).map fun vm =>
        b.setRunner i (some ⟨if pass ∧ phase = 3 ∧ shot = .boot then .passed else .decided,
          vm :: r.sources⟩)
    | _ => none
  | .driveInput =>
    match r.stage, b.monitor with
    | .passed, some vm => some (b.setRunner i (some ⟨.settled .input, vm :: r.sources⟩))
    | _, _ => none
  | .finish =>
    match r.stage with
    | .start | .evicting _ | .stamped _ => none
    | _ => some ((b.remove i).setRunner i none)

/-- The invocation is aborted, as by Ctrl-C. Its container is left behind. -/
def interrupt (b : Bench) (i : ℕ) : Option Bench :=
  (b.runners i).map fun _ => b.setRunner i none

/-- What happens at a phase. -/
inductive Action
  | start
  | runner (i : ℕ) (k : RunnerStep)
  | interrupt (i : ℕ)
  /-- `test.sh` takes `BOOT_TS` and removes the sockets. -/
  | boot (c : ℕ)
  /-- QEMU creates the log and listens on the sockets. -/
  | qemu (c : ℕ)
  /-- The VM writes to its serial log. -/
  | log (c : ℕ)
  /-- The container ends. -/
  | exit (c : ℕ)

/-- Phases other than 0 to 3 are refused by `phase_config`. -/
def step (phase clock : ℕ) (b : Bench) : Action → Option Bench
  | .start =>
    if phase ≤ 3 then
      some { b.setRunner b.fresh (some ⟨.start, []⟩) with fresh := b.fresh + 1 }
    else none
  | .runner i k => (b.runners i).bind fun r => b.runnerStep phase clock i r k
  | .interrupt i => b.interrupt i
  | .boot c =>
    match b.containers c with
    | some .created =>
      some { b with
        containers := Function.update b.containers c (some (.booting clock))
        monitor := none }
    | _ => none
  | .qemu c =>
    match b.containers c with
    | some (.booting second) =>
      some { b with
        containers := Function.update b.containers c (some (.running second))
        logs := Function.update b.logs second (some ⟨clock, [c]⟩)
        monitor := some c }
    | _ => none
  | .log c =>
    match b.containers c with
    | some (.running second) =>
      some { b with
        logs := Function.update b.logs second
          ((b.logs second).map fun l => ⟨clock, c :: l.writers⟩) }
    | _ => none
  | .exit c => (b.containers c).map fun _ => b.remove c

/-- An invocation is about to remove the container of another one that still runs, or it has
used the data of another one's VM. -/
def Disturbed (b : Bench) : Prop :=
  ∃ i r, b.runners i = some r ∧
    ((∃ c rest, r.stage = .evicting (c :: rest) ∧ c ≠ i ∧ (b.containers c).isSome) ∨
      ∃ x ∈ r.sources, x ≠ i)

/-- The invocation has the phase to itself: no other one is in progress when it starts, it
finds no container, none of the logs is of the current second, and when QEMU fails to write a
screendump there is no file of another VM. -/
def Alone (clock : ℕ) (b : Bench) : Action → Prop
  | .start => ∀ i, b.runners i = none
  | .runner _ .list => ∀ c, b.containers c = none
  | .runner _ .stamp => ∀ second l, b.logs second = some l → l.mtime < clock
  | .runner i (.screendump false) => ∀ r shot, b.runners i = some r → r.stage = .settled shot →
      ∀ x, b.ppm shot = some x → x = i
  | _ => True

end Bench

/-- The data directory and the clock. -/
structure TestHost where
  clock : ℕ
  bench : ℕ → Bench

/-- A moment of the host. -/
inductive TestAction
  | tick
  | act (phase : ℕ) (a : Bench.Action)

namespace TestHost

/-- A step of some phase, or a second that passes. -/
def step (w : TestHost) : TestAction → Option TestHost
  | .tick => some { w with clock := w.clock + 1 }
  | .act phase a => ((w.bench phase).step phase w.clock a).map fun b =>
    { w with bench := Function.update w.bench phase b }

/-- Every invocation has its phase to itself. -/
def Alone (w : TestHost) : TestAction → Prop
  | .tick => True
  | .act phase a => (w.bench phase).Alone w.clock a

/-- No invocation is in progress. Files may be left, and containers. -/
structure Idle (w : TestHost) : Prop where
  runners : ∀ phase i, (w.bench phase).runners i = none
  monitor : ∀ phase c, (w.bench phase).monitor = some c → ((w.bench phase).containers c).isSome

end TestHost

namespace Bench

/-- Every container is the one of `i`, and so is the log that its VM writes to. -/
structure Owns (b : Bench) (i : ℕ) : Prop where
  containers : ∀ c, (b.containers c).isSome → c = i
  log : ∀ second l, b.containers i = some (.running second) → b.logs second = some l →
    ∀ x ∈ l.writers, x = i

/-- What a runner relies on at a stage. -/
def StageInv (b : Bench) (i : ℕ) : RunnerStage → Prop
  | .evicting stale => stale = []
  | .stamped startTs | .waiting startTs => ∀ second l, b.logs second = some l →
      (∀ x ∈ l.writers, x = i) ∨ l.mtime < startTs
  | .polling second => ∀ l, b.logs second = some l → ∀ x ∈ l.writers, x = i
  | .dumped shot => ∀ x, b.ppm shot = some x → x = i
  | .converted shot => ∀ x, b.png shot = some x → x = i
  | _ => True

/-- A runner that has its phase to itself. -/
structure RunnerInv (b : Bench) (i : ℕ) (r : Runner) : Prop where
  owns : r.stage ≠ .start → b.Owns i
  sources : ∀ x ∈ r.sources, x = i
  stage : b.StageInv i r.stage

/-- The invariant of a phase. -/
structure Inv (b : Bench) : Prop where
  monitor : ∀ c, b.monitor = some c → (b.containers c).isSome
  single : ∀ i j, (b.runners i).isSome → (b.runners j).isSome → i = j
  runner : ∀ i r, b.runners i = some r → b.RunnerInv i r

section Inv

variable {b b' : Bench} {i c : ℕ} {r : Runner}

/-- What the invariant says of the runner when only the runners have changed. -/
theorem Inv.setRunner (hmonitor : ∀ c, b.monitor = some c → (b.containers c).isSome)
    (hsingle : ∀ j, (b.runners j).isSome → j = i) (hr : b.RunnerInv i r) :
    (b.setRunner i (some r)).Inv := by
  have honly : ∀ j, ((b.setRunner i (some r)).runners j).isSome → j = i := by
    intro j hj
    by_contra hne
    exact hne (hsingle j (by simpa [Bench.setRunner, Function.update_of_ne hne] using hj))
  refine ⟨hmonitor, fun j k hj hk => (honly j hj).trans (honly k hk).symm, fun j q hq => ?_⟩
  obtain rfl := honly j (by rw [hq]; rfl)
  obtain rfl : r = q := by simpa [Bench.setRunner] using hq
  exact ⟨fun hstage => ⟨(hr.owns hstage).containers, (hr.owns hstage).log⟩, hr.sources, hr.stage⟩

/-- When the only runner is gone, nothing is left to say of runners. -/
theorem Inv.clearRunner (hmonitor : ∀ c, b.monitor = some c → (b.containers c).isSome)
    (hsingle : ∀ j, (b.runners j).isSome → j = i) : (b.setRunner i none).Inv := by
  have hnone : ∀ j, (b.setRunner i none).runners j = none := by
    intro j
    by_cases hj : j = i
    · simp [Bench.setRunner, hj]
    · simpa [Bench.setRunner, Function.update_of_ne hj] using mt (hsingle j) hj
  exact ⟨hmonitor, fun j k hj => by simp [hnone] at hj, fun j q hq => by simp [hnone] at hq⟩

/-- The sockets of a container that is removed are gone. -/
theorem monitor_remove (hmonitor : ∀ c, b.monitor = some c → (b.containers c).isSome) :
    ∀ k, (b.remove c).monitor = some k → ((b.remove c).containers k).isSome := by
  intro k hk
  simp only [remove] at hk ⊢
  split at hk
  · cases hk
  · next hne =>
    rw [Function.update_of_ne (by rintro rfl; exact hne hk)]
    exact hmonitor k hk

/-- A container less leaves the others as they are owned. -/
theorem Owns.remove (h : b.Owns i) : (b.remove c).Owns i := by
  have hold : ∀ k s, (b.remove c).containers k = some s → b.containers k = some s := by
    intro k s hk
    simp only [Bench.remove, Function.update_apply] at hk
    split at hk
    · cases hk
    · exact hk
  refine ⟨fun k hk => ?_, fun second l hrunning => h.log second l (hold i _ hrunning)⟩
  obtain ⟨s, hs⟩ := Option.isSome_iff_exists.mp hk
  exact h.containers k (by rw [hold k s hs]; rfl)

/-- Where there is a runner, there is no other. -/
theorem Inv.only (h : b.Inv) (hr : b.runners i = some r) : ∀ j, (b.runners j).isSome → j = i :=
  fun j hj => h.single j i hj (by rw [hr]; rfl)

/-- `docker ps` finds nothing when there are no containers. -/
theorem Inv.listed (h : b.Inv) (hr : b.runners i = some r) (hnone : ∀ c, b.containers c = none) :
    (b.setRunner i (some { r with
      stage := .evicting
        ((List.range b.fresh).filter fun c => (b.containers c).isSome) })).Inv := by
  refine Inv.setRunner h.monitor (h.only hr) ⟨fun _ => ⟨?_, ?_⟩, (h.runner i r hr).sources, ?_⟩
  · intro c hc
    simp [hnone] at hc
  · intro second l hrunning
    simp [hnone] at hrunning
  · simp [StageInv, hnone]

/-- The container that is launched is its own. -/
theorem Inv.launched {startTs : ℕ} (h : b.Inv) (hr : b.runners i = some r)
    (hs : r.stage = .stamped startTs) :
    ({ b with containers := Function.update b.containers i (some .created) }.setRunner i
      (some { r with stage := .waiting startTs })).Inv := by
  obtain ⟨howns, hsources, hstage⟩ := h.runner i r hr
  rw [hs] at hstage
  refine Inv.setRunner ?_ (h.only hr) ⟨fun _ => ⟨?_, ?_⟩, hsources, hstage⟩
  · intro c hc
    by_cases hci : c = i
    · simp [hci]
    · simpa [Function.update_of_ne hci] using h.monitor c hc
  · intro c hc
    by_contra hci
    exact hci ((howns (by simp [hs])).containers c (by simpa [Function.update_of_ne hci] using hc))
  · intro second l hrunning
    simp at hrunning

/-- What it reads in its log is from its own VM. -/
theorem Inv.polled {second : ℕ} {boot : Bool} (h : b.Inv) (hr : b.runners i = some r)
    (hs : r.stage = .polling second) :
    (b.setRunner i (some ⟨if boot then .settled .boot else .decided,
      ((b.logs second).map SerialLog.writers).getD [] ++ r.sources⟩)).Inv := by
  obtain ⟨howns, hsources, hstage⟩ := h.runner i r hr
  rw [hs] at hstage
  refine Inv.setRunner h.monitor (h.only hr) ⟨fun _ => howns (by simp [hs]), ?_, ?_⟩
  · intro x hx
    rcases List.mem_append.mp hx with hx | hx
    · rcases hl : b.logs second with _ | l
      · simp [hl] at hx
      · exact hstage l hl x (by simpa [hl] using hx)
    · exact hsources x hx
  · cases boot <;> trivial

/-- The screen that is dumped is that of its own VM. -/
theorem Inv.dumped {clock vm : ℕ} {shot : Shot} {written : Bool} (h : b.Inv)
    (halone : b.Alone clock (.runner i (.screendump written))) (hr : b.runners i = some r)
    (hs : r.stage = .settled shot) (hvm : b.monitor = some vm) :
    ({ b with ppm := if written then Function.update b.ppm shot (some vm) else b.ppm }.setRunner
      i (some ⟨.dumped shot, vm :: r.sources⟩)).Inv := by
  obtain ⟨howns, hsources, -⟩ := h.runner i r hr
  have howns := howns (by simp [hs])
  have hown : vm = i := howns.containers vm (h.monitor vm hvm)
  refine Inv.setRunner h.monitor (h.only hr) ⟨fun _ => ⟨howns.containers, howns.log⟩, ?_, ?_⟩
  · simpa [hown] using hsources
  · intro x hx
    cases written
    · exact halone r shot hr hs x hx
    · exact (by simpa using hx : vm = x) ▸ hown

/-- Its next command leaves a runner that has its phase to itself with the phase to itself. -/
theorem Inv.runnerStep {phase clock : ℕ} {k : RunnerStep} (h : b.Inv)
    (halone : b.Alone clock (.runner i k)) (hr : b.runners i = some r)
    (hstep : b.runnerStep phase clock i r k = some b') : b'.Inv := by
  have hsingle := h.only hr
  obtain ⟨howns, hsources, hstage⟩ := h.runner i r hr
  rcases k with _ | _ | _ | _ | second | boot | written | _ | pass | _ | _ <;>
    simp only [Bench.runnerStep] at hstep
  case list =>
    split at hstep
    · obtain rfl := Option.some.inj hstep
      exact h.listed hr halone
    · cases hstep
  case evict =>
    split at hstep
    · next hs =>
      rw [hs] at hstage
      cases hstage
    · cases hstep
  case stamp =>
    split at hstep
    · next hs =>
      obtain rfl := Option.some.inj hstep
      refine Inv.setRunner h.monitor hsingle ⟨fun _ => howns (by simp [hs]), hsources, ?_⟩
      exact fun second l hl => .inr (halone second l hl)
    · cases hstep
  case launch =>
    split at hstep
    · next startTs hs =>
      obtain rfl := Option.some.inj hstep
      exact h.launched hr hs
    · cases hstep
  case findLog =>
    split at hstep
    · next startTs l hs hl =>
      split at hstep
      · next hnew =>
        obtain rfl := Option.some.inj hstep
        refine Inv.setRunner h.monitor hsingle ⟨fun _ => howns (by simp [hs]), hsources, ?_⟩
        intro l' hl'
        obtain rfl := Option.some.inj (hl.symm.trans hl')
        rw [hs] at hstage
        exact (hstage second l hl).resolve_right (by omega)
      · cases hstep
    · cases hstep
  case poll =>
    split at hstep
    · next second hs =>
      obtain rfl := Option.some.inj hstep
      exact h.polled hr hs
    · cases hstep
  case screendump =>
    split at hstep
    · next shot vm hs hvm =>
      obtain rfl := Option.some.inj hstep
      exact h.dumped halone hr hs hvm
    · cases hstep
  case convert =>
    split at hstep
    · next shot hs =>
      obtain ⟨vm, hppm, rfl⟩ := Option.map_eq_some_iff.mp hstep
      have howns := howns (by simp [hs])
      rw [hs] at hstage
      refine Inv.setRunner h.monitor hsingle ⟨fun _ => ⟨howns.containers, howns.log⟩, hsources, ?_⟩
      intro x hx
      obtain rfl : vm = x := by simpa using hx
      exact hstage vm hppm
    · cases hstep
  case compare =>
    split at hstep
    · next shot hs =>
      obtain ⟨vm, hpng, rfl⟩ := Option.map_eq_some_iff.mp hstep
      rw [hs] at hstage
      refine Inv.setRunner h.monitor hsingle ⟨fun _ => howns (by simp [hs]), ?_, ?_⟩
      · simpa [hstage vm hpng] using hsources
      · dsimp only
        split <;> trivial
    · cases hstep
  case driveInput =>
    split at hstep
    · next vm hs hvm =>
      obtain rfl := Option.some.inj hstep
      have howns := howns (by simp [hs])
      refine Inv.setRunner h.monitor hsingle ⟨fun _ => howns, ?_, trivial⟩
      simpa [howns.containers vm (h.monitor vm hvm)] using hsources
    · cases hstep
  case finish =>
    split at hstep
    · cases hstep
    · cases hstep
    · cases hstep
    · obtain rfl := Option.some.inj hstep
      exact Inv.clearRunner (monitor_remove h.monitor) hsingle

/-- What a runner relies on stays when its own VM alone writes to the logs. -/
theorem StageInv.logs {s : RunnerStage} (h : b.StageInv i s) (hppm : b'.ppm = b.ppm)
    (hpng : b'.png = b.png)
    (hlogs : s ≠ .start → ∀ second l, b'.logs second = some l →
      b.logs second = some l ∨ ∀ x ∈ l.writers, x = i) : b'.StageInv i s := by
  rcases s with _ | _ | startTs | startTs | second | _ | shot | shot | _ | _
  case stamped | waiting =>
    intro second l hl
    rcases hlogs (by simp) second l hl with hold | hown
    · exact h second l hold
    · exact .inl hown
  case polling =>
    intro l hl
    rcases hlogs (by simp) second l hl with hold | hown
    · exact h l hold
    · exact hown
  case dumped => exact fun x hx => h x (hppm ▸ hx)
  case converted => exact fun x hx => h x (hpng ▸ hx)
  all_goals exact h

/-- What happens in the containers leaves a runner that has its phase to itself with the phase
to itself. -/
theorem Inv.vm (h : b.Inv) (hrunners : b'.runners = b.runners) (hppm : b'.ppm = b.ppm)
    (hpng : b'.png = b.png)
    (hmonitor : ∀ c, b'.monitor = some c → (b'.containers c).isSome)
    (howns : ∀ i, b.Owns i → b'.Owns i)
    (hlogs : ∀ i, b.Owns i → ∀ second l, b'.logs second = some l →
      b.logs second = some l ∨ ∀ x ∈ l.writers, x = i) : b'.Inv := by
  refine ⟨hmonitor, fun i j => by rw [hrunners]; exact h.single i j, fun i r hr => ?_⟩
  have hinv := h.runner i r (hrunners ▸ hr)
  exact ⟨fun hs => howns i (hinv.owns hs), hinv.sources,
    hinv.stage.logs hppm hpng fun hs => hlogs i (hinv.owns hs)⟩

/-- A step of a container adds no container. -/
theorem isSome_of_update {s : VmStage} {s' : Option VmStage} (hc : b.containers c = some s) :
    ∀ k, (Function.update b.containers c s' k).isSome → (b.containers k).isSome := by
  intro k hk
  by_cases hkc : k = c
  · simp [hkc, hc]
  · simpa [Function.update_of_ne hkc] using hk

/-- QEMU begins a new log, and takes the sockets. -/
theorem Inv.opened {clock second : ℕ} (h : b.Inv)
    (hbooting : b.containers c = some (.booting second)) :
    ({ b with
      containers := Function.update b.containers c (some (.running second))
      logs := Function.update b.logs second (some ⟨clock, [c]⟩)
      monitor := some c } : Bench).Inv := by
  have hlogs : ∀ i, b.Owns i → ∀ m l,
      Function.update b.logs second (some ⟨clock, [c]⟩) m = some l →
      b.logs m = some l ∨ ∀ x ∈ l.writers, x = i := by
    intro i howns m l hl
    by_cases hm : m = second
    · obtain rfl : _ = l := by simpa [hm] using hl
      exact .inr fun x hx => by
        rw [List.mem_singleton.mp hx]
        exact howns.containers c (by rw [hbooting]; rfl)
    · exact .inl (by simpa [Function.update_of_ne hm] using hl)
  refine h.vm rfl rfl rfl (fun k hk => ?_) (fun i howns => ⟨?_, ?_⟩) hlogs
  · obtain rfl := Option.some.inj hk
    simp
  · exact fun k hk => howns.containers k (isSome_of_update hbooting k hk)
  · intro m l hrunning hl
    obtain rfl : c = i := howns.containers c (by rw [hbooting]; rfl)
    obtain rfl : second = m := by simpa using hrunning
    obtain rfl : _ = l := by simpa using hl
    exact fun x hx => List.mem_singleton.mp hx

/-- A VM writes to its log. -/
theorem Inv.written {clock second : ℕ} (h : b.Inv)
    (hrunning : b.containers c = some (.running second)) :
    ({ b with
      logs := Function.update b.logs second
        ((b.logs second).map fun l => ⟨clock, c :: l.writers⟩) } : Bench).Inv := by
  have hlogs : ∀ i, b.Owns i → ∀ m l,
      Function.update b.logs second
        ((b.logs second).map fun l => ⟨clock, c :: l.writers⟩) m = some l →
      b.logs m = some l ∨ ∀ x ∈ l.writers, x = i := by
    intro i howns m l hl
    obtain rfl : c = i := howns.containers c (by rw [hrunning]; rfl)
    by_cases hm : m = second
    · subst hm
      rw [Function.update_self] at hl
      obtain ⟨l₀, hl₀, rfl⟩ := Option.map_eq_some_iff.mp hl
      refine .inr fun x hx => ?_
      rcases List.mem_cons.mp hx with rfl | hx
      · rfl
      · exact howns.log m l₀ hrunning hl₀ x hx
    · exact .inl (by simpa [Function.update_of_ne hm] using hl)
  refine h.vm rfl rfl rfl h.monitor (fun i howns => ⟨howns.containers, ?_⟩) hlogs
  intro m l hm hl
  rcases hlogs i howns m l hl with hold | hown
  · exact howns.log m l hm hold
  · exact hown

/-- **Step lemma.** While every runner has its phase to itself, a step leaves it so. -/
theorem Inv.step {phase clock : ℕ} {a : Action} (h : b.Inv) (halone : b.Alone clock a)
    (hstep : b.step phase clock a = some b') : b'.Inv := by
  rcases a with _ | ⟨i, k⟩ | i | c | c | c | c
  case start =>
    have hnone : ∀ i, b.runners i = none := halone
    simp only [Bench.step, Option.ite_none_right_eq_some, Option.some.injEq] at hstep
    obtain ⟨-, rfl⟩ := hstep
    exact Inv.setRunner (b := { b with fresh := b.fresh + 1 }) h.monitor
      (fun j hj => by simp [hnone] at hj)
      ⟨fun hs => absurd rfl hs, fun x hx => by simp at hx, trivial⟩
  case runner =>
    obtain ⟨r, hr, hstep⟩ := Option.bind_eq_some_iff.mp hstep
    exact h.runnerStep halone hr hstep
  case interrupt =>
    obtain ⟨r, hr, rfl⟩ := Option.map_eq_some_iff.mp hstep
    exact Inv.clearRunner h.monitor fun j hj => h.single j i hj (by rw [hr]; rfl)
  case boot =>
    simp only [Bench.step] at hstep
    split at hstep
    · next hcreated =>
      obtain rfl := Option.some.inj hstep
      refine h.vm rfl rfl rfl (fun k hk => by cases hk) (fun i howns => ⟨?_, ?_⟩)
        fun _ _ second l hl => .inl hl
      · exact fun k hk => howns.containers k (isSome_of_update hcreated k hk)
      · intro second l hrunning
        by_cases hic : i = c
        · simp [hic] at hrunning
        · exact howns.log second l (by simpa [Function.update_of_ne hic] using hrunning)
    · cases hstep
  case qemu =>
    simp only [Bench.step] at hstep
    split at hstep
    · next second hbooting =>
      obtain rfl := Option.some.inj hstep
      exact h.opened hbooting
    · cases hstep
  case log =>
    simp only [Bench.step] at hstep
    split at hstep
    · next second hrunning =>
      obtain rfl := Option.some.inj hstep
      exact h.written hrunning
    · cases hstep
  case exit =>
    obtain ⟨s, hs, rfl⟩ := Option.map_eq_some_iff.mp hstep
    exact h.vm rfl rfl rfl (monitor_remove h.monitor) (fun i howns => howns.remove)
      fun _ _ second l hl => .inl hl

/-- A runner that has its phase to itself disturbs no one and is not disturbed. -/
theorem Inv.not_disturbed (h : b.Inv) : ¬b.Disturbed := by
  rintro ⟨i, r, hr, ⟨c, rest, hs, -, -⟩ | ⟨x, hx, hne⟩⟩
  · have hstage := (h.runner i r hr).stage
    rw [hs] at hstage
    cases hstage
  · exact hne ((h.runner i r hr).sources x hx)

end Inv

end Bench

namespace TestHost

/-- **Independence of test runs.** In a run in which every invocation has its phase to itself,
no invocation removes the container of another one and none uses data of another one's VM. -/
theorem test_runs_independent {w t : TestHost} {as : List TestAction} (hidle : w.Idle)
    (hrun : Run TestHost.step TestHost.Alone w as t) (phase : ℕ) : ¬(t.bench phase).Disturbed := by
  have hinv : ∀ phase, (t.bench phase).Inv := by
    refine hrun.invariant (I := fun w : TestHost => ∀ phase, (w.bench phase).Inv) ?_ ?_
    · rintro u (_ | ⟨p, a⟩) v hI halone hstep q
      · obtain rfl := Option.some.inj hstep
        exact hI q
      · obtain ⟨b, hb, rfl⟩ := Option.map_eq_some_iff.mp hstep
        by_cases hq : q = p
        · subst hq
          simpa using (hI q).step halone hb
        · simpa [Function.update_of_ne hq] using hI q
    · exact fun p => ⟨hidle.monitor p, fun i j hi => by simp [hidle.runners] at hi,
        fun i r hr => by simp [hidle.runners] at hr⟩
  exact (hinv phase).not_disturbed

/-- A host whose data directory is empty. -/
def unused : TestHost :=
  ⟨5, fun _ => ⟨0, fun _ => none, fun _ => none, fun _ => none, none, fun _ => none, fun _ => none⟩⟩

/-- Phase 2 comes to its verdict while phase 0 is launched. -/
theorem test_runs_independent_session :
    ∃ t, Run TestHost.step TestHost.Alone unused
        [.act 2 .start, .act 0 .start, .act 2 (.runner 0 .list), .act 2 (.runner 0 .stamp),
          .act 2 (.runner 0 .launch), .act 0 (.runner 0 .list), .tick, .act 2 (.boot 0),
          .act 2 (.qemu 0), .act 2 (.log 0), .act 0 (.runner 0 .stamp),
          .act 2 (.runner 0 (.findLog 6)), .act 2 (.runner 0 (.poll true)),
          .act 0 (.runner 0 .launch), .act 2 (.runner 0 (.screendump true)),
          .act 2 (.runner 0 .convert), .act 2 (.runner 0 (.compare true))] t ∧
      (t.bench 2).runners 0 = some ⟨.decided, [0, 0, 0, 0]⟩ ∧
      ((t.bench 0).containers 0).isSome ∧ ¬(t.bench 2).Disturbed := by
  have hrun : ∃ t, Run TestHost.step TestHost.Alone unused
      [.act 2 .start, .act 0 .start, .act 2 (.runner 0 .list), .act 2 (.runner 0 .stamp),
        .act 2 (.runner 0 .launch), .act 0 (.runner 0 .list), .tick, .act 2 (.boot 0),
        .act 2 (.qemu 0), .act 2 (.log 0), .act 0 (.runner 0 .stamp),
        .act 2 (.runner 0 (.findLog 6)), .act 2 (.runner 0 (.poll true)),
        .act 0 (.runner 0 .launch), .act 2 (.runner 0 (.screendump true)),
        .act 2 (.runner 0 .convert), .act 2 (.runner 0 (.compare true))] t ∧
      (t.bench 2).runners 0 = some ⟨.decided, [0, 0, 0, 0]⟩ ∧
      ((t.bench 0).containers 0).isSome := by
    refine ⟨_, Run.cons (fun _ => rfl) rfl <| Run.cons (fun _ => rfl) rfl <|
      Run.cons (fun _ => rfl) rfl <| Run.cons ?_ rfl <| Run.cons trivial rfl <|
      Run.cons (fun _ => rfl) rfl <| Run.cons trivial rfl <| Run.cons trivial rfl <|
      Run.cons trivial rfl <| Run.cons trivial rfl <| Run.cons ?_ rfl <| Run.cons trivial rfl <|
      Run.cons trivial rfl <| Run.cons trivial rfl <| Run.cons trivial rfl <|
      Run.cons trivial rfl <| Run.cons trivial rfl <| Run.nil _, rfl, rfl⟩
    all_goals exact fun _ _ hl => by cases hl
  obtain ⟨t, hrun, hr, hlaunched⟩ := hrun
  refine ⟨t, hrun, hr, hlaunched, test_runs_independent ?_ hrun 2⟩
  exact ⟨fun _ _ => rfl, fun _ _ hc => by cases hc⟩

/-- An invocation of phase 2 is about to remove the container that another one has launched
and waits for. -/
theorem second_run_disturbs :
    ∃ t, Run TestHost.step Always unused
        [.act 2 .start, .act 2 (.runner 0 .list), .act 2 (.runner 0 .stamp),
          .act 2 (.runner 0 .launch), .act 2 (.boot 0), .act 2 (.qemu 0), .act 2 .start,
          .act 2 (.runner 1 .list)] t ∧ (t.bench 2).Disturbed := by
  refine ⟨_, Run.cons trivial rfl <| Run.cons trivial rfl <| Run.cons trivial rfl <|
    Run.cons trivial rfl <| Run.cons trivial rfl <| Run.cons trivial rfl <|
    Run.cons trivial rfl <| Run.cons trivial rfl <| Run.nil _, ?_⟩
  exact ⟨1, _, rfl, .inl ⟨0, [], rfl, by decide, rfl⟩⟩

end TestHost

end DockerMacos
