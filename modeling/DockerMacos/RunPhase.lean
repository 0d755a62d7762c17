import Mathlib.Data.Nat.Digits.Defs
import Mathlib.Data.Rat.Defs
import Mathlib.Tactic.NormNum
import DockerMacos.ShellScript

/-!
# A Phase of the Test Runner

`run_phase` in `scripts/test-runner.sh` launches a container, waits for the guest to boot,
compares a screendump with the gold image of the phase and takes the container down. Called for
a single phase it runs under `set -e`; `run_all` calls it as a condition.

## The script

`runPhase` goes through the commands in their order; what each of them answers is given by
`PhaseEnv`. A run ends with a status, or the shell gives it up: under `set -e` at a command that
fails and that nobody looks after, and in any case at an error of its arithmetic.

## Percentages

The percentage of phase 0 is `1.5`, and the shell has no fractions. The other phases allow 2
percent, rounded down to whole pixels: the two decide differently for one count at most, unless
a product overflows.

## Main results

* `passes_iff_exact`: when the rounded threshold decides as the percentage does.
* `runPhase_returns_zero_iff`: the status and the line that a run prints agree
  (`ReportsStatus`).
* `runPhase_sound_iff`: when the verdict is right and the container is taken down.
* `runPhase_discards_iff`: when the shell gives up a run (`Discards`).
* `runAll_completes_iff`: when `run_all`, which runs all phases (`runPhases`), comes to its
  summary.
-/

namespace DockerMacos

/-! ### Settings -/

/-- What `phase_config` sets. -/
structure PhaseConfig where
  bootMarker : String
  failMarkers : String
  phaseSettle : ℕ
  diffThresholdPct : List Char
  inputVerify : Bool

/-- `FAIL_MARKERS` -/
def failMarkers : String := "\\bpanic\\b|debugger entered|halted|busy timeout.*240s"

/-- The `BOOT_MARKER` of a guest with macOS -/
def loginMarker : String := "loginwindow \\([0-9]+\\)"

/-- The `BOOT_MARKER` of the firmware -/
def firmwareMarker : String :=
  "BdsDxe: failed to load Boot|Start PXE over|UEFI Interactive Shell|EDK II"

/-- The settings of the phases that there are. -/
def phaseSettings : ℕ → Except String PhaseConfig
  | 0 => .ok ⟨firmwareMarker, failMarkers, 15, "1.5".toList, false⟩
  | 1 | 2 => .ok ⟨loginMarker, failMarkers, 300, "2".toList, false⟩
  | 3 => .ok ⟨loginMarker, failMarkers, 300, "2".toList, true⟩
  | 4 => .error "phase 4: apple-gfx-pci paravirt — no gold (M5 stage 20% gate)"
  | phase => .error s!"phase {phase}: unknown"

/-- `phase_config`; `gold` is where the gold image is looked for. -/
def phaseConfig (gold : String) (goldExists : Bool) (phase : ℕ) : Except String PhaseConfig := do
  let cfg ← phaseSettings phase
  if goldExists then pure cfg else throw s!"phase {phase}: ERROR gold not found at {gold}"

/-- The number that digits stand for. -/
def digitsValue (cs : List Char) : ℕ :=
  Nat.ofDigits 10 (cs.reverse.map fun c => c.toNat - '0'.toNat)

/-- The number that digits with a point among them stand for. -/
def decimalValue (cs : List Char) : ℚ :=
  let decimals := (cs.dropWhile Char.isDigit).drop 1
  digitsValue (cs.takeWhile Char.isDigit) + digitsValue decimals / 10 ^ decimals.length

/-- A numeral in shell arithmetic. With a point in it the text is an error. -/
def shellInteger (cs : List Char) : Option ℕ :=
  if cs.all Char.isDigit then some (digitsValue cs) else none

/-- `TOTAL_PX`, an integer of the shell -/
structure PixelTotal where
  px : ℕ
  lt : px < 2 ^ 63

/-- `$((TOTAL_PX * DIFF_THRESHOLD_PCT / 100))` -/
def thresholdPx (total : PixelTotal) (pct : List Char) : Option ℤ :=
  (shellInteger pct).map fun p => Int.tdiv ((total.px * p : ℤ).bmod (2 ^ 64)) 100

/-- `[ "$diff" -ge "$threshold" ]`. It is an error, and so no, where the text of the count is
not an integer of the shell. -/
def testGe (diff : ℕ) (threshold : ℤ) : Bool := diff < 2 ^ 63 && threshold ≤ diff

/-! ### The world around a phase -/

/-- The steps of a comparison, each with the answer of its command. -/
structure Capture where
  screendump : Bool
  ppm : Bool
  convert : Bool
  /-- `sudo cp "$png" "$CURRENT"` -/
  copy : Bool
  /-- The status of the pipeline that `compare` is in. -/
  compare : Bool
  /-- What `awk` makes of the count, if that is digits. -/
  diffInt : Option ℕ
  /-- The status of the `awk` command that prints the percentage. -/
  percent : Bool

/-- What the commands of a phase answer. -/
structure PhaseEnv where
  gold : String
  goldExists : Bool
  /-- `docker run -d` -/
  launches : Bool
  /-- `docker stop` takes the container down. -/
  stops : Bool
  /-- The looks at the newest serial log: it is fresh, it is not, or the command fails. -/
  lookup : ℕ → Shell.Try
  /-- `grep -qE` in the serial log, at each look -/
  logMatches : ℕ → String → Bool
  /-- The seconds since the launch, at each look. -/
  elapsed : ℕ → ℕ
  elapsed_ge : ∀ k, 5 * k ≤ elapsed k
  bootTimeout : ℕ
  boot : Capture
  /-- `qmp_drive_input` -/
  drivesInput : Bool
  input : Capture
  /-- `[ -f "$INPUT_GOLD" ]` -/
  inputGold : Bool
  /-- `sudo cp "$INPUT_CURRENT" "$INPUT_GOLD"` -/
  copyInputGold : Bool

/-- The line that says how the phase went. -/
inductive Report
  | noSerialLog
  | panic
  | bootTimeout
  | screendump
  | noPpm
  | conversion
  | compareError
  | overThreshold (diff : ℕ)
  | inputInjection
  | inputScreendump
  | noInputPpm
  | inputConversion
  | inputCompareError
  | inputOverThreshold (inputDiff : ℕ)
  | bootstrapped (diff : ℕ)
  | passed (diff : ℕ) (inputDiff : Option ℕ)

/-- The line is a `PASS`. -/
def Report.passes : Report → Bool
  | .bootstrapped _ | .passed _ _ => true
  | _ => false

/-- The run of a phase. -/
structure PhaseState where
  /-- `docker run -d` has launched the container. -/
  launched : Bool
  /-- `teardown` has been called for it. -/
  tornDown : Bool
  /-- The count that the first image was found to differ in. -/
  counted : Option ℕ
  /-- The first image has passed. -/
  passedFirst : Bool
  report : Option Report

/-- Before the launch. -/
def phaseStart : PhaseState := ⟨false, false, none, false, none⟩

/-- `teardown` has been called. -/
def TornDown (e : Finish PhaseState) : Prop := e.state.tornDown = true

/-- The first image was found to differ in `diff` pixels. -/
def Counts (diff : ℕ) (e : Finish PhaseState) : Prop := e.state.counted = some diff

/-- The first image has passed. -/
def Passes (e : Finish PhaseState) : Prop := e.state.passedFirst = true

/-- The shell has given up. -/
def Discards (e : Finish PhaseState) : Prop := e.ending = .discarded

/-- The container is not left behind. -/
def PhaseState.Down (env : PhaseEnv) (s : PhaseState) : Prop :=
  s.launched = true → s.tornDown = true ∧ env.stops = true

/-! ### The script -/

/-- `teardown` -/
def teardown (s : PhaseState) : PhaseState := { s with tornDown := true }

/-- A `FAIL` line, `teardown` and `return 1` -/
def phaseFailed (r : Report) : Shell PhaseState :=
  Shell.leave (fun s => teardown { s with report := some r }) 1

/-- A `PASS` line, `teardown` and `return 0` -/
def phasePassed (r : Report) : Shell PhaseState :=
  Shell.leave (fun s => teardown { s with report := some r }) 0

namespace PhaseEnv

open Shell

variable (env : PhaseEnv)

/-- The part for `INPUT_VERIFY`. -/
def inputPart (errexit : Bool) (diff : ℕ) (threshold : ℤ) : Shell PhaseState :=
  handled env.drivesInput (phaseFailed .inputInjection) <|
  handled env.input.screendump (phaseFailed .inputScreendump) <|
  handled env.input.ppm (phaseFailed .noInputPpm) <|
  handled env.input.convert (phaseFailed .inputConversion) <|
  plain errexit env.input.copy <|
  if env.inputGold then
    plain errexit env.input.compare <|
    captured env.input.diffInt (phaseFailed .inputCompareError) fun inputDiff =>
    plain errexit env.input.percent <|
    handled (!testGe inputDiff threshold) (phaseFailed (.inputOverThreshold inputDiff)) <|
    phasePassed (.passed diff (some inputDiff))
  else
    plain errexit env.copyInputGold <|
    phasePassed (.bootstrapped diff)

/-- The threshold check and what follows it. -/
def verdict (errexit : Bool) (total : PixelTotal) (cfg : PhaseConfig) (diff : ℕ) :
    Shell PhaseState :=
  arithmetic (thresholdPx total cfg.diffThresholdPct) fun threshold =>
  plain errexit env.boot.percent <|
  handled (!testGe diff threshold) (phaseFailed (.overThreshold diff)) <|
  change (fun s => { s with passedFirst := true }) <|
  if cfg.inputVerify then env.inputPart errexit diff threshold else phasePassed (.passed diff none)

/-- The screendump and its comparison with the gold image. -/
def compareGold (errexit : Bool) (total : PixelTotal) (cfg : PhaseConfig) : Shell PhaseState :=
  handled env.boot.screendump (phaseFailed .screendump) <|
  handled env.boot.ppm (phaseFailed .noPpm) <|
  handled env.boot.convert (phaseFailed .conversion) <|
  plain errexit env.boot.copy <|
  plain errexit env.boot.compare <|
  captured env.boot.diffInt (phaseFailed .compareError) fun diff =>
  change (fun s => { s with counted := some diff }) <|
  env.verdict errexit total cfg diff

/-- The ways in which the wait for the boot marker ends. -/
inductive BootEnd
  | panicked
  | booted
  | timedOut

/-- The wait for the boot marker, from the look `k` on. -/
def bootEnd (cfg : PhaseConfig) (k : ℕ) : BootEnd :=
  if env.logMatches k cfg.failMarkers then .panicked
  else if env.logMatches k cfg.bootMarker then .booted
  else if env.elapsed k > env.bootTimeout then .timedOut
  else bootEnd cfg (k + 1)
termination_by env.bootTimeout + 1 - 5 * k
decreasing_by
  have hge := env.elapsed_ge k
  omega

/-- The wait for the boot marker and what follows it. -/
def awaitBoot (errexit : Bool) (total : PixelTotal) (cfg : PhaseConfig) : Shell PhaseState :=
  match env.bootEnd cfg 0 with
  | .panicked => phaseFailed .panic
  | .timedOut => phaseFailed .bootTimeout
  | .booted => env.compareGold errexit total cfg

/-- The looks at the serial log. -/
def maxLookups : ℕ := 60

/-- The launch and what follows it. -/
def launch (errexit : Bool) (total : PixelTotal) (cfg : PhaseConfig) : Shell PhaseState :=
  plain errexit env.launches <|
  change (fun s => { s with launched := env.launches }) <|
  retry errexit env.lookup (phaseFailed .noSerialLog) (env.awaitBoot errexit total cfg)
    maxLookups 0

end PhaseEnv

/-- `run_phase` -/
def runPhase (errexit : Bool) (total : PixelTotal) (phase : ℕ) (env : PhaseEnv) :
    Finish PhaseState :=
  match phaseConfig env.gold env.goldExists phase with
  | .error _ => ⟨phaseStart, .returned 2⟩
  | .ok cfg => env.launch errexit total cfg phaseStart

/-! ### What holds at every end -/

section Relates

open Shell

variable {R : PhaseState → Finish PhaseState → Prop}

/-- `R` holds wherever a run can end. -/
structure Respected (R : PhaseState → Finish PhaseState → Prop) : Prop where
  exited : ∀ s, R s ⟨s, .exited⟩
  discarded : ∀ s, R s ⟨s, .discarded⟩
  failed : ∀ r, r.passes = false → Relates R (phaseFailed r)
  passed : ∀ r, r.passes = true → Relates R (phasePassed r)

/-- What neither a report nor `teardown` changes. -/
theorem Respected.of_frame {β : Type*} {f : PhaseState → β}
    (h : ∀ s r, f (teardown { s with report := some r }) = f s) :
    Respected (Keeps f) :=
  ⟨fun _ => rfl, fun _ => rfl, fun r _ s => h s r, fun r _ s => h s r⟩

variable {env : PhaseEnv} {errexit : Bool} {total : PixelTotal} {cfg : PhaseConfig}

/-- The input part ends where `R` holds. -/
theorem relates_inputPart (h : Respected R) (diff : ℕ) (threshold : ℤ) :
    Relates R (env.inputPart errexit diff threshold) := by
  rw [PhaseEnv.inputPart]
  refine .handled (h.failed _ rfl) (.handled (h.failed _ rfl) (.handled (h.failed _ rfl)
    (.handled (h.failed _ rfl) (.plain h.exited ?_))))
  split
  · refine .plain h.exited (.captured (h.failed _ rfl) fun inputDiff => .plain h.exited ?_)
    exact .handled (h.failed _ rfl) (h.passed _ rfl)
  · exact .plain h.exited (h.passed _ rfl)

/-- So does the check of a count, if `R` does not see that it has passed. -/
theorem relates_verdict (h : Respected R)
    (hpassed : ∀ (s : PhaseState) e, R { s with passedFirst := true } e → R s e) (diff : ℕ) :
    Relates R (env.verdict errexit total cfg diff) := by
  rw [PhaseEnv.verdict]
  refine .arithmetic h.discarded fun threshold => .plain h.exited
    (.handled (h.failed _ rfl) (.change hpassed ?_))
  split
  · exact relates_inputPart h diff threshold
  · exact h.passed _ rfl

/-- So does the wait for the boot marker, if `R` does not see the count either. -/
theorem relates_awaitBoot (h : Respected R)
    (hpassed : ∀ (s : PhaseState) e, R { s with passedFirst := true } e → R s e)
    (hcounted : ∀ diff (s : PhaseState) e, R { s with counted := some diff } e → R s e) :
    Relates R (env.awaitBoot errexit total cfg) := by
  rw [PhaseEnv.awaitBoot]
  split
  · exact h.failed _ rfl
  · exact h.failed _ rfl
  · refine .handled (h.failed _ rfl) (.handled (h.failed _ rfl) (.handled (h.failed _ rfl) ?_))
    refine .plain h.exited (.plain h.exited (.captured (h.failed _ rfl) fun diff => ?_))
    exact .change (hcounted diff) (relates_verdict h hpassed diff)

/-- The container has been launched if `docker run -d` says so. -/
theorem launch_launched :
    (env.launch errexit total cfg phaseStart).state.launched = env.launches := by
  have hframe : Respected (Keeps PhaseState.launched) := .of_frame fun _ _ => rfl
  have hretry : Relates (Keeps PhaseState.launched) (retry errexit env.lookup
      (phaseFailed .noSerialLog) (env.awaitBoot errexit total cfg) PhaseEnv.maxLookups 0) :=
    .retry hframe.exited (hframe.failed _ rfl)
      (relates_awaitBoot hframe (fun _ _ h => h) fun _ _ _ h => h) _ _
  rw [PhaseEnv.launch, plain]
  split
  · next h =>
    simp only [Bool.and_eq_true, Bool.not_eq_true'] at h
    exact h.2.symm
  · exact hretry _

/-- A run without a line so far returns 0 exactly with a `PASS` line. -/
def ReportsStatus (s : PhaseState) (e : Finish PhaseState) : Prop :=
  s.report = none → (e.ending = .returned 0 ↔ ∃ r, e.state.report = some r ∧ r.passes = true)

/-- The status is that of the report wherever a run ends. -/
theorem reportsStatus_respected : Respected ReportsStatus where
  exited s hs := by simp [hs]
  discarded s hs := by simp [hs]
  failed r hr s _ := by simp [phaseFailed, leave, teardown, hr]
  passed r hr s _ := by simp [phasePassed, leave, teardown, hr]

/-- **The line and the status.** A run returns 0 exactly when it says that the phase has
passed. -/
theorem runPhase_returns_zero_iff {phase : ℕ} :
    (runPhase errexit total phase env).ending = .returned 0 ↔
      ∃ r, (runPhase errexit total phase env).state.report = some r ∧ r.passes = true := by
  have hend := reportsStatus_respected
  rw [runPhase]
  split
  · simp [phaseStart]
  · next cfg _ =>
    have hlaunch : Relates ReportsStatus (env.launch errexit total cfg) :=
      .plain hend.exited (.change (fun _ _ h => h) (.retry hend.exited (hend.failed _ rfl)
        (relates_awaitBoot hend (fun _ _ h => h) fun _ _ _ h => h) _ _))
    exact hlaunch phaseStart rfl

end Relates

/-! ### The way to the comparison -/

namespace PhaseEnv

/-- The boot marker is found before a fail marker, and before the time is up. -/
def Boots (env : PhaseEnv) (cfg : PhaseConfig) : Prop :=
  ∃ n, env.logMatches n cfg.bootMarker = true ∧
    (∀ j ≤ n, env.logMatches j cfg.failMarkers = false) ∧
    ∀ j < n, env.logMatches j cfg.bootMarker = false ∧ env.elapsed j ≤ env.bootTimeout

/-- The run comes to the comparison with the gold image. -/
structure Captured (env : PhaseEnv) (errexit : Bool) (cfg : PhaseConfig) : Prop where
  launches : errexit = true → env.launches = true
  lookups : Shell.Succeeds errexit env.lookup maxLookups 0
  boots : env.Boots cfg
  screendump : env.boot.screendump = true
  ppm : env.boot.ppm = true
  convert : env.boot.convert = true

/-- The comparison gives a count. -/
structure Counted (env : PhaseEnv) (errexit : Bool) (cfg : PhaseConfig) (diff : ℕ) : Prop
    extends env.Captured errexit cfg where
  copy : errexit = true → env.boot.copy = true
  compare : errexit = true → env.boot.compare = true
  diffInt : env.boot.diffInt = some diff

end PhaseEnv

section Ends

open Shell

variable {env : PhaseEnv} {errexit : Bool} {total : PixelTotal} {cfg : PhaseConfig}
variable {s : PhaseState}

/-- The wait comes to an end, whatever the log says, since every look takes its time. -/
theorem bootEnd_eq_booted_iff (k : ℕ) :
    env.bootEnd cfg k = .booted ↔ ∃ n, k ≤ n ∧ env.logMatches n cfg.bootMarker = true ∧
      (∀ j, k ≤ j → j ≤ n → env.logMatches j cfg.failMarkers = false) ∧
      ∀ j, k ≤ j → j < n →
        env.logMatches j cfg.bootMarker = false ∧ env.elapsed j ≤ env.bootTimeout := by
  fun_induction PhaseEnv.bootEnd env cfg k with
  | case1 k hfail =>
    refine ⟨fun h => (by cases h), ?_⟩
    rintro ⟨n, hn, -, hnone, -⟩
    exact absurd hfail (by rw [hnone k (Nat.le_refl k) hn]; decide)
  | case2 k hfail hboot =>
    refine ⟨fun _ => ⟨k, Nat.le_refl k, hboot, fun j hj hle => ?_, fun j hj hlt => ?_⟩,
      fun _ => rfl⟩
    · rw [Nat.le_antisymm hle hj]
      exact Bool.eq_false_iff.2 hfail
    · omega
  | case3 k hfail hboot htime =>
    refine ⟨fun h => (by cases h), ?_⟩
    rintro ⟨n, hn, hfound, -, hbefore⟩
    have hlt : k < n := Nat.lt_of_le_of_ne hn fun heq => hboot (heq ▸ hfound)
    exact absurd htime (Nat.not_lt.2 (hbefore k (Nat.le_refl k) hlt).2)
  | case4 k hfail hboot htime ih =>
    rw [ih]
    constructor
    · rintro ⟨n, hn, hfound, hnone, hbefore⟩
      refine ⟨n, Nat.le_of_succ_le hn, hfound, fun j hj hle => ?_, fun j hj hlt => ?_⟩
      · obtain rfl | hlater := Nat.eq_or_lt_of_le hj
        · exact Bool.eq_false_iff.2 hfail
        · exact hnone j hlater hle
      · obtain rfl | hlater := Nat.eq_or_lt_of_le hj
        · exact ⟨Bool.eq_false_iff.2 hboot, Nat.not_lt.1 htime⟩
        · exact hbefore j hlater hlt
    · rintro ⟨n, hn, hfound, hnone, hbefore⟩
      have hlt : k < n := Nat.lt_of_le_of_ne hn fun heq => hboot (heq ▸ hfound)
      exact ⟨n, hlt, hfound, fun j hj hle => hnone j (Nat.le_of_succ_le hj) hle,
        fun j hj hlt' => hbefore j (Nat.le_of_succ_le hj) hlt'⟩

/-- The wait ends with the marker exactly when a look finds it before a panic or the timeout. -/
theorem bootEnd_zero_iff : env.bootEnd cfg 0 = .booted ↔ env.Boots cfg := by
  rw [bootEnd_eq_booted_iff, PhaseEnv.Boots]
  simp only [Nat.zero_le, true_and, true_imp_iff]

/-- The input part takes the container down unless it comes to a command that fails. -/
def PhaseEnv.InputKept (env : PhaseEnv) : Prop :=
  env.drivesInput = true → env.input.screendump = true → env.input.ppm = true →
    env.input.convert = true → env.input.copy = true ∧
      (env.inputGold = true → env.input.compare = true ∧
        ∀ inputDiff, env.input.diffInt = some inputDiff → env.input.percent = true) ∧
      (env.inputGold = false → env.copyInputGold = true)

/-- The input part takes the container down exactly when its bare commands do not end it. -/
theorem ends_inputPart_iff (hs : s.tornDown = false) (diff : ℕ) (threshold : ℤ) :
    Ends TornDown (env.inputPart errexit diff threshold) s ↔
      (errexit = true → env.InputKept) := by
  have hnot : ∀ ending, ¬TornDown ⟨s, ending⟩ := fun _ => by simp [TornDown, hs]
  have hfail : ∀ r, Ends TornDown (phaseFailed r) s := fun _ => rfl
  have hpass : ∀ r, Ends TornDown (phasePassed r) s := fun _ => rfl
  rw [PhaseEnv.inputPart, PhaseEnv.InputKept, ends_handled_iff (hfail _),
    ends_handled_iff (hfail _), ends_handled_iff (hfail _), ends_handled_iff (hfail _),
    ends_plain_iff (hnot _)]
  cases hgold : env.inputGold with
  | false =>
    rw [if_neg Bool.false_ne_true, ends_plain_iff (hnot _)]
    simp only [hpass, and_true]
    grind
  | true =>
    rw [if_pos rfl, ends_plain_iff (hnot _), ends_captured_iff (hfail _)]
    simp only [ends_plain_iff (hnot _), ends_handled_iff (hfail _), hpass, implies_true, and_true]
    grind

/-- What it takes for the check of a count to end with the container taken down. -/
def PhaseEnv.VerdictKept (env : PhaseEnv) (errexit : Bool) (total : PixelTotal)
    (cfg : PhaseConfig) (diff : ℕ) : Prop :=
  ∃ threshold, thresholdPx total cfg.diffThresholdPct = some threshold ∧
    (errexit = true → env.boot.percent = true) ∧
      (testGe diff threshold = false → cfg.inputVerify = true → errexit = true → env.InputKept)

/-- So does the check of a count, when its threshold is an integer of the shell as well. -/
theorem ends_verdict_iff (hs : s.tornDown = false) (diff : ℕ) :
    Ends TornDown (env.verdict errexit total cfg diff) s ↔
      env.VerdictKept errexit total cfg diff := by
  have hnot : ∀ ending, ¬TornDown ⟨s, ending⟩ := fun _ => by simp [TornDown, hs]
  have hfail : ∀ r, Ends TornDown (phaseFailed r) s := fun _ => rfl
  rw [PhaseEnv.verdict, PhaseEnv.VerdictKept, ends_arithmetic_iff (hnot _)]
  refine exists_congr fun threshold => and_congr_right fun _ => ?_
  rw [ends_plain_iff (hnot _), ends_handled_iff (hfail _), ends_change_iff]
  refine and_congr_right fun _ => ?_
  rw [Bool.not_eq_true', Bool.eq_false_iff]
  refine imp_congr_right fun _ => ?_
  cases hinput : cfg.inputVerify with
  | false => exact ⟨fun _ h => absurd h Bool.false_ne_true, fun _ => rfl⟩
  | true =>
    rw [if_pos rfl, ends_inputPart_iff (s := { s with passedFirst := true }) hs]
    exact ⟨fun h _ => h, fun h => h rfl⟩

/-- What it takes for a run to call `teardown`. -/
structure PhaseEnv.TeardownKept (env : PhaseEnv) (errexit : Bool) (total : PixelTotal)
    (cfg : PhaseConfig) : Prop where
  launches : errexit = true → env.launches = true
  lookups : errexit = true → Kept env.lookup PhaseEnv.maxLookups 0
  copy : env.Captured errexit cfg → errexit = true → env.boot.copy = true
  compare : env.Captured errexit cfg → errexit = true → env.boot.compare = true
  verdict : ∀ diff, env.Counted errexit cfg diff → env.VerdictKept errexit total cfg diff

/-- So does the comparison, when the copy and `compare` do not end the run and every count is kept.
-/
theorem ends_compareGold_iff (hs : s.tornDown = false) :
    Ends TornDown (env.compareGold errexit total cfg) s ↔
      (env.boot.screendump = true → env.boot.ppm = true → env.boot.convert = true →
        (errexit = true → env.boot.copy = true) ∧ (errexit = true → env.boot.compare = true) ∧
          ∀ diff, env.boot.diffInt = some diff → env.VerdictKept errexit total cfg diff) := by
  have hnot : ∀ ending, ¬TornDown ⟨s, ending⟩ := fun _ => by simp [TornDown, hs]
  have hfail : ∀ r, Ends TornDown (phaseFailed r) s := fun _ => rfl
  rw [PhaseEnv.compareGold, ends_handled_iff (hfail _), ends_handled_iff (hfail _),
    ends_handled_iff (hfail _), ends_plain_iff (hnot _), ends_plain_iff (hnot _),
    ends_captured_iff (hfail _)]
  have hverdict : ∀ diff, Ends TornDown
      (change (fun s => { s with counted := some diff }) (env.verdict errexit total cfg diff)) s ↔
        env.VerdictKept errexit total cfg diff := fun diff =>
    ends_change_iff.trans (ends_verdict_iff (s := { s with counted := some diff }) hs diff)
  simp only [hverdict]

/-- A wait without the marker calls `teardown` in any case. -/
theorem ends_awaitBoot_iff :
    Ends TornDown (env.awaitBoot errexit total cfg) s ↔
      (env.Boots cfg → Ends TornDown (env.compareGold errexit total cfg) s) := by
  rw [← bootEnd_zero_iff, PhaseEnv.awaitBoot]
  cases env.bootEnd cfg 0 with
  | panicked => exact ⟨fun _ h => (by cases h), fun _ => rfl⟩
  | timedOut => exact ⟨fun _ h => (by cases h), fun _ => rfl⟩
  | booted => exact ⟨fun h _ => h, fun h => h rfl⟩

/-- When a run calls `teardown`. -/
theorem ends_launch_iff :
    Ends TornDown (env.launch errexit total cfg) phaseStart ↔
      env.TeardownKept errexit total cfg := by
  have hstart : ¬TornDown ⟨phaseStart, .exited⟩ := Bool.false_ne_true
  have hlaunched : ¬TornDown ⟨{ phaseStart with launched := env.launches }, .exited⟩ :=
    Bool.false_ne_true
  have hfail : Ends TornDown (phaseFailed .noSerialLog)
      { phaseStart with launched := env.launches } := rfl
  rw [PhaseEnv.launch, ends_plain_iff hstart, ends_change_iff, ends_retry_iff hlaunched hfail,
    ends_awaitBoot_iff, ends_compareGold_iff rfl]
  constructor
  · rintro ⟨hlaunches, hlookups, hrest⟩
    refine ⟨hlaunches, hlookups, fun hc => ?_, fun hc => ?_, fun diff hc => ?_⟩
    · exact (hrest hc.lookups hc.boots hc.screendump hc.ppm hc.convert).1
    · exact (hrest hc.lookups hc.boots hc.screendump hc.ppm hc.convert).2.1
    · exact (hrest hc.lookups hc.boots hc.screendump hc.ppm hc.convert).2.2 diff hc.diffInt
  · rintro ⟨hlaunches, hlookups, hcopy, hcompare, hverdict⟩
    refine ⟨hlaunches, hlookups, fun hfound hboots hdump hppm hconvert => ?_⟩
    have hc : env.Captured errexit cfg := ⟨hlaunches, hfound, hboots, hdump, hppm, hconvert⟩
    exact ⟨hcopy hc, hcompare hc, fun diff hdiff =>
      hverdict diff ⟨hc, hcopy hc, hcompare hc, hdiff⟩⟩

/-- What is only ever brought about by the comparison. -/
theorem not_ends_launch {Q : Finish PhaseState → Prop}
    (hnot : ∀ (s : PhaseState) ending, ending ≠ .discarded → s.counted = none →
      s.passedFirst = false → ¬Q ⟨s, ending⟩) :
    Ends Q (env.launch errexit total cfg) phaseStart ↔
      ∃ diff, env.Counted errexit cfg diff ∧ Ends Q (env.verdict errexit total cfg diff)
        { phaseStart with launched := env.launches, counted := some diff } := by
  have hfail : ∀ r, ¬Ends Q (phaseFailed r) { phaseStart with launched := env.launches } :=
    fun r => hnot _ _ (by decide) rfl rfl
  have hlaunched : ¬Q ⟨{ phaseStart with launched := env.launches }, .exited⟩ :=
    hnot _ _ (by decide) rfl rfl
  have hawait : Ends Q (env.awaitBoot errexit total cfg)
      { phaseStart with launched := env.launches } ↔ env.Boots cfg ∧
        Ends Q (env.compareGold errexit total cfg)
          { phaseStart with launched := env.launches } := by
    rw [← bootEnd_zero_iff, PhaseEnv.awaitBoot]
    cases env.bootEnd cfg 0 with
    | panicked => exact ⟨fun h => absurd h (hfail _), fun h => (by cases h.1)⟩
    | timedOut => exact ⟨fun h => absurd h (hfail _), fun h => (by cases h.1)⟩
    | booted => exact ⟨fun h => ⟨rfl, h⟩, And.right⟩
  rw [PhaseEnv.launch, ends_plain_iff (hnot _ _ (by decide) rfl rfl), ends_change_iff,
    not_ends_retry hlaunched (hfail _), hawait, PhaseEnv.compareGold,
    not_ends_handled (hfail _), not_ends_handled (hfail _), not_ends_handled (hfail _),
    ends_plain_iff hlaunched, ends_plain_iff hlaunched, not_ends_captured (hfail _)]
  constructor
  · rintro ⟨hlaunches, hfound, hboots, hdump, hppm, hconvert, hcopy, hcompare, diff, hdiff, hends⟩
    exact ⟨diff, ⟨⟨hlaunches, hfound, hboots, hdump, hppm, hconvert⟩, hcopy, hcompare, hdiff⟩,
      hends⟩
  · rintro ⟨diff, ⟨⟨hlaunches, hfound, hboots, hdump, hppm, hconvert⟩, hcopy, hcompare, hdiff⟩,
      hends⟩
    exact ⟨hlaunches, hfound, hboots, hdump, hppm, hconvert, hcopy, hcompare, diff, hdiff, hends⟩

/-- The count that a run ends with. -/
theorem launch_counted_iff {diff : ℕ} :
    (env.launch errexit total cfg phaseStart).state.counted = some diff ↔
      env.Counted errexit cfg diff := by
  have hkeeps : ∀ d, Relates (Keeps PhaseState.counted) (env.verdict errexit total cfg d) :=
    relates_verdict (.of_frame fun _ _ => rfl) fun _ _ h => h
  refine (not_ends_launch (Q := Counts diff) fun t _ _ ht _ h => ?_).trans ?_
  · cases ht.symm.trans h
  · refine ⟨fun ⟨d, hcounted, hends⟩ => ?_, fun h => ⟨diff, h, hkeeps diff _⟩⟩
    obtain rfl : d = diff := Option.some.inj ((hkeeps d _).symm.trans hends)
    exact hcounted

/-- When a run passes the first image. -/
theorem launch_passes_iff :
    (env.launch errexit total cfg phaseStart).state.passedFirst = true ↔
      ∃ diff, env.Counted errexit cfg diff ∧
        ∃ threshold, thresholdPx total cfg.diffThresholdPct = some threshold ∧
          (errexit = true → env.boot.percent = true) ∧ testGe diff threshold = false := by
  refine (not_ends_launch (Q := Passes) fun t _ _ _ ht h => ?_).trans ?_
  · cases ht.symm.trans h
  · refine exists_congr fun diff => and_congr_right fun _ => ?_
    have hnot : ∀ ending, ¬Passes
        ⟨{ phaseStart with launched := env.launches, counted := some diff }, ending⟩ :=
      fun _ => Bool.false_ne_true
    have hfail : ¬Ends Passes (phaseFailed (.overThreshold diff))
        { phaseStart with launched := env.launches, counted := some diff } := hnot (.returned 1)
    rw [PhaseEnv.verdict, ends_arithmetic_iff (hnot _)]
    refine exists_congr fun threshold => and_congr_right fun _ => ?_
    rw [ends_plain_iff (hnot _), not_ends_handled hfail, ends_change_iff, Bool.not_eq_true']
    refine and_congr_right fun _ => ⟨And.left, fun h => ⟨h, ?_⟩⟩
    split
    · have hkeeps : Respected (Keeps PhaseState.passedFirst) := .of_frame fun _ _ => rfl
      exact relates_inputPart hkeeps diff threshold _
    · rfl

/-- No arithmetic of the input part can fail. -/
theorem not_discards_inputPart (diff : ℕ) (threshold : ℤ) (s : PhaseState) :
    ¬Ends Discards (env.inputPart errexit diff threshold) s := by
  have hexit : ¬Discards ⟨s, .exited⟩ := by simp [Discards]
  have hfail : ∀ r, ¬Ends Discards (phaseFailed r) s := fun r h => by cases h
  have hpass : ∀ r, ¬Ends Discards (phasePassed r) s := fun r h => by cases h
  rw [PhaseEnv.inputPart, not_ends_handled (hfail _), not_ends_handled (hfail _),
    not_ends_handled (hfail _), not_ends_handled (hfail _), ends_plain_iff hexit]
  rintro ⟨-, -, -, -, -, h⟩
  split at h
  · rw [ends_plain_iff hexit, not_ends_captured (hfail _)] at h
    obtain ⟨-, inputDiff, -, h⟩ := h
    rw [ends_plain_iff hexit, not_ends_handled (hfail _)] at h
    exact hpass _ h.2.2
  · rw [ends_plain_iff hexit] at h
    exact hpass _ h.2

/-- The shell gives up a run exactly when it comes to a percentage that is no integer. -/
theorem launch_discards_iff :
    (env.launch errexit total cfg phaseStart).ending = .discarded ↔
      ∃ diff, env.Counted errexit cfg diff ∧ thresholdPx total cfg.diffThresholdPct = none := by
  refine (not_ends_launch (Q := Discards) fun t _ hne _ _ h => hne h).trans ?_
  refine exists_congr fun diff => and_congr_right fun _ => ?_
  rw [PhaseEnv.verdict]
  cases thresholdPx total cfg.diffThresholdPct with
  | none => exact ⟨fun _ => rfl, fun _ => rfl⟩
  | some threshold =>
    refine ⟨fun h => absurd h ?_, fun h => by cases h⟩
    have hexit : ¬Discards
        ⟨{ phaseStart with launched := env.launches, counted := some diff }, .exited⟩ := by
      simp [Discards]
    have hfail : ¬Ends Discards (phaseFailed (.overThreshold diff))
        { phaseStart with launched := env.launches, counted := some diff } := fun h => by cases h
    change ¬Ends Discards (plain errexit env.boot.percent _) _
    rw [ends_plain_iff hexit, not_ends_handled hfail, ends_change_iff]
    rintro ⟨-, -, h⟩
    split at h
    · exact not_discards_inputPart diff threshold _ h
    · cases h

end Ends

/-! ### Percentages -/

/-- The percentage of phase 0 is a fraction, that of the others is a whole number. -/
theorem phaseConfig_cases {gold : String} {goldExists : Bool} {phase : ℕ} {cfg : PhaseConfig}
    (h : phaseConfig gold goldExists phase = .ok cfg) :
    (phase = 0 ∧ cfg.diffThresholdPct = "1.5".toList) ∨
      (phase ≠ 0 ∧ cfg.diffThresholdPct = "2".toList) := by
  cases goldExists with
  | false =>
    rw [phaseConfig] at h
    cases hcfg : phaseSettings phase with
    | error e => rw [hcfg] at h; cases h
    | ok c => rw [hcfg] at h; cases h
  | true =>
    match phase with
    | 0 => cases h; exact .inl ⟨rfl, rfl⟩
    | 1 | 2 | 3 => cases h; exact .inr ⟨by decide, rfl⟩
    | 4 => cases h
    | phase + 5 => cases h

/-- The percentage of phase 0. -/
theorem decimalValue_fraction : decimalValue "1.5".toList = 3 / 2 := by
  have htake : ("1.5".toList).takeWhile Char.isDigit = ['1'] := by decide
  have hdrop : (("1.5".toList).dropWhile Char.isDigit).drop 1 = ['5'] := by decide
  have hone : digitsValue ['1'] = 1 := by decide
  have hfive : digitsValue ['5'] = 5 := by decide
  rw [decimalValue, htake, hdrop, hone, hfive]
  norm_num

/-- The percentage of the other phases. -/
theorem decimalValue_whole : decimalValue "2".toList = 2 := by
  have htake : ("2".toList).takeWhile Char.isDigit = ['2'] := by decide
  have hdrop : (("2".toList).dropWhile Char.isDigit).drop 1 = [] := by decide
  have htwo : digitsValue ['2'] = 2 := by decide
  have hnil : digitsValue [] = 0 := by decide
  rw [decimalValue, htake, hdrop, htwo, hnil]
  norm_num

/-- `1.5` is no integer of the shell, so phase 0 has no threshold. -/
theorem thresholdPx_fraction (total : PixelTotal) : thresholdPx total "1.5".toList = none := by
  have hpct : shellInteger "1.5".toList = none := by decide
  rw [thresholdPx, hpct]
  rfl

/-- 2 percent, as the shell computes them. -/
theorem thresholdPx_whole (total : PixelTotal) :
    thresholdPx total "2".toList = some (Int.tdiv ((total.px * 2 : ℤ).bmod (2 ^ 64)) 100) := by
  have hpct : shellInteger "2".toList = some 2 := by decide
  rw [thresholdPx, hpct]
  rfl

/-- The count is an integer of the shell, and is not the one whole number that lies under 2
percent of the pixels and not under the whole part of them. Where twice the pixels are no
integer of the shell, it is at least 2 percent of the pixels. -/
structure ExactCount (px diff : ℕ) : Prop where
  lt : diff < 2 ^ 63
  whole : 2 * px < 2 ^ 63 → 100 ∣ 2 * px ∨ diff ≠ 2 * px / 100
  overflow : 2 ^ 63 ≤ 2 * px → px ≤ 50 * diff

/-- **The rounded threshold.** It decides as 2 percent do exactly for these counts. -/
theorem passes_iff_exact (total : PixelTotal) (diff : ℕ) :
    (testGe diff (Int.tdiv ((total.px * 2 : ℤ).bmod (2 ^ 64)) 100) = false ↔
      50 * diff < total.px) ↔ ExactCount total.px diff := by
  have hpx := total.lt
  generalize total.px = px at hpx
  have hexact : ExactCount px diff ↔ diff < 2 ^ 63 ∧
      (2 * px < 2 ^ 63 → 100 ∣ 2 * px ∨ diff ≠ 2 * px / 100) ∧
        (2 ^ 63 ≤ 2 * px → px ≤ 50 * diff) :=
    ⟨fun h => ⟨h.lt, h.whole, h.overflow⟩, fun h => ⟨h.1, h.2.1, h.2.2⟩⟩
  rw [hexact, testGe, Bool.and_eq_false_iff, decide_eq_false_iff_not, decide_eq_false_iff_not,
    Nat.not_lt, Int.not_le]
  by_cases hsmall : 2 * px < 2 ^ 63
  · have hwrap : ((px : ℤ) * 2).bmod (2 ^ 64) = px * 2 :=
      Int.bmod_eq_of_le_mul_two (by omega) (by omega)
    rw [hwrap, Int.tdiv_eq_ediv_of_nonneg (by omega)]
    omega
  · have hwrap : ((px : ℤ) * 2).bmod (2 ^ 64) = px * 2 - 2 ^ 64 := by
      rw [Int.bmod_eq_iff (by decide)]
      omega
    have hneg : Int.tdiv ((px : ℤ) * 2 - 2 ^ 64) 100 ≤ 0 := by
      have hle := Int.tdiv_le_tdiv (c := 100) (by decide)
        (show (px : ℤ) * 2 - 2 ^ 64 ≤ 0 by omega)
      rwa [Int.zero_tdiv] at hle
    rw [hwrap]
    omega

/-! ### Verdict and teardown -/

/-- The first image passes exactly when it differs in less than the percentage of its pixels,
and the container is not left behind. -/
structure PhaseSound (total : PixelTotal) (phase : ℕ) (env : PhaseEnv) (s : PhaseState) : Prop where
  verdict : s.passedFirst = true ↔ ∃ cfg diff,
    phaseConfig env.gold env.goldExists phase = .ok cfg ∧ s.counted = some diff ∧
      (diff : ℚ) < decimalValue cfg.diffThresholdPct / 100 * total.px
  down : s.Down env

/-- The commands that nobody looks after succeed when a run comes to them under `set -e`, phase
0 does not come to its threshold, and the others come to it with a count for which it is
exact. -/
structure Covered (errexit : Bool) (total : PixelTotal) (phase : ℕ) (env : PhaseEnv)
    (cfg : PhaseConfig) : Prop where
  stops : env.launches = true → env.stops = true
  lookups : errexit = true → env.launches = true → Shell.Kept env.lookup PhaseEnv.maxLookups 0
  copy : env.Captured errexit cfg → errexit = true → env.boot.copy = true
  compare : env.Captured errexit cfg → errexit = true → env.boot.compare = true
  percent : ∀ diff, env.Counted errexit cfg diff → errexit = true → env.boot.percent = true
  /-- Without a container, nothing is left behind, and no count under the percentage may be
  missed. -/
  fraction : phase = 0 → ∀ diff, env.Counted errexit cfg diff →
    env.launches = false ∧ 3 * total.px ≤ 200 * diff
  whole : phase ≠ 0 → ∀ diff, env.Counted errexit cfg diff → ExactCount total.px diff
  input : cfg.inputVerify = true → ∀ diff, env.Counted errexit cfg diff →
    50 * diff < total.px → errexit = true → env.InputKept

section Sound

variable {env : PhaseEnv} {errexit : Bool} {total : PixelTotal} {cfg : PhaseConfig} {phase : ℕ}

/-- A run counts once. -/
theorem PhaseEnv.Counted.unique {d d' : ℕ} (h : env.Counted errexit cfg d)
    (h' : env.Counted errexit cfg d') : d = d' :=
  Option.some.inj (h.diffInt.symm.trans h'.diffInt)

/-- Less than 1.5 percent of the pixels, without a fraction. -/
theorem under_fraction_iff {px diff : ℕ} :
    (diff : ℚ) < decimalValue "1.5".toList / 100 * px ↔ 200 * diff < 3 * px := by
  rw [decimalValue_fraction, ← Nat.cast_lt (α := ℚ)]
  push_cast
  constructor <;> intro h <;> linarith

/-- Less than 2 percent of the pixels, without a fraction. -/
theorem under_whole_iff {px diff : ℕ} :
    (diff : ℚ) < decimalValue "2".toList / 100 * px ↔ 50 * diff < px := by
  rw [decimalValue_whole, ← Nat.cast_lt (α := ℚ)]
  push_cast
  constructor <;> intro h <;> linarith

/-- The settings of a phase that is run. -/
theorem runPhase_eq (h : phaseConfig env.gold env.goldExists phase = .ok cfg) :
    runPhase errexit total phase env = env.launch errexit total cfg phaseStart := by
  rw [runPhase, h]

/-- The container is not left behind exactly when `teardown` is called after a launch. -/
theorem down_launch_iff :
    (env.launch errexit total cfg phaseStart).state.Down env ↔
      (env.launches = true → env.TeardownKept errexit total cfg ∧ env.stops = true) := by
  rw [PhaseState.Down, launch_launched, ← ends_launch_iff]
  rfl

/-- The first image differs in less than the percentage. -/
theorem under_percentage_iff (hconfig : phaseConfig env.gold env.goldExists phase = .ok cfg) :
    (∃ cfg' diff, phaseConfig env.gold env.goldExists phase = .ok cfg' ∧
      (env.launch errexit total cfg phaseStart).state.counted = some diff ∧
        (diff : ℚ) < decimalValue cfg'.diffThresholdPct / 100 * total.px) ↔
      ∃ diff, env.Counted errexit cfg diff ∧
        (diff : ℚ) < decimalValue cfg.diffThresholdPct / 100 * total.px := by
  constructor
  · rintro ⟨cfg', diff, hconfig', hcounted, hlt⟩
    obtain rfl : cfg = cfg' := Except.ok.inj (hconfig.symm.trans hconfig')
    exact ⟨diff, launch_counted_iff.1 hcounted, hlt⟩
  · rintro ⟨diff, hcounted, hlt⟩
    exact ⟨cfg, diff, hconfig, launch_counted_iff.2 hcounted, hlt⟩

/-- The verdict for a percentage that is a fraction. -/
theorem verdict_fraction_iff (hpct : cfg.diffThresholdPct = "1.5".toList) :
    ((env.launch errexit total cfg phaseStart).state.passedFirst = true ↔
      ∃ diff, env.Counted errexit cfg diff ∧
        (diff : ℚ) < decimalValue cfg.diffThresholdPct / 100 * total.px) ↔
      ∀ diff, env.Counted errexit cfg diff → 3 * total.px ≤ 200 * diff := by
  rw [launch_passes_iff, hpct, thresholdPx_fraction]
  simp only [under_fraction_iff]
  constructor
  · intro h diff hcounted
    refine Nat.not_lt.1 fun hlt => ?_
    obtain ⟨_, _, threshold, hthreshold, -⟩ := h.2 ⟨diff, hcounted, hlt⟩
    cases hthreshold
  · intro h
    constructor
    · rintro ⟨_, _, threshold, hthreshold, -⟩
      cases hthreshold
    · rintro ⟨diff, hcounted, hlt⟩
      exact absurd hlt (Nat.not_lt.2 (h diff hcounted))

/-- The verdict for 2 percent, where the command that prints the percentage does not end the
run. -/
theorem verdict_whole_iff (hpct : cfg.diffThresholdPct = "2".toList)
    (hpercent : ∀ diff, env.Counted errexit cfg diff → errexit = true → env.boot.percent = true) :
    ((env.launch errexit total cfg phaseStart).state.passedFirst = true ↔
      ∃ diff, env.Counted errexit cfg diff ∧
        (diff : ℚ) < decimalValue cfg.diffThresholdPct / 100 * total.px) ↔
      ∀ diff, env.Counted errexit cfg diff → ExactCount total.px diff := by
  rw [launch_passes_iff, hpct, thresholdPx_whole]
  simp only [← passes_iff_exact, under_whole_iff]
  constructor
  · intro h diff hcounted
    constructor
    · intro hpass
      obtain ⟨d, hd, hlt⟩ := h.1 ⟨diff, hcounted, _, rfl, hpercent diff hcounted, hpass⟩
      rwa [hcounted.unique hd]
    · intro hlt
      obtain ⟨d, hd, threshold, hthreshold, -, hpass⟩ := h.2 ⟨diff, hcounted, hlt⟩
      rwa [hcounted.unique hd, Option.some.inj hthreshold]
  · intro h
    constructor
    · rintro ⟨diff, hcounted, threshold, hthreshold, -, hpass⟩
      rw [← Option.some.inj hthreshold] at hpass
      exact ⟨diff, hcounted, (h diff hcounted).1 hpass⟩
    · rintro ⟨diff, hcounted, hlt⟩
      exact ⟨diff, hcounted, _, rfl, hpercent diff hcounted, (h diff hcounted).2 hlt⟩

/-- The check of a count for 2 percent calls `teardown` if the commands succeed that it comes
to. -/
theorem verdictKept_whole_iff (hpct : cfg.diffThresholdPct = "2".toList) {diff : ℕ}
    (hexact : ExactCount total.px diff) :
    env.VerdictKept errexit total cfg diff ↔ (errexit = true → env.boot.percent = true) ∧
      (50 * diff < total.px → cfg.inputVerify = true → errexit = true → env.InputKept) := by
  rw [PhaseEnv.VerdictKept, hpct, thresholdPx_whole, ← (passes_iff_exact total diff).2 hexact]
  constructor
  · rintro ⟨threshold, hthreshold, hrest⟩
    rwa [← Option.some.inj hthreshold] at hrest
  · exact fun h => ⟨_, rfl, h⟩

/-- No count of phase 0 comes to `teardown`. -/
theorem not_verdictKept_fraction (hpct : cfg.diffThresholdPct = "1.5".toList) (diff : ℕ) :
    ¬env.VerdictKept errexit total cfg diff := by
  rintro ⟨threshold, hthreshold, -⟩
  rw [hpct, thresholdPx_fraction] at hthreshold
  cases hthreshold

/-- What a run that leaves no container behind says about its commands. -/
theorem commands_of_down
    (hdown : env.launches = true → env.TeardownKept errexit total cfg ∧ env.stops = true) :
    (errexit = true → env.launches = true → Shell.Kept env.lookup PhaseEnv.maxLookups 0) ∧
      (env.Captured errexit cfg → errexit = true → env.boot.copy = true) ∧
      (env.Captured errexit cfg → errexit = true → env.boot.compare = true) ∧
      ∀ diff, env.Counted errexit cfg diff → errexit = true →
        env.VerdictKept errexit total cfg diff :=
  ⟨fun he hlaunches => (hdown hlaunches).1.lookups he,
    fun hc he => (hdown (hc.launches he)).1.copy hc he,
    fun hc he => (hdown (hc.launches he)).1.compare hc he,
    fun diff hc he => (hdown (hc.launches he)).1.verdict diff hc⟩

/-- A covered run whose counts are kept calls `teardown`. -/
theorem Covered.teardownKept (h : Covered errexit total phase env cfg)
    (hlaunches : env.launches = true)
    (hverdict : ∀ diff, env.Counted errexit cfg diff → env.VerdictKept errexit total cfg diff) :
    env.TeardownKept errexit total cfg :=
  ⟨fun _ => hlaunches, fun he => h.lookups he hlaunches, h.copy, h.compare, hverdict⟩

/-- Phase 0, whose check calls `teardown` for no count. -/
theorem covered_fraction_iff (hpct : cfg.diffThresholdPct = "1.5".toList) :
    (∀ diff, env.Counted errexit cfg diff → 3 * total.px ≤ 200 * diff) ∧
        (env.launches = true → env.TeardownKept errexit total cfg ∧ env.stops = true) ↔
      Covered errexit total 0 env cfg := by
  constructor
  · rintro ⟨hverdict, hdown⟩
    obtain ⟨hlookups, hcopy, hcompare, hkept⟩ := commands_of_down hdown
    have hnone : ∀ diff, env.Counted errexit cfg diff → env.launches = false :=
      fun diff hcounted => Bool.eq_false_iff.2 fun hlaunches =>
        not_verdictKept_fraction hpct diff ((hdown hlaunches).1.verdict diff hcounted)
    have hexit : ∀ diff, env.Counted errexit cfg diff → errexit ≠ true :=
      fun diff hcounted he => not_verdictKept_fraction hpct diff (hkept diff hcounted he)
    exact
      { stops := fun hlaunches => (hdown hlaunches).2
        lookups := hlookups
        copy := hcopy
        compare := hcompare
        percent := fun diff hcounted he => absurd he (hexit diff hcounted)
        fraction := fun _ diff hcounted => ⟨hnone diff hcounted, hverdict diff hcounted⟩
        whole := fun hne => absurd rfl hne
        input := fun _ diff hcounted _ he => absurd he (hexit diff hcounted) }
  · intro h
    refine ⟨fun diff hcounted => (h.fraction rfl diff hcounted).2, fun hlaunches =>
      ⟨h.teardownKept hlaunches fun diff hcounted => ?_, h.stops hlaunches⟩⟩
    cases hlaunches.symm.trans (h.fraction rfl diff hcounted).1

/-- The other phases. -/
theorem covered_whole_iff (hphase : phase ≠ 0) (hpct : cfg.diffThresholdPct = "2".toList) :
    ((env.launch errexit total cfg phaseStart).state.passedFirst = true ↔
      ∃ diff, env.Counted errexit cfg diff ∧
        (diff : ℚ) < decimalValue cfg.diffThresholdPct / 100 * total.px) ∧
        (env.launches = true → env.TeardownKept errexit total cfg ∧ env.stops = true) ↔
      Covered errexit total phase env cfg := by
  constructor
  · rintro ⟨hverdict, hdown⟩
    obtain ⟨hlookups, hcopy, hcompare, hkept⟩ := commands_of_down hdown
    have hpercent : ∀ diff, env.Counted errexit cfg diff → errexit = true →
        env.boot.percent = true := by
      intro diff hcounted he
      obtain ⟨_, -, hpercent, -⟩ := hkept diff hcounted he
      exact hpercent he
    have hexact := (verdict_whole_iff hpct hpercent).1 hverdict
    have hinput : ∀ diff, env.Counted errexit cfg diff → errexit = true →
        50 * diff < total.px → cfg.inputVerify = true → errexit = true → env.InputKept :=
      fun diff hcounted he =>
        ((verdictKept_whole_iff hpct (hexact diff hcounted)).1 (hkept diff hcounted he)).2
    exact
      { stops := fun hlaunches => (hdown hlaunches).2
        lookups := hlookups
        copy := hcopy
        compare := hcompare
        percent := hpercent
        fraction := fun hzero => absurd hzero hphase
        whole := fun _ => hexact
        input := fun hverify diff hcounted hlt he => hinput diff hcounted he hlt hverify he }
  · intro h
    refine ⟨(verdict_whole_iff hpct h.percent).2 (h.whole hphase), fun hlaunches =>
      ⟨h.teardownKept hlaunches fun diff hcounted => ?_, h.stops hlaunches⟩⟩
    rw [verdictKept_whole_iff hpct (h.whole hphase diff hcounted)]
    exact ⟨h.percent diff hcounted, fun hlt hverify => h.input hverify diff hcounted hlt⟩

/-- The settings of a phase decide what the run does. -/
theorem phaseSound_runPhase_iff
    (hconfig : phaseConfig env.gold env.goldExists phase = .ok cfg) :
    PhaseSound total phase env (runPhase errexit total phase env).state ↔
      Covered errexit total phase env cfg := by
  have hsound : PhaseSound total phase env (runPhase errexit total phase env).state ↔
      ((env.launch errexit total cfg phaseStart).state.passedFirst = true ↔
        ∃ diff, env.Counted errexit cfg diff ∧
          (diff : ℚ) < decimalValue cfg.diffThresholdPct / 100 * total.px) ∧
      (env.launches = true → env.TeardownKept errexit total cfg ∧ env.stops = true) := by
    rw [runPhase_eq hconfig, ← under_percentage_iff hconfig, ← down_launch_iff]
    exact ⟨fun h => ⟨h.verdict, h.down⟩, fun h => ⟨h.1, h.2⟩⟩
  rw [hsound]
  obtain ⟨rfl, hpct⟩ | ⟨hphase, hpct⟩ := phaseConfig_cases hconfig
  · rw [verdict_fraction_iff hpct, covered_fraction_iff hpct]
  · exact covered_whole_iff hphase hpct

/-- **Verdict and teardown.** A run of `run_phase` decides the first image as the percentage of
its phase does, and leaves no container behind, exactly when the run is covered. -/
theorem runPhase_sound_iff (errexit : Bool) (total : PixelTotal) (phase : ℕ) (env : PhaseEnv) :
    PhaseSound total phase env (runPhase errexit total phase env).state ↔
      ∀ cfg, phaseConfig env.gold env.goldExists phase = .ok cfg →
        Covered errexit total phase env cfg := by
  cases hconfig : phaseConfig env.gold env.goldExists phase with
  | error e =>
    have hstart : (runPhase errexit total phase env).state = phaseStart := by
      rw [runPhase, hconfig]
    rw [hstart]
    refine ⟨fun _ cfg h => (by cases h), fun _ => ⟨?_, fun h => (by cases h)⟩⟩
    refine ⟨fun h => (by cases h), ?_⟩
    rintro ⟨cfg, diff, -, hcounted, -⟩
    cases hcounted
  | ok cfg =>
    rw [phaseSound_runPhase_iff hconfig]
    refine ⟨fun h cfg' hconfig' => ?_, fun h => h cfg rfl⟩
    obtain rfl : cfg = cfg' := Except.ok.inj hconfig'
    exact h

end Sound

/-- The images agree in every pixel. -/
def cleanCapture : Capture := ⟨true, true, true, true, true, some 0, true⟩

/-- A guest that prints every marker of the firmware, and a world in which nothing fails. -/
def cleanEnv : PhaseEnv where
  gold := "phase-0-gold.png"
  goldExists := true
  launches := true
  stops := true
  lookup := fun _ => .success
  logMatches := fun _ marker => marker = firmwareMarker
  elapsed := fun k => 5 * k
  elapsed_ge := fun _ => Nat.le_refl _
  bootTimeout := 600
  boot := cleanCapture
  drivesInput := true
  input := cleanCapture
  inputGold := true
  copyInputGold := true

/-- `test-runner.sh 0` with two images that agree gives no verdict and leaves its container. -/
theorem phase_zero_unsound :
    ¬∀ errexit total phase env,
      PhaseSound total phase env (runPhase errexit total phase env).state := by
  intro hall
  have hsound := hall true ⟨1920 * 1080, by decide⟩ 0 cleanEnv
  have hconfig : phaseConfig cleanEnv.gold cleanEnv.goldExists 0 =
      .ok ⟨firmwareMarker, failMarkers, 15, "1.5".toList, false⟩ := rfl
  rw [phaseSound_runPhase_iff hconfig] at hsound
  have hmarkers : decide (failMarkers = firmwareMarker) = false := by decide
  have hcounted : cleanEnv.Counted true ⟨firmwareMarker, failMarkers, 15, "1.5".toList, false⟩ 0 :=
    { launches := fun _ => rfl
      lookups := ⟨0, by decide, rfl, fun _ j hj => absurd hj j.not_lt_zero⟩
      boots := ⟨0, by decide, fun _ _ => hmarkers, fun j hj => absurd hj j.not_lt_zero⟩
      screendump := rfl
      ppm := rfl
      convert := rfl
      copy := fun _ => rfl
      compare := fun _ => rfl
      diffInt := rfl }
  cases (hsound.fraction rfl 0 hcounted).1

/-! ### All phases -/

/-- The phases that passed, and those that failed. -/
structure PhaseSummary where
  passed : List ℕ
  failed : List ℕ

/-- The loop of `run_all`. It does not come to an end if the shell gives up a phase. -/
def runPhases (total : PixelTotal) (envs : ℕ → PhaseEnv) :
    List ℕ → PhaseSummary → Option PhaseSummary
  | [], summary => some summary
  | phase :: phases, summary =>
      match (runPhase false total phase (envs phase)).ending with
      | .returned 0 =>
          runPhases total envs phases { summary with passed := summary.passed ++ [phase] }
      | .discarded => none
      | _ => runPhases total envs phases { summary with failed := summary.failed ++ [phase] }

/-- `run_all`; it returns the number of the phases that failed. -/
def runAll (total : PixelTotal) (envs : ℕ → PhaseEnv) : Option PhaseSummary :=
  runPhases total envs [0, 1, 2, 3] ⟨[], []⟩

/-- The loop comes to its end exactly when the shell gives up no phase. -/
theorem isSome_runPhases_iff {total : PixelTotal} {envs : ℕ → PhaseEnv} (phases : List ℕ)
    (summary : PhaseSummary) :
    (runPhases total envs phases summary).isSome ↔
      ∀ phase ∈ phases, (runPhase false total phase (envs phase)).ending ≠ .discarded := by
  induction phases generalizing summary with
  | nil => simp [runPhases]
  | cons phase phases ih =>
    rw [runPhases, List.forall_mem_cons]
    split
    · next h => simp [ih, h]
    · next h => simp [h]
    · next h => rw [ih, and_iff_right h]

/-- **The shell gives up a phase** exactly when it is phase 0 and comes to its threshold. -/
theorem runPhase_discards_iff {errexit : Bool} {total : PixelTotal} {phase : ℕ} {env : PhaseEnv} :
    (runPhase errexit total phase env).ending = .discarded ↔
      ∃ cfg, phaseConfig env.gold env.goldExists phase = .ok cfg ∧
        phase = 0 ∧ ∃ diff, env.Counted errexit cfg diff := by
  cases hconfig : phaseConfig env.gold env.goldExists phase with
  | error e =>
    rw [runPhase, hconfig]
    exact ⟨fun h => (by cases h), fun ⟨_, h, _⟩ => (by cases h)⟩
  | ok cfg =>
    rw [runPhase_eq hconfig, launch_discards_iff]
    obtain ⟨hphase, hpct⟩ | ⟨hphase, hpct⟩ := phaseConfig_cases hconfig
    · rw [hpct, thresholdPx_fraction]
      refine ⟨fun ⟨diff, h, _⟩ => ⟨cfg, rfl, hphase, diff, h⟩, ?_⟩
      rintro ⟨cfg', hcfg, -, diff, h⟩
      obtain rfl : cfg = cfg' := Except.ok.inj hcfg
      exact ⟨diff, h, rfl⟩
    · rw [hpct, thresholdPx_whole]
      exact ⟨fun ⟨_, _, h⟩ => (by cases h), fun ⟨_, _, h, _⟩ => absurd h hphase⟩

/-- **All phases.** `run_all` comes to its summary exactly when phase 0 does not come to its
threshold. -/
theorem runAll_completes_iff {total : PixelTotal} {envs : ℕ → PhaseEnv} :
    (runAll total envs).isSome ↔
      ∀ cfg, phaseConfig (envs 0).gold (envs 0).goldExists 0 = .ok cfg →
        ∀ diff, ¬(envs 0).Counted false cfg diff := by
  rw [runAll, isSome_runPhases_iff]
  constructor
  · intro h cfg hconfig diff hcounted
    exact h 0 (by decide) (runPhase_discards_iff.2 ⟨cfg, hconfig, rfl, diff, hcounted⟩)
  · intro h phase _ hdiscarded
    obtain ⟨cfg, hconfig, rfl, diff, hcounted⟩ := runPhase_discards_iff.1 hdiscarded
    exact h cfg hconfig diff hcounted

end DockerMacos
