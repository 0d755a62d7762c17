import DockerMacos.Run
import DockerMacos.Word32
import Mathlib.Data.List.Range

/-!
# Fences

`InsertFence`, `HasFencePassed` and `SyncToFence` of `FB/SVGADevice.cpp`. The driver numbers
its fences with a 32-bit counter that leaves out zero, and the device writes the number of
each fence it processes to the fence register. Which fence is older is told from the signed
difference of two numbers.

## Runs

A step of a run issues a fence, lets the device process the oldest one, or takes one turn of
`SyncToFence`, whose loop looks at the busy register in between. The state keeps the numbers of
all fences that have been issued, so that the counter may wrap any number of times.

## Distance

The numbers of two fences tell their order as long as the fences are less than half the range
apart; a counter that leaves out zero has passed over it once more when it has wrapped. So the
condition of a run is a bound on the fences that are outstanding (`FewOutstanding`), and what
has been processed is known to have passed as long as few fences were issued since.

## Main results

* `fenceValue_sub`: the difference of the numbers of two fences that are less than
  `2 ^ 31 - 1` fences apart.
* `processed_of_passed`, `passed_of_processed`: what the test says about the device.
* `fences_across_wraparound`: `HasFencePassed` and `SyncToFence` in any state of a run.
-/

namespace DockerMacos

/-- The fence counter of the driver, the fence register of the device, and the fences in the
FIFO. -/
structure FenceDevice where
  /-- `HasFIFOCap(SVGA_FIFO_CAP_FENCE)`. -/
  hasFence : Bool
  /-- `FIFOReserve` has room for a fence: the FIFO is large enough and nothing is reserved. -/
  accepts : Bool
  /-- `m_next_fence`. -/
  nextFence : ℕ
  /-- `fifo[SVGA_FIFO_FENCE]`. -/
  fence : ℕ
  /-- The fences issued, the oldest first. -/
  issued : List ℕ
  /-- How many of them the device has processed. -/
  processed : ℕ

/-- `HasFencePassedUnguarded`: the difference is not negative as a signed number. -/
def hasFencePassedUnguarded (register fence : ℕ) : Bool := sub32 register fence < 2 ^ 31

namespace FenceDevice

/-- The device after `Init` and `FIFOInit`. -/
def start (hasFence accepts : Bool) : FenceDevice where
  hasFence := hasFence
  accepts := accepts
  nextFence := 1
  fence := 0
  issued := []
  processed := 0

/-- `InsertFence`. -/
def insertFence (d : FenceDevice) : ℕ × FenceDevice :=
  if !d.hasFence then (1, d)
  else
    let fence := if d.nextFence = 0 then 1 else d.nextFence
    let d := { d with nextFence := add32 fence 1 }
    if !d.accepts then (0, d) else (fence, { d with issued := d.issued ++ [fence] })

/-- `HasFencePassed`. -/
def hasFencePassed (d : FenceDevice) (fence : ℕ) : Bool :=
  if fence = 0 then true
  else if !d.hasFence then false
  else hasFencePassedUnguarded d.fence fence

/-- `SyncToFence` before its loop: whether it returns at once. -/
def syncEnter (d : FenceDevice) (fence : ℕ) : Bool :=
  if fence = 0 then true
  else if !d.hasFence then false
  else hasFencePassedUnguarded d.fence fence

/-- One turn of the loop of `SyncToFence`: whether it returns, when `SVGA_REG_BUSY` reads as
`busy`. -/
def syncPoll (d : FenceDevice) (fence : ℕ) (busy : Bool) : Bool :=
  if !d.hasFence then !busy else hasFencePassedUnguarded d.fence fence || !busy

/-- The device processes the next fence. -/
def processFence (d : FenceDevice) : Option FenceDevice :=
  d.issued[d.processed]?.map fun f => { d with fence := f, processed := d.processed + 1 }

end FenceDevice

/-! ### The transition system -/

/-- A moment of a run: the device, and the fence that a call of `SyncToFence` waits for. -/
structure FenceRun where
  dev : FenceDevice
  sync : Option ℕ

/-- The steps of the driver and of the device. -/
inductive FenceAction
  | insertFence
  | processFence
  /-- `SyncToFence` is entered. -/
  | syncToFence (fence : ℕ)
  /-- `SyncToFence` looks again; `busy` is what `SVGA_REG_BUSY` reads as. -/
  | poll (busy : Bool)

/-- The step function. -/
def fenceStep (s : FenceRun) : FenceAction → Option FenceRun
  | .insertFence => some { s with dev := s.dev.insertFence.2 }
  | .processFence => s.dev.processFence.map fun d => { s with dev := d }
  | .syncToFence f =>
      if s.sync.isSome then none
      else some { s with sync := if s.dev.syncEnter f then none else some f }
  | .poll busy =>
      s.sync.map fun f => { s with sync := if s.dev.syncPoll f busy then none else some f }

/-- The fence of the call of `SyncToFence` that returns in a step, if one does. -/
def syncReturns (s : FenceRun) : FenceAction → Option ℕ
  | .syncToFence f => if s.dev.syncEnter f then some f else none
  | .poll busy => s.sync.filter fun f => s.dev.syncPoll f busy
  | _ => none

/-- The start of a run on a device with fences. -/
def fenceStart (accepts : Bool) : FenceRun where
  dev := .start true accepts
  sync := none

/-- A fence is issued only while fewer than `2 ^ 31 - 2` others are outstanding. -/
def FewOutstanding (s : FenceRun) : FenceAction → Prop
  | .insertFence => s.dev.issued.length + 1 - s.dev.processed < 2 ^ 31 - 1
  | _ => True

/-! ### The numbers of fences -/

/-- The number of the fence with `k` fences before it. -/
def fenceValue (k : ℕ) : ℕ := k % (2 ^ 32 - 1) + 1

/-- No fence is 0. -/
theorem fenceValue_pos (k : ℕ) : fenceValue k ≠ 0 := Nat.succ_ne_zero _

/-- A fence has 32 bits. -/
theorem fenceValue_lt (k : ℕ) : fenceValue k < 2 ^ 32 := by
  rw [fenceValue]
  omega

/-- **The difference** of the numbers of two fences less than `2 ^ 31 - 1` fences apart: their
distance, and one more if the counter has wrapped in between. -/
theorem fenceValue_sub {j k : ℕ} (hjk : j ≤ k) (hnear : k - j < 2 ^ 31 - 1) :
    (sub32 (fenceValue k) (fenceValue j) = k - j ∨
      sub32 (fenceValue k) (fenceValue j) = k - j + 1) ∧
    (j < k → sub32 (fenceValue j) (fenceValue k) = 2 ^ 32 - (k - j) ∨
      sub32 (fenceValue j) (fenceValue k) = 2 ^ 32 - (k - j) - 1) := by
  have hkj := sub32_cases (fenceValue_lt k) (fenceValue_lt j)
  have hjk' := sub32_cases (fenceValue_lt j) (fenceValue_lt k)
  -- at most one multiple of the period lies between the two
  have hk : fenceValue k = k - k / (2 ^ 32 - 1) * (2 ^ 32 - 1) + 1 := by
    rw [fenceValue]
    omega
  have hj : fenceValue j = j - j / (2 ^ 32 - 1) * (2 ^ 32 - 1) + 1 := by
    rw [fenceValue]
    omega
  omega

/-- A fence has passed when the register holds its number or a slightly later one. -/
theorem passed_of_le {j k : ℕ} (hjk : j ≤ k) (hnear : k - j < 2 ^ 31 - 1) :
    hasFencePassedUnguarded (fenceValue k) (fenceValue j) = true := by
  have hsub := (fenceValue_sub hjk hnear).1
  simp only [hasFencePassedUnguarded, decide_eq_true_eq]
  omega

/-- A fence has not passed when the register holds a slightly earlier one. -/
theorem not_passed_of_lt {j k : ℕ} (hjk : j < k) (hnear : k - j < 2 ^ 31 - 1) :
    hasFencePassedUnguarded (fenceValue j) (fenceValue k) = false := by
  have hsub := (fenceValue_sub hjk.le hnear).2 hjk
  simp only [hasFencePassedUnguarded, decide_eq_false_iff_not]
  omega

/-- No fence has passed before the first one is processed. -/
theorem not_passed_zero {k : ℕ} (hnear : k < 2 ^ 31 - 1) :
    hasFencePassedUnguarded 0 (fenceValue k) = false := by
  have hsub := sub32_cases (show 0 < 2 ^ 32 by decide) (fenceValue_lt k)
  have hvalue : fenceValue k = k + 1 := by
    rw [fenceValue]
    omega
  simp only [hasFencePassedUnguarded, decide_eq_false_iff_not]
  omega

/-! ### The invariant -/

/-- **The invariant** of the fence counter and the fence register. -/
structure FenceInv (d : FenceDevice) : Prop where
  hasFence : d.hasFence = true
  issued : d.issued = (List.range d.issued.length).map fenceValue
  /-- The next number, unless no fence is ever accepted; zero stands for one. -/
  nextFence : d.accepts = true → d.nextFence = fenceValue d.issued.length ∨
    d.nextFence = 0 ∧ fenceValue d.issued.length = 1
  refused : d.accepts = false → d.issued = []
  processed_le : d.processed ≤ d.issued.length
  /-- The register holds the number of the last fence processed. -/
  fence : d.fence = if d.processed = 0 then 0 else fenceValue (d.processed - 1)
  outstanding : d.issued.length - d.processed < 2 ^ 31 - 1

/-- No fence has been issued at the start. -/
theorem FenceInv.start (accepts : Bool) : FenceInv (.start true accepts) where
  hasFence := rfl
  issued := rfl
  nextFence _ := Or.inl rfl
  refused _ := rfl
  processed_le := le_rfl
  fence := rfl
  outstanding := by
    simp only [FenceDevice.start, List.length_nil]
    omega

namespace FenceInv

variable {d e : FenceDevice}

/-- The fences issued are those of their numbers. -/
theorem issued_getElem? (h : FenceInv d) {k f : ℕ} (hk : d.issued[k]? = some f) :
    k < d.issued.length ∧ f = fenceValue k := by
  have hlt : k < d.issued.length := (List.getElem?_eq_some_iff.mp hk).1
  refine ⟨hlt, ?_⟩
  rw [h.issued, List.getElem?_map, List.getElem?_range hlt] at hk
  exact (Option.some.inj hk).symm

/-- **`InsertFence`** issues the next number, or nothing is ever issued. -/
theorem insertFence (h : FenceInv d)
    (hfew : d.issued.length + 1 - d.processed < 2 ^ 31 - 1) :
    FenceInv d.insertFence.2 ∧
      (d.accepts = true → d.insertFence.1 = fenceValue d.issued.length ∧
        d.insertFence.2.issued = d.issued ++ [fenceValue d.issued.length]) ∧
      d.insertFence.2.processed = d.processed ∧ d.insertFence.2.accepts = d.accepts := by
  have hcap := h.hasFence
  rw [FenceDevice.insertFence, hcap, Bool.not_true, if_neg Bool.false_ne_true]
  cases haccepts : d.accepts with
  | false =>
      have hnone := h.refused haccepts
      simp only [Bool.not_false, if_true]
      exact ⟨⟨rfl, h.issued, fun htrue => absurd htrue Bool.false_ne_true, fun _ => hnone,
        h.processed_le, h.fence, h.outstanding⟩, fun hfalse => absurd hfalse Bool.false_ne_true,
        trivial, trivial⟩
  | true =>
      have hvalue : (if d.nextFence = 0 then 1 else d.nextFence) = fenceValue d.issued.length := by
        rcases h.nextFence haccepts with hnext | ⟨hnext, hone⟩
        · rw [hnext, if_neg (fenceValue_pos _)]
        · rw [hnext, if_pos rfl, hone]
      simp only [Bool.not_true, Bool.false_eq_true, if_false, hvalue]
      refine ⟨⟨rfl, ?_, fun _ => ?_, fun hfalse => absurd hfalse.symm Bool.false_ne_true, ?_,
        h.fence, ?_⟩, fun _ => ⟨trivial, trivial⟩, trivial, trivial⟩
      · have hissued := h.issued
        rw [List.length_append, List.length_singleton, List.range_succ, List.map_append,
          ← hissued, List.map_singleton]
      · rw [List.length_append, List.length_singleton]
        simp only [fenceValue, add32]
        omega
      · have := h.processed_le
        simp only [List.length_append, List.length_singleton]
        omega
      · simp only [List.length_append, List.length_singleton]
        exact hfew

/-- The device processes a fence. -/
theorem processFence (h : FenceInv d) (hstep : d.processFence = some e) :
    FenceInv e ∧ e.issued = d.issued ∧ e.processed = d.processed + 1 ∧
      e.accepts = d.accepts := by
  rw [FenceDevice.processFence, Option.map_eq_some_iff] at hstep
  obtain ⟨f, hf, rfl⟩ := hstep
  obtain ⟨hlt, rfl⟩ := h.issued_getElem? hf
  refine ⟨⟨h.hasFence, h.issued, h.nextFence, h.refused, hlt, ?_, ?_⟩, rfl, rfl, rfl⟩
  · simp only [Nat.succ_ne_zero, if_false, Nat.add_sub_cancel]
  · have := h.outstanding
    simp only
    omega

/-- **A fence that has passed** has been processed. -/
theorem processed_of_passed (h : FenceInv d) {k f : ℕ} (hk : d.issued[k]? = some f)
    (hpassed : hasFencePassedUnguarded d.fence f = true) : k < d.processed := by
  obtain ⟨hlt, rfl⟩ := h.issued_getElem? hk
  by_contra hge
  have hout := h.outstanding
  rw [h.fence] at hpassed
  split at hpassed
  · rw [not_passed_zero (by omega)] at hpassed
    cases hpassed
  · rw [not_passed_of_lt (by omega) (by omega)] at hpassed
    cases hpassed

/-- **A processed fence** has passed, unless too many fences were issued since. -/
theorem passed_of_processed (h : FenceInv d) {k f : ℕ} (hk : d.issued[k]? = some f)
    (hprocessed : k < d.processed) (hsince : d.issued.length - (k + 1) < 2 ^ 31 - 1) :
    hasFencePassedUnguarded d.fence f = true := by
  obtain ⟨-, rfl⟩ := h.issued_getElem? hk
  have hle := h.processed_le
  rw [h.fence, if_neg (by omega)]
  exact passed_of_le (by omega) (by omega)

/-- Zero is not the number of any fence. -/
theorem zero_notMem (h : FenceInv d) : 0 ∉ d.issued := by
  rw [h.issued, List.mem_map]
  rintro ⟨k, -, hk⟩
  exact fenceValue_pos k hk

end FenceInv

/-- A step of a run keeps the invariant. -/
theorem FenceInv.step {s t : FenceRun} {a : FenceAction} (h : FenceInv s.dev)
    (hfew : FewOutstanding s a) (hstep : fenceStep s a = some t) : FenceInv t.dev := by
  cases a with
  | insertFence =>
      cases hstep
      exact (h.insertFence hfew).1
  | processFence =>
      rw [fenceStep, Option.map_eq_some_iff] at hstep
      obtain ⟨d, hd, rfl⟩ := hstep
      exact (h.processFence hd).1
  | syncToFence f =>
      rw [fenceStep] at hstep
      split at hstep
      · cases hstep
      · cases hstep
        exact h
  | poll busy =>
      rw [fenceStep, Option.map_eq_some_iff] at hstep
      obtain ⟨f, -, rfl⟩ := hstep
      exact h

/-- **Fences across wraparound.** In any state of a run, a fence that is reported passed has
been processed; a processed one is reported passed while fewer than `2 ^ 31 - 1` fences were
issued since; zero is no fence; and `SyncToFence` returns only for a processed fence or when
the device is idle. -/
theorem fences_across_wraparound (accepts : Bool) {as : List FenceAction} {s : FenceRun}
    (hrun : Run fenceStep FewOutstanding (fenceStart accepts) as s) :
    (∀ k f : ℕ, s.dev.issued[k]? = some f → s.dev.hasFencePassed f = true → k < s.dev.processed) ∧
    (∀ k f : ℕ, s.dev.issued[k]? = some f → k < s.dev.processed →
      s.dev.issued.length - (k + 1) < 2 ^ 31 - 1 → s.dev.hasFencePassed f = true) ∧
    0 ∉ s.dev.issued ∧
    ∀ a f, syncReturns s a = some f → a = .poll false ∨
      ∀ k : ℕ, s.dev.issued[k]? = some f → k < s.dev.processed := by
  have h : FenceInv s.dev :=
    hrun.invariant (I := fun s => FenceInv s.dev)
      (fun s a t h hfew hstep => h.step hfew hstep) (FenceInv.start accepts)
  have hcap := h.hasFence
  have hpassed : ∀ k f : ℕ, s.dev.issued[k]? = some f →
      s.dev.hasFencePassed f = hasFencePassedUnguarded s.dev.fence f := by
    intro k f hk
    have hne : f ≠ 0 := fun hzero => h.zero_notMem (hzero ▸ List.mem_of_getElem? hk)
    rw [FenceDevice.hasFencePassed, if_neg hne, hcap, Bool.not_true, if_neg Bool.false_ne_true]
  refine ⟨fun k f hk hp => ?_, fun k f hk hlt hsince => ?_, h.zero_notMem, fun a f hret => ?_⟩
  · rw [hpassed k f hk] at hp
    exact h.processed_of_passed hk hp
  · rw [hpassed k f hk]
    exact h.passed_of_processed hk hlt hsince
  · cases a with
    | insertFence => cases hret
    | processFence => cases hret
    | syncToFence g =>
        rw [syncReturns] at hret
        split at hret
        · rename_i henter
          cases hret
          refine Or.inr fun k hk => h.processed_of_passed hk ?_
          rw [← hpassed k f hk]
          exact henter
        · cases hret
    | poll busy =>
        rw [syncReturns, Option.filter_eq_some_iff] at hret
        obtain ⟨-, hpoll⟩ := hret
        rw [FenceDevice.syncPoll, hcap, Bool.not_true, if_neg Bool.false_ne_true] at hpoll
        cases busy with
        | false => exact Or.inl rfl
        | true =>
            rw [Bool.not_true, Bool.or_false] at hpoll
            exact Or.inr fun k hk => h.processed_of_passed hk hpoll

/-- Two fences, of which the device has processed the first. -/
theorem fences_across_wraparound_two :
    ∃ s, Run fenceStep FewOutstanding (fenceStart true)
        [.insertFence, .insertFence, .processFence] s ∧
      s.dev.issued = [1, 2] ∧ s.dev.processed = 1 ∧
      (s.dev.hasFencePassed 2 = true → 1 < s.dev.processed) ∧
      s.dev.hasFencePassed 1 = true := by
  have hrun : ∃ s, Run fenceStep FewOutstanding (fenceStart true)
      [.insertFence, .insertFence, .processFence] s ∧ s.dev.issued = [1, 2] ∧
      s.dev.processed = 1 :=
    ⟨_, Run.cons (show 0 + 1 - 0 < 2 ^ 31 - 1 by decide) rfl
      (Run.cons (show 1 + 1 - 0 < 2 ^ 31 - 1 by decide) rfl (Run.single trivial rfl)), rfl, rfl⟩
  obtain ⟨s, hrun, hissued, hprocessed⟩ := hrun
  obtain ⟨hpassed, hprocessed', -, -⟩ := fences_across_wraparound true hrun
  refine ⟨s, hrun, hissued, hprocessed, hpassed 1 2 (by rw [hissued]; rfl), ?_⟩
  exact hprocessed' 0 1 (by rw [hissued]; rfl) (by omega) (by rw [hissued]; decide)

end DockerMacos
