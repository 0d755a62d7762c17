import DockerMacos.Fence

/-!
# Paced Presents

`surfacePresentAutoSync` (`AC/VMsvga2Accel.cpp`) keeps the fences of its last presents in a
ring (`AC/FenceTracker.h`) and waits for the oldest of them before it issues another present.
A run interleaves its steps with other commands, other fences and the device, which processes
the commands of the FIFO in order and says that it is idle only when there are none.

## The ring

The slots of `FenceTracker` hold the fences of the last presents, and the slot that comes up is
that of the present one round before. `Tracks` says which fence is in which slot; a slot that has
not been used yet holds zero, which is no fence.

## Pacing

How many presents may be pending depends on where a call is (`PresentInv`): one less than the
ring has slots when it has waited, and as many as the ring has slots when the present is
committed. A present that the FIFO refuses leaves its slot to the next one.

## Main results

* `PresentInv.step`: what every step keeps.
* `present_pacing`: never more presents in the FIFO than the ring has slots.
-/

namespace DockerMacos

/-! ### The ring of fences -/

/-- `FenceTracker`; the number of slots is the length of `fences`. -/
structure FenceTracker where
  counter : ℕ
  fences : List ℕ

namespace FenceTracker

/-- `init`. -/
def init (slots : ℕ) : FenceTracker where
  counter := 0
  fences := List.replicate slots 0

/-- `before`. -/
def before (t : FenceTracker) : ℕ := t.fences.getD t.counter 0

/-- `after`. -/
def after (t : FenceTracker) (fence : ℕ) : FenceTracker where
  counter := if t.counter + 1 = t.fences.length then 0 else t.counter + 1
  fences := t.fences.set t.counter fence

end FenceTracker

/-! ### The transition system -/

/-- A command in the FIFO. Fences and presents are numbered in the order of their issue. -/
inductive FifoCmd
  | present (number numRects : ℕ)
  | fence (number : ℕ)
  | other (bytes : ℕ)

/-- The bytes of a command: header, `SVGA3dCmdPresent` and `SVGA3dCopyRect`s for a present. -/
def FifoCmd.bytes : FifoCmd → ℕ
  | .present _ numRects => 8 + (4 + 24 * numRects)
  | .fence _ => 8
  | .other bytes => bytes

/-- The bytes of the commands in the FIFO. -/
def queueBytes (queue : List FifoCmd) : ℕ := (queue.map FifoCmd.bytes).sum

/-- Where a call of `surfacePresentAutoSync` is. -/
inductive PresentPc
  /-- No call is in progress. -/
  | idle
  /-- In the loop of `SyncToFence`. -/
  | syncing (fence : ℕ)
  /-- Behind `SyncToFence`. -/
  | synced
  /-- The present is committed, its fence not yet inserted. -/
  | committed

/-- A moment of a run. -/
structure PresentRun where
  dev : FenceDevice
  /-- `fifo[SVGA_FIFO_MAX] - fifo[SVGA_FIFO_MIN]`. -/
  capacity : ℕ
  /-- The commands that the device has not processed, the oldest first. -/
  queue : List FifoCmd
  tracker : FenceTracker
  pc : PresentPc
  /-- How many presents have been issued. -/
  begun : ℕ

/-- The steps. -/
inductive PresentAction
  /-- `surfacePresentAutoSync` enters `SyncToFence`. -/
  | enter
  /-- One turn of the loop of `SyncToFence`. -/
  | poll (busy : Bool)
  /-- `BeginPresent` is refused. -/
  | refuse
  /-- `BeginPresent` succeeds and the present is committed. -/
  | present (numRects : ℕ)
  /-- `InsertFence` and `FenceTracker::after`. -/
  | track
  /-- Another command. -/
  | other (bytes : ℕ)
  /-- `InsertFence` for another command. -/
  | otherFence
  /-- The device processes a command. -/
  | process

namespace PresentRun

/-- A command is put into the FIFO as soon as there is room. -/
def push (s : PresentRun) (c : FifoCmd) : Option PresentRun :=
  if queueBytes s.queue + c.bytes < s.capacity then some { s with queue := s.queue ++ [c] }
  else none

/-- `InsertFence`, and the fence it returns. -/
def insertFence (s : PresentRun) : Option (ℕ × PresentRun) :=
  let (fence, dev) := s.dev.insertFence
  if dev.issued = s.dev.issued then some (fence, { s with dev := dev })
  else ({ s with dev := dev }.push (.fence s.dev.issued.length)).map (fence, ·)

/-- The device processes the oldest command. -/
def process (s : PresentRun) : Option PresentRun :=
  match s.queue with
  | [] => none
  | .fence _ :: queue => s.dev.processFence.map fun dev => { s with dev := dev, queue := queue }
  | _ :: queue => some { s with queue := queue }

/-- The step function. -/
def step (s : PresentRun) : PresentAction → Option PresentRun
  | .enter =>
      match s.pc with
      | .idle =>
          some { s with pc :=
            if s.dev.syncEnter s.tracker.before then .synced else .syncing s.tracker.before }
      | _ => none
  | .poll busy =>
      match s.pc with
      | .syncing f =>
          -- the device is idle only when nothing is left to process
          if !busy && !s.queue.isEmpty then none
          else some { s with pc := if s.dev.syncPoll f busy then .synced else .syncing f }
      | _ => none
  | .refuse =>
      match s.pc with
      | .synced => some { s with pc := .idle }
      | _ => none
  | .present numRects =>
      match s.pc with
      | .synced =>
          (s.push (.present s.begun numRects)).map fun t =>
            { t with pc := .committed, begun := s.begun + 1 }
      | _ => none
  | .track =>
      match s.pc with
      | .committed =>
          s.insertFence.map fun (f, t) => { t with tracker := s.tracker.after f, pc := .idle }
      | _ => none
  | .other bytes => s.push (.other bytes)
  | .otherFence => s.insertFence.map (·.2)
  | .process => s.process

/-- The start of a run on a device with a FIFO of `capacity` bytes. -/
def start (slots capacity : ℕ) (hasFence : Bool) : PresentRun where
  dev := .start hasFence (8 ≤ capacity)
  capacity := capacity
  queue := []
  tracker := .init slots
  pc := .idle
  begun := 0

end PresentRun

/-- The number of a present. -/
def FifoCmd.presentNumber : FifoCmd → Option ℕ
  | .present number _ => some number
  | _ => none

/-- The number of a fence. -/
def FifoCmd.fenceNumber : FifoCmd → Option ℕ
  | .fence number => some number
  | _ => none

/-- The presents in the FIFO. -/
def pendingPresents (queue : List FifoCmd) : List ℕ := queue.filterMap FifoCmd.presentNumber

/-- The fences in the FIFO. -/
def pendingFences (queue : List FifoCmd) : List ℕ := queue.filterMap FifoCmd.fenceNumber

/-! ### The ring -/

/-- What the fence of a present is: its number on the device, or `1` without fences. -/
def trackedFence (hasFence : Bool) (number : ℕ) : ℕ := if hasFence then fenceValue number else 1

/-- The slots of the ring hold the fences of the last presents. Seen from the number of presents
on, the slot that comes up for present `j` holds the fence of the present one round before. -/
structure Tracks (slots : ℕ) (t : FenceTracker) (hasFence : Bool) (fenceOf : List ℕ) : Prop where
  length : t.fences.length = slots
  counter : t.counter = fenceOf.length % slots
  slot : ∀ j, fenceOf.length ≤ j → j < fenceOf.length + slots → t.fences.getD (j % slots) 0 =
    if j < slots then 0 else trackedFence hasFence (fenceOf.getD (j - slots) 0)

namespace Tracks

variable {slots : ℕ} {t : FenceTracker} {hasFence : Bool} {fenceOf : List ℕ}

/-- A tracker before the first present. -/
theorem init (slots : ℕ) (hasFence : Bool) : Tracks slots (.init slots) hasFence [] := by
  refine ⟨List.length_replicate, (Nat.zero_mod slots).symm, fun j _ hj => ?_⟩
  rw [List.length_nil, Nat.zero_add] at hj
  rw [if_pos hj, FenceTracker.init, List.getD_eq_getElem?_getD, List.getElem?_replicate]
  split <;> rfl

/-- The fence to wait for: none for the first presents, then that of the present one round
before. -/
theorem before (h : Tracks slots t hasFence fenceOf) (hslots : 0 < slots) :
    t.before = if fenceOf.length < slots then 0
      else trackedFence hasFence (fenceOf.getD (fenceOf.length - slots) 0) := by
  rw [FenceTracker.before, h.counter]
  exact h.slot _ le_rfl (by omega)

/-- Another present. -/
theorem after (h : Tracks slots t hasFence fenceOf) (hslots : 0 < slots) (number : ℕ) :
    Tracks slots (t.after (trackedFence hasFence number)) hasFence (fenceOf ++ [number]) := by
  have hmod : fenceOf.length % slots < slots := Nat.mod_lt _ hslots
  refine ⟨by rw [FenceTracker.after, List.length_set, h.length], ?_, fun j hj hjs => ?_⟩
  · simp only [FenceTracker.after, h.counter, h.length, List.length_append, List.length_singleton]
    rw [← Nat.mod_add_mod fenceOf.length slots 1]
    split
    · rename_i hlast
      rw [hlast, Nat.mod_self]
    · rename_i hlast
      rw [Nat.mod_eq_of_lt (a := fenceOf.length % slots + 1) (by omega)]
  · rw [List.length_append, List.length_singleton] at hj hjs
    simp only [FenceTracker.after, h.counter]
    rw [List.getD_eq_getElem?_getD, List.getElem?_set]
    by_cases hround : j = fenceOf.length + slots
    · -- the slot that has just been written
      subst hround
      rw [Nat.add_mod_right, if_pos rfl, if_pos (by rw [h.length]; exact hmod), Option.getD_some,
        if_neg (by omega), Nat.add_sub_cancel, List.getD_eq_getElem?_getD,
        List.getElem?_append_right le_rfl, Nat.sub_self]
      rfl
    · have hne : fenceOf.length % slots ≠ j % slots := by
        intro heq
        have hdvd : slots ∣ j - fenceOf.length :=
          (Nat.modEq_iff_dvd' (by omega)).mp heq
        have := Nat.le_of_dvd (by omega) hdvd
        omega
      rw [if_neg hne, ← List.getD_eq_getElem?_getD, h.slot j (by omega) (by omega)]
      split
      · rfl
      · rw [List.getD_eq_getElem?_getD, List.getD_eq_getElem?_getD,
          List.getElem?_append_left (by omega)]

end Tracks

/-! ### The FIFO -/

/-- A command at the end adds its bytes. -/
@[simp] theorem queueBytes_append (queue : List FifoCmd) (c : FifoCmd) :
    queueBytes (queue ++ [c]) = queueBytes queue + c.bytes := by
  rw [queueBytes, List.map_append, List.sum_append, List.map_singleton, List.sum_singleton,
    queueBytes]

/-- So does one at the front. -/
@[simp] theorem queueBytes_cons (c : FifoCmd) (queue : List FifoCmd) :
    queueBytes (c :: queue) = c.bytes + queueBytes queue := by
  rw [queueBytes, List.map_cons, List.sum_cons, queueBytes]

/-- The fences in the FIFO take up eight bytes each. -/
theorem pendingFences_bytes (queue : List FifoCmd) :
    8 * (pendingFences queue).length ≤ queueBytes queue := by
  induction queue with
  | nil => exact Nat.zero_le _
  | cons c queue ih =>
      rw [queueBytes_cons, pendingFences]
      cases c with
      | present number numRects => exact ih.trans (Nat.le_add_left _ _)
      | fence number =>
          change 8 * (pendingFences queue).length.succ ≤ 8 + queueBytes queue
          omega
      | other bytes => exact ih.trans (Nat.le_add_left _ _)

/-- A fence in the FIFO is pending. -/
theorem mem_pendingFences {queue : List FifoCmd} {k : ℕ} (h : .fence k ∈ queue) :
    k ∈ pendingFences queue := List.mem_filterMap.mpr ⟨_, h, rfl⟩

/-- A present is pending when it is in the FIFO. -/
theorem mem_pendingPresents {queue : List FifoCmd} {j : ℕ} :
    j ∈ pendingPresents queue ↔ ∃ numRects, .present j numRects ∈ queue := by
  rw [pendingPresents, List.mem_filterMap]
  constructor
  · rintro ⟨c, hc, hj⟩
    cases c with
    | present number numRects =>
        cases hj
        exact ⟨numRects, hc⟩
    | fence number => cases hj
    | other bytes => cases hj
  · rintro ⟨numRects, h⟩
    exact ⟨_, h, rfl⟩

/-- Behind a fence there are only presents with later fences. -/
def InOrder (fenceOf : List ℕ) (c d : FifoCmd) : Prop :=
  ∀ k j p : ℕ, c.fenceNumber = some k → d.presentNumber = some j → fenceOf[j]? = some p → k < p

/-! ### The invariant -/

/-- The presents that may be pending at a point of `surfacePresentAutoSync`. -/
def PresentPc.allowed (slots : ℕ) : PresentPc → ℕ
  | .synced => slots - 1
  | _ => slots

/-- The presents that have been issued but not tracked. -/
def PresentPc.untracked : PresentPc → ℕ
  | .committed => 1
  | _ => 0

/-- **The invariant**, with the fences of the tracked presents and the number of presents that
the device has processed. -/
structure PresentInv (slots : ℕ) (s : PresentRun) (fenceOf : List ℕ) (done : ℕ) : Prop where
  dev : s.dev.hasFence = true → FenceInv s.dev
  noFence : s.dev.hasFence = false → s.dev.issued = []
  accepts : s.dev.accepts = decide (8 ≤ s.capacity)
  capacity : s.capacity ≤ 2 ^ 32
  bytes : queueBytes s.queue ≤ s.capacity
  fences : pendingFences s.queue =
    List.range' s.dev.processed (s.dev.issued.length - s.dev.processed)
  presents : pendingPresents s.queue = List.range' done (s.begun - done)
  done_le : done ≤ s.begun
  order : s.queue.Pairwise (InOrder fenceOf)
  begun : s.begun = fenceOf.length + s.pc.untracked
  fenceOf_lt : s.dev.hasFence = true → ∀ j p : ℕ, fenceOf[j]? = some p → p < s.dev.issued.length
  /-- A present is processed before its fence. -/
  processed : s.dev.hasFence = true →
    ∀ j p : ℕ, fenceOf[j]? = some p → p < s.dev.processed → j < done
  tracks : Tracks slots s.tracker s.dev.hasFence fenceOf
  pacing : s.begun - done ≤ s.pc.allowed slots
  room : s.pc.untracked = 1 → 8 ≤ s.capacity
  syncing : ∀ f, s.pc = .syncing f → f = s.tracker.before

namespace PresentInv

variable {slots : ℕ} {s t : PresentRun} {fenceOf : List ℕ} {done : ℕ}

/-- The invariant holds at the start. -/
theorem start {slots capacity : ℕ} {hasFence : Bool} (hcap : capacity ≤ 2 ^ 32) :
    PresentInv slots (.start slots capacity hasFence) [] 0 where
  dev h := by
    change hasFence = true at h
    subst h
    exact FenceInv.start _
  noFence _ := rfl
  accepts := rfl
  capacity := hcap
  bytes := Nat.zero_le _
  fences := rfl
  presents := rfl
  done_le := le_rfl
  order := List.Pairwise.nil
  begun := rfl
  fenceOf_lt _ _ _ h := by cases h
  processed _ _ _ h := by cases h
  tracks := Tracks.init slots hasFence
  pacing := Nat.zero_le _
  room h := by cases h
  syncing _ h := by cases h

/-- The FIFO is too small for too many fences. -/
theorem few (h : PresentInv slots s fenceOf done) :
    s.dev.issued.length + 1 - s.dev.processed < 2 ^ 31 - 1 := by
  have hbytes := pendingFences_bytes s.queue
  have hle := h.bytes
  have hcap := h.capacity
  rw [h.fences, List.length_range'] at hbytes
  omega

/-- `InsertFence` puts the next fence into the FIFO, or changes at most the counter. -/
theorem insertFence_cases (h : PresentInv slots s fenceOf done) {f : ℕ}
    (hstep : s.insertFence = some (f, t)) :
    (s.dev.hasFence = false ∧ f = 1 ∧ t = s) ∨
    ∃ d, s.dev.hasFence = true ∧ FenceInv d ∧ d.processed = s.dev.processed ∧
      d.accepts = s.dev.accepts ∧
      (s.capacity < 8 ∧ d.issued = s.dev.issued ∧ t = { s with dev := d } ∨
        f = fenceValue s.dev.issued.length ∧
        d.issued = s.dev.issued ++ [fenceValue s.dev.issued.length] ∧
        queueBytes s.queue + 8 < s.capacity ∧
        t = { s with dev := d, queue := s.queue ++ [.fence s.dev.issued.length] }) := by
  rw [PresentRun.insertFence] at hstep
  cases hcap : s.dev.hasFence with
  | false =>
      have hinsert : s.dev.insertFence = (1, s.dev) := by
        rw [FenceDevice.insertFence, hcap, Bool.not_false, if_pos rfl]
      simp only [hinsert, if_true] at hstep
      cases hstep
      exact Or.inl ⟨rfl, rfl, rfl⟩
  | true =>
      obtain ⟨hinv, hissue, hproc, hacc⟩ := (h.dev hcap).insertFence h.few
      refine Or.inr ⟨s.dev.insertFence.2, rfl, hinv, hproc, hacc, ?_⟩
      by_cases haccepts : s.dev.accepts = true
      · obtain ⟨hvalue, hissued⟩ := hissue haccepts
        have hne : s.dev.insertFence.2.issued ≠ s.dev.issued := fun heq => by
          rw [hissued] at heq
          have := congrArg List.length heq
          rw [List.length_append, List.length_singleton] at this
          omega
        simp only [hne, if_false, PresentRun.push, Option.map_eq_some_iff] at hstep
        obtain ⟨u, hu, heq⟩ := hstep
        split at hu
        · rename_i hroom
          cases hu
          cases heq
          exact Or.inr ⟨hvalue, hissued, hroom, rfl⟩
        · cases hu
      · have hsmall : s.capacity < 8 := by
          rw [h.accepts, decide_eq_true_eq] at haccepts
          exact not_le.mp haccepts
        have hnone : s.dev.insertFence.2.issued = [] := by
          exact hinv.refused (by rw [hacc]; exact Bool.eq_false_of_not_eq_true haccepts)
        have hsame : s.dev.insertFence.2.issued = s.dev.issued := by
          rw [hnone, (h.dev hcap).refused (Bool.eq_false_of_not_eq_true haccepts)]
        simp only [hsame, if_true] at hstep
        cases hstep
        exact Or.inl ⟨hsmall, hsame, rfl⟩

/-- A command that is no present is put at the end of the FIFO. -/
theorem order_append {queue : List FifoCmd} (horder : queue.Pairwise (InOrder fenceOf))
    {c : FifoCmd} (hc : ∀ d ∈ queue, InOrder fenceOf d c) :
    (queue ++ [c]).Pairwise (InOrder fenceOf) := by
  refine List.pairwise_append.mpr ⟨horder, List.pairwise_singleton _ _, fun d hd e he => ?_⟩
  rw [List.mem_singleton.mp he]
  exact hc d hd

/-- A fence with a later number than all in the FIFO is tracked. -/
theorem order_track {queue : List FifoCmd} {n : ℕ} (horder : queue.Pairwise (InOrder fenceOf))
    (hlast : ∀ k, .fence k ∈ queue → k < n) : queue.Pairwise (InOrder (fenceOf ++ [n])) := by
  refine horder.imp_of_mem fun {c d} hc _ hcd k j p hk hj hp => ?_
  rcases Nat.lt_or_ge j fenceOf.length with hlt | hge
  · rw [List.getElem?_append_left hlt] at hp
    exact hcd k j p hk hj hp
  · rw [List.getElem?_append_right hge, List.getElem?_singleton] at hp
    split at hp
    · cases hp
      cases c with
      | fence number =>
          cases hk
          exact hlast k hc
      | present number numRects => cases hk
      | other bytes => cases hk
    · cases hp

/-- The fences in the FIFO have been issued. -/
theorem fence_lt (h : PresentInv slots s fenceOf done) {k : ℕ} (hk : .fence k ∈ s.queue) :
    s.dev.processed ≤ k ∧ k < s.dev.issued.length := by
  have hmem := mem_pendingFences hk
  rw [h.fences, List.mem_range'_1] at hmem
  omega

/-- A fence is put into the FIFO. -/
theorem pushFence (h : PresentInv slots s fenceOf done) (hcap : s.dev.hasFence = true)
    {d : FenceDevice} (hd : FenceInv d) (hproc : d.processed = s.dev.processed)
    (hacc : d.accepts = s.dev.accepts)
    (hissued : d.issued = s.dev.issued ++ [fenceValue s.dev.issued.length])
    (hroom : queueBytes s.queue + 8 < s.capacity) :
    PresentInv slots { s with
      dev := d, queue := s.queue ++ [.fence s.dev.issued.length] } fenceOf done := by
  have hlen : d.issued.length = s.dev.issued.length + 1 := by
    rw [hissued, List.length_append, List.length_singleton]
  have hle := (h.dev hcap).processed_le
  have hsame : d.hasFence = s.dev.hasFence := hd.hasFence.trans hcap.symm
  refine ⟨fun _ => hd, fun hno => ?_, hacc.trans h.accepts, h.capacity, ?_, ?_, ?_, h.done_le,
    order_append h.order ?_, h.begun, fun _ j p hp => ?_, fun _ j p hp hlt => ?_, ?_, h.pacing,
    h.room, h.syncing⟩
  · exact absurd (hd.hasFence.symm.trans hno) (by decide)
  · rw [queueBytes_append]
    exact hroom.le
  · simp only [pendingFences, List.filterMap_append, hlen, hproc]
    have hpending : s.queue.filterMap FifoCmd.fenceNumber = _ := h.fences
    rw [hpending, show s.dev.issued.length + 1 - s.dev.processed =
      s.dev.issued.length - s.dev.processed + 1 by omega, List.range'_concat, Nat.one_mul,
      Nat.add_sub_cancel' hle]
    rfl
  · simp only [pendingPresents, List.filterMap_append]
    exact (List.append_nil _).trans h.presents
  · rintro c - k j p - hj -
    cases hj
  · rw [hlen]
    exact (h.fenceOf_lt hcap j p hp).trans (Nat.lt_succ_self _)
  · rw [hproc] at hlt
    exact h.processed hcap j p hp hlt
  · rw [hsame]
    exact h.tracks

/-- **`FenceTracker::after`**: the fence of the present that was just committed is tracked. -/
theorem track (h : PresentInv slots s fenceOf done) (hslots : 0 < slots)
    (hpc : s.pc = .committed) {n : ℕ} (hn : s.dev.hasFence = true → n < s.dev.issued.length)
    (hproc : s.dev.hasFence = true → s.dev.processed ≤ n)
    (horder : s.queue.Pairwise (InOrder (fenceOf ++ [n]))) :
    PresentInv slots { s with
      tracker := s.tracker.after (trackedFence s.dev.hasFence n), pc := .idle }
      (fenceOf ++ [n]) done := by
  have hsplit : ∀ j p : ℕ, (fenceOf ++ [n])[j]? = some p → fenceOf[j]? = some p ∨ p = n := by
    intro j p hp
    rcases Nat.lt_or_ge j fenceOf.length with hlt | hge
    · rw [List.getElem?_append_left hlt] at hp
      exact Or.inl hp
    · rw [List.getElem?_append_right hge, List.getElem?_singleton] at hp
      split at hp
      · exact Or.inr (Option.some.inj hp).symm
      · cases hp
  refine ⟨h.dev, h.noFence, h.accepts, h.capacity, h.bytes, h.fences, h.presents, h.done_le,
    horder, ?_, fun hcap j p hp => ?_, fun hcap j p hp hlt => ?_, h.tracks.after hslots n, ?_,
    fun hroom => (by cases hroom), fun _ hf => by cases hf⟩
  · have hbegun := h.begun
    rw [hpc] at hbegun
    rw [List.length_append, List.length_singleton]
    exact hbegun
  · rcases hsplit j p hp with hp | rfl
    · exact h.fenceOf_lt hcap j p hp
    · exact hn hcap
  · rcases hsplit j p hp with hp | rfl
    · exact h.processed hcap j p hp hlt
    · exact absurd hlt (not_lt.mpr (hproc hcap))
  · have hpacing := h.pacing
    rw [hpc] at hpacing
    exact hpacing

/-- **The device** processes a command. -/
theorem process (h : PresentInv slots s fenceOf done) (hstep : s.process = some t) :
    ∃ done', PresentInv slots t fenceOf done' := by
  rw [PresentRun.process] at hstep
  have hbytes := h.bytes
  have hfences := h.fences
  have hpresents := h.presents
  have horder := h.order
  split at hstep
  · cases hstep
  · -- a fence: the presents with this fence or an older one have been processed
    rename_i k queue hqueue
    rw [Option.map_eq_some_iff] at hstep
    obtain ⟨d, hd, rfl⟩ := hstep
    rw [hqueue] at hbytes hfences hpresents horder
    rw [queueBytes_cons] at hbytes
    have hk := h.fence_lt (k := k) (by rw [hqueue]; exact List.mem_cons_self ..)
    have hcap : s.dev.hasFence = true := by
      by_contra hno
      have := h.noFence (Bool.eq_false_of_not_eq_true hno)
      rw [this] at hk
      exact absurd hk.2 (Nat.not_lt_zero _)
    obtain ⟨hinv, hissued, hproc, hacc⟩ := (h.dev hcap).processFence hd
    have hcount : s.dev.issued.length - s.dev.processed =
        s.dev.issued.length - (s.dev.processed + 1) + 1 := by omega
    change k :: pendingFences queue = _ at hfences
    rw [hcount, List.range'_succ, List.cons.injEq] at hfences
    obtain ⟨rfl, hfences⟩ := hfences
    have hsame : d.hasFence = s.dev.hasFence := hinv.hasFence.trans hcap.symm
    refine ⟨done, fun _ => hinv, fun hno => ?_, hacc.trans h.accepts, h.capacity,
      le_trans (Nat.le_add_left _ _) hbytes, ?_, hpresents, h.done_le, horder.of_cons, h.begun,
      fun _ j p hp => ?_, fun _ j p hp hlt => ?_, ?_, h.pacing, h.room, h.syncing⟩
    · exact absurd (hinv.hasFence.symm.trans hno) (by decide)
    · rw [hissued, hproc]
      exact hfences
    · rw [hissued]
      exact h.fenceOf_lt hcap j p hp
    · rw [hproc] at hlt
      rcases Nat.lt_or_ge p s.dev.processed with hold | hge
      · exact h.processed hcap j p hp hold
      · -- the present would still be behind its own fence
        by_contra hpending
        have hp' : p = s.dev.processed := by omega
        have hj : j < s.begun := by
          have := (List.getElem?_eq_some_iff.mp hp).1
          have := h.begun
          omega
        have hmem : j ∈ pendingPresents queue := by
          change pendingPresents queue = _ at hpresents
          rw [hpresents, List.mem_range'_1]
          omega
        obtain ⟨numRects, hmem⟩ := mem_pendingPresents.mp hmem
        have := List.rel_of_pairwise_cons horder hmem s.dev.processed j p rfl rfl hp
        omega
    · rw [hsame]
      exact h.tracks
  · -- a present or another command
    rename_i c queue hno hqueue
    cases hstep
    rw [hqueue] at hbytes hfences hpresents horder
    rw [queueBytes_cons] at hbytes
    cases c with
    | fence number => exact absurd rfl (hno number)
    | other bytes =>
        exact ⟨done, h.dev, h.noFence, h.accepts, h.capacity,
          le_trans (Nat.le_add_left _ _) hbytes, hfences, hpresents, h.done_le, horder.of_cons,
          h.begun, h.fenceOf_lt, h.processed, h.tracks, h.pacing, h.room, h.syncing⟩
    | present number numRects =>
        have hlt : done < s.begun := by
          by_contra hge
          rw [Nat.sub_eq_zero_of_le (not_lt.mp hge)] at hpresents
          cases hpresents
        change number :: pendingPresents queue = _ at hpresents
        rw [show s.begun - done = s.begun - (done + 1) + 1 by omega, List.range'_succ,
          List.cons.injEq] at hpresents
        refine ⟨done + 1, h.dev, h.noFence, h.accepts, h.capacity,
          le_trans (Nat.le_add_left _ _) hbytes, hfences, hpresents.2, hlt, horder.of_cons,
          h.begun, h.fenceOf_lt, fun hcap j p hp hpp => ?_, h.tracks, ?_, h.room, h.syncing⟩
        · exact (h.processed hcap j p hp hpp).trans (Nat.lt_succ_self _)
        · exact (Nat.sub_le_sub_left (Nat.le_succ _) _).trans h.pacing

/-- A command that is neither a fence nor a present. -/
theorem pushOther (h : PresentInv slots s fenceOf done) {bytes : ℕ}
    (hstep : s.push (.other bytes) = some t) : PresentInv slots t fenceOf done := by
  rw [PresentRun.push] at hstep
  split at hstep
  · rename_i hroom
    cases hstep
    refine ⟨h.dev, h.noFence, h.accepts, h.capacity, ?_, ?_, ?_, h.done_le,
      order_append h.order ?_, h.begun, h.fenceOf_lt, h.processed, h.tracks, h.pacing, h.room,
      h.syncing⟩
    · rw [queueBytes_append]
      exact hroom.le
    · simp only [pendingFences, List.filterMap_append]
      exact (List.append_nil _).trans h.fences
    · simp only [pendingPresents, List.filterMap_append]
      exact (List.append_nil _).trans h.presents
    · rintro c - k j p - hj -
      cases hj
  · cases hstep

/-- **A present** is committed where one less than the ring has slots may be pending. -/
theorem present (h : PresentInv slots s fenceOf done) (hslots : 0 < slots)
    (hpc : s.pc = .synced) {numRects : ℕ} {u : PresentRun}
    (hstep : s.push (.present s.begun numRects) = some u) :
    PresentInv slots { u with pc := .committed, begun := s.begun + 1 } fenceOf done := by
  have hbegun := h.begun
  rw [hpc] at hbegun
  have hpacing := h.pacing
  rw [hpc] at hpacing
  have hle := h.done_le
  rw [PresentRun.push] at hstep
  split at hstep
  · rename_i hroom
    cases hstep
    refine ⟨h.dev, h.noFence, h.accepts, h.capacity, ?_, ?_, ?_, hle.trans (Nat.le_succ _),
      order_append h.order ?_, ?_, h.fenceOf_lt, h.processed, h.tracks, ?_, fun _ => ?_,
      fun _ hf => by cases hf⟩
    · rw [queueBytes_append]
      exact hroom.le
    · simp only [pendingFences, List.filterMap_append]
      exact (List.append_nil _).trans h.fences
    · simp only [pendingPresents, List.filterMap_append]
      have hpending : s.queue.filterMap FifoCmd.presentNumber = _ := h.presents
      rw [hpending, show s.begun + 1 - done = s.begun - done + 1 by omega, List.range'_concat,
        Nat.one_mul, Nat.add_sub_cancel' hle]
      rfl
    · -- its fence has not been issued yet
      rintro c - k j p - hj hp
      cases hj
      have := (List.getElem?_eq_some_iff.mp hp).1
      rw [hbegun] at this
      exact absurd this (lt_irrefl _)
    · rw [hbegun]
      rfl
    · simp only [PresentPc.allowed] at hpacing ⊢
      omega
    · rw [FifoCmd.bytes] at hroom
      simp only
      omega
  · cases hstep

/-- **`SyncToFence`** has returned: the present one round before has been processed. -/
theorem synced (h : PresentInv slots s fenceOf done) (hslots : 0 < slots)
    (huntracked : s.pc.untracked = 0)
    (hsync : s.tracker.before = 0 ∨ s.queue = [] ∨
      s.dev.hasFence = true ∧ hasFencePassedUnguarded s.dev.fence s.tracker.before = true) :
    PresentInv slots { s with pc := .synced } fenceOf done := by
  have hbegun := h.begun
  rw [huntracked] at hbegun
  refine ⟨h.dev, h.noFence, h.accepts, h.capacity, h.bytes, h.fences, h.presents, h.done_le,
    h.order, hbegun, h.fenceOf_lt, h.processed, h.tracks, ?_, fun hroom => (by cases hroom),
    fun _ hf => by cases hf⟩
  change s.begun - done ≤ slots - 1
  have hbefore := h.tracks.before hslots
  rcases Nat.lt_or_ge fenceOf.length slots with hfirst | hround
  · omega
  rw [if_neg (not_lt.mpr hround)] at hbefore
  rcases hsync with hzero | hidle | ⟨hcap, hpassed⟩
  · rw [hbefore, trackedFence] at hzero
    split at hzero
    · exact absurd hzero (fenceValue_pos _)
    · cases hzero
  · -- nothing is pending at all
    have hpresents := h.presents
    rw [hidle] at hpresents
    have := congrArg List.length hpresents
    rw [List.length_range'] at this
    change 0 = _ at this
    omega
  · have hget : fenceOf[fenceOf.length - slots]? =
        some (fenceOf.getD (fenceOf.length - slots) 0) := by
      rw [List.getD_eq_getElem?_getD, List.getElem?_eq_getElem (by omega), Option.getD_some]
    have hissued : s.dev.issued[fenceOf.getD (fenceOf.length - slots) 0]? =
        some s.tracker.before := by
      have hlt := h.fenceOf_lt hcap _ _ hget
      rw [(h.dev hcap).issued, List.getElem?_map, List.getElem?_range hlt, hbefore, trackedFence,
        if_pos hcap]
      rfl
    have := h.processed hcap _ _ hget ((h.dev hcap).processed_of_passed hissued hpassed)
    omega

/-- A point of the program at which as many presents may be pending. -/
theorem atPc (h : PresentInv slots s fenceOf done) {pc : PresentPc}
    (hallowed : s.pc.allowed slots ≤ pc.allowed slots) (huntracked : pc.untracked = 0)
    (huntracked' : s.pc.untracked = 0) (hsync : ∀ f, pc = .syncing f → f = s.tracker.before) :
    PresentInv slots { s with pc := pc } fenceOf done := by
  have hbegun := h.begun
  rw [huntracked'] at hbegun
  refine ⟨h.dev, h.noFence, h.accepts, h.capacity, h.bytes, h.fences, h.presents, h.done_le,
    h.order, ?_, h.fenceOf_lt, h.processed, h.tracks, h.pacing.trans hallowed, fun hroom => ?_,
    hsync⟩
  · simp only [huntracked]
    exact hbegun
  · simp only [huntracked] at hroom
    cases hroom

/-- A fence that is not the tracker's. -/
theorem otherFence (h : PresentInv slots s fenceOf done) {f : ℕ}
    (hstep : s.insertFence = some (f, t)) : PresentInv slots t fenceOf done := by
  rcases h.insertFence_cases hstep with ⟨-, -, rfl⟩ | ⟨d, hcap, hinv, hproc, hacc,
    ⟨-, hissued, rfl⟩ | ⟨-, hissued, hroom, rfl⟩⟩
  · exact h
  · have hsame : d.hasFence = s.dev.hasFence := hinv.hasFence.trans hcap.symm
    refine ⟨fun _ => hinv, fun hno => ?_, hacc.trans h.accepts, h.capacity, h.bytes, ?_,
      h.presents, h.done_le, h.order, h.begun, fun _ j p hp => ?_, fun _ j p hp hlt => ?_, ?_,
      h.pacing, h.room, h.syncing⟩
    · exact absurd (hinv.hasFence.symm.trans hno) (by decide)
    · rw [hissued, hproc]
      exact h.fences
    · rw [hissued]
      exact h.fenceOf_lt hcap j p hp
    · rw [hproc] at hlt
      exact h.processed hcap j p hp hlt
    · rw [hsame]
      exact h.tracks
  · exact h.pushFence hcap hinv hproc hacc hissued hroom

/-- `InsertFence` and `FenceTracker::after` behind a present. -/
theorem trackFence (h : PresentInv slots s fenceOf done) (hslots : 0 < slots)
    (hpc : s.pc = .committed) {f : ℕ} (hstep : s.insertFence = some (f, t)) :
    PresentInv slots { t with tracker := s.tracker.after f, pc := .idle }
      (fenceOf ++ [s.dev.issued.length]) done := by
  have hroom := h.room (by rw [hpc]; rfl)
  have horder := order_track (n := s.dev.issued.length) h.order fun k hk => (h.fence_lt hk).2
  rcases h.insertFence_cases hstep with ⟨hno, rfl, rfl⟩ | ⟨d, hcap, hinv, hproc, hacc,
    ⟨hsmall, -, -⟩ | ⟨rfl, hissued, hfit, rfl⟩⟩
  · have hfence : 1 = trackedFence t.dev.hasFence t.dev.issued.length := by
      rw [hno]
      rfl
    rw [hfence]
    exact h.track hslots hpc (fun hcap => absurd (hno.symm.trans hcap) (by decide))
      (fun hcap => absurd (hno.symm.trans hcap) (by decide)) horder
  · omega
  · have hfence : fenceValue s.dev.issued.length =
        trackedFence d.hasFence s.dev.issued.length := by
      rw [hinv.hasFence]
      rfl
    rw [hfence]
    refine (h.pushFence hcap hinv hproc hacc hissued hfit).track hslots hpc (fun _ => ?_)
      (fun _ => ?_) (order_append horder ?_)
    · rw [hissued, List.length_append, List.length_singleton]
      exact Nat.lt_succ_self _
    · rw [hproc]
      exact (h.dev hcap).processed_le
    · rintro c - k j p - hj -
      cases hj

/-- **A step** keeps the invariant. -/
theorem step (h : PresentInv slots s fenceOf done) (hslots : 0 < slots) {a : PresentAction}
    (hstep : s.step a = some t) : ∃ fenceOf' done', PresentInv slots t fenceOf' done' := by
  cases a with
  | enter =>
      rw [PresentRun.step] at hstep
      split at hstep
      · rename_i hpc
        cases hstep
        have huntracked : s.pc.untracked = 0 := by rw [hpc]; rfl
        by_cases henter : s.dev.syncEnter s.tracker.before = true
        · rw [if_pos henter]
          refine ⟨fenceOf, done, h.synced hslots huntracked ?_⟩
          rw [FenceDevice.syncEnter] at henter
          split at henter
          · exact Or.inl ‹_›
          · split at henter
            · cases henter
            · rename_i hcap
              exact Or.inr (Or.inr ⟨by simpa using hcap, henter⟩)
        · rw [if_neg henter]
          exact ⟨fenceOf, done, h.atPc (by rw [hpc]; exact le_rfl) rfl huntracked
            fun f hf => by cases hf; rfl⟩
      · cases hstep
  | poll busy =>
      rw [PresentRun.step] at hstep
      split at hstep
      · rename_i f hpc
        have huntracked : s.pc.untracked = 0 := by rw [hpc]; rfl
        have hf := h.syncing f hpc
        split at hstep
        · cases hstep
        · rename_i hidle
          cases hstep
          by_cases hpoll : s.dev.syncPoll f busy = true
          · rw [if_pos hpoll]
            refine ⟨fenceOf, done, h.synced hslots huntracked (Or.inr ?_)⟩
            cases busy with
            | false =>
                rw [Bool.not_false, Bool.true_and, Bool.not_eq_true', Bool.not_eq_false,
                  List.isEmpty_iff] at hidle
                exact Or.inl hidle
            | true =>
                rw [FenceDevice.syncPoll, Bool.not_true, Bool.or_false] at hpoll
                split at hpoll
                · cases hpoll
                · rename_i hcap
                  exact Or.inr ⟨by simpa using hcap, hf ▸ hpoll⟩
          · rw [if_neg hpoll]
            exact ⟨fenceOf, done, h.atPc (by rw [hpc]) rfl huntracked
              fun g hg => PresentPc.syncing.inj hg ▸ hf⟩
      · cases hstep
  | refuse =>
      rw [PresentRun.step] at hstep
      split at hstep
      · rename_i hpc
        cases hstep
        exact ⟨fenceOf, done, h.atPc (by rw [hpc]; exact Nat.sub_le _ _) rfl (by rw [hpc]; rfl)
          fun f hf => by cases hf⟩
      · cases hstep
  | present numRects =>
      rw [PresentRun.step] at hstep
      split at hstep
      · rename_i hpc
        rw [Option.map_eq_some_iff] at hstep
        obtain ⟨u, hu, rfl⟩ := hstep
        exact ⟨fenceOf, done, h.present hslots hpc hu⟩
      · cases hstep
  | track =>
      rw [PresentRun.step] at hstep
      split at hstep
      · rename_i hpc
        rw [Option.map_eq_some_iff] at hstep
        obtain ⟨⟨f, u⟩, hu, rfl⟩ := hstep
        exact ⟨_, done, h.trackFence hslots hpc hu⟩
      · cases hstep
  | other bytes => exact ⟨fenceOf, done, h.pushOther hstep⟩
  | otherFence =>
      rw [PresentRun.step, Option.map_eq_some_iff] at hstep
      obtain ⟨⟨f, u⟩, hu, rfl⟩ := hstep
      exact ⟨fenceOf, done, h.otherFence hu⟩
  | process => exact ⟨fenceOf, h.process hstep⟩

end PresentInv

/-- **Present pacing.** However the calls, the other commands and the device interleave, there
are never more presents in the FIFO than the ring has slots. -/
theorem present_pacing {slots capacity : ℕ} (hslots : 0 < slots) (hcap : capacity ≤ 2 ^ 32)
    (hasFence : Bool) {as : List PresentAction} {s : PresentRun}
    (hrun : Run PresentRun.step Always (.start slots capacity hasFence) as s) :
    (pendingPresents s.queue).length ≤ slots := by
  have hinv : ∃ fenceOf done, PresentInv slots s fenceOf done := by
    refine hrun.invariant (I := fun s => ∃ fenceOf done, PresentInv slots s fenceOf done) ?_
      ⟨[], 0, PresentInv.start hcap⟩
    rintro s a t ⟨fenceOf, done, h⟩ - hstep
    exact h.step hslots hstep
  obtain ⟨fenceOf, done, h⟩ := hinv
  rw [h.presents, List.length_range']
  refine h.pacing.trans ?_
  cases s.pc with
  | synced => exact Nat.sub_le _ _
  | _ => exact le_rfl

/-- Two presents are pending when the third call has to wait. -/
theorem present_pacing_two : ∃ s, Run PresentRun.step Always (.start 2 0x1000 true)
      [.enter, .present 1, .track, .enter, .present 0, .track, .enter, .poll true] s ∧
    pendingPresents s.queue = [0, 1] ∧ (pendingPresents s.queue).length ≤ 2 := by
  have hrun : ∃ s, Run PresentRun.step Always (.start 2 0x1000 true)
      [.enter, .present 1, .track, .enter, .present 0, .track, .enter, .poll true] s ∧
      pendingPresents s.queue = [0, 1] := ⟨_, run_of_foldlM rfl, rfl⟩
  obtain ⟨s, hrun, hpending⟩ := hrun
  exact ⟨s, hrun, hpending, present_pacing (by decide) (by decide) true hrun⟩

end DockerMacos
