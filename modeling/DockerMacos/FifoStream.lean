import DockerMacos.FifoSystem

/-!
# The Stream Law of the Command FIFO

The state of the ring is described by the position of `STOP` and the number of unread
words (`RingInv`); the guest's local variables are described, for each point of its
program, by `GuestInv`. Free room can only grow while the guest is inside a call, which
is why a single look at `STOP` is enough.

## The condition

`FIFOCommit` adds `NEXT_CMD` and the size of the command in `uint32_t`. The law holds in
every run in which that sum does not wrap at a publication (`CommitFits`); for a FIFO of
at most `2 ^ 32 - 2 ^ 16` bytes it never does.

## Undisturbed calls

The moves are also what a call of `FIFOCommit` consists of: taken one after the other, with the
device at rest, they come to the function that the source has.

## Main results

* `FifoInv.step`: every move under `CommitFits` preserves the invariant.
* `fifo_stream_law`: the stream law for every run under `CommitFits`.
* `fifo_stream_law_of_small`: the law for every run of a FIFO that is not huge.
* `fifoCommit_run`: the moves of an undisturbed commit compose to `fifoCommit`.
* `fifo_stream_law_fails`: a run of a huge FIFO that breaks the law.
-/

namespace DockerMacos

open SVGADevice

/-! ### The invariant -/

/-- The ring: both bounds are word-aligned 32-bit offsets, `STOP` is at word `stop` and
`unread` published words follow it. One word always stays free. -/
structure RingInv (d : SVGADevice) (stop unread : ℕ) : Prop where
  minAligned : d.fifoMin = 4 * d.ringLo
  maxAligned : d.fifoMax = 4 * d.ringHi
  max_lt : d.fifoMax < 2 ^ 32
  stop_mem : d.ringLo ≤ stop ∧ stop < d.ringHi
  stop_eq : d.fifoStop = 4 * stop
  unread_lt : unread < d.ringHi - d.ringLo
  next_eq : d.fifoNextCmd = 4 * ringAdvance d.ringLo d.ringHi stop unread

/-- What the guest knows at each point of its program, given the number of unread
words. -/
def GuestInv (s : FifoRun) (unread : ℕ) : GuestPc → Prop
  | .idle => s.dev.reservedSize = 0 ∧ s.committed = s.published
  | .reserving nextCmd bytes =>
      s.committed = s.published ∧ nextCmd = s.dev.fifoNextCmd ∧ 4 ∣ bytes ∧ 0 < bytes ∧
        bytes ≤ bounceBufferSize ∧ s.dev.reservedSize = bytes ∧ ∀ i, s.written i = none
  | .reserved nextCmd bytes =>
      s.committed = s.published ∧ nextCmd = s.dev.fifoNextCmd ∧ 4 ∣ bytes ∧ 0 < bytes ∧
        bytes ≤ bounceBufferSize ∧ s.dev.reservedSize = bytes ∧
        unread + bytes / 4 < s.dev.ringHi - s.dev.ringLo ∧
        (s.dev.usingBounceBuffer = false → nextCmd / 4 + bytes / 4 ≤ s.dev.ringHi) ∧
        ∀ i < bytes / 4, ∀ v, s.written i = some v →
          (if s.dev.usingBounceBuffer then s.dev.bounceBuffer i
            else s.dev.fifo (nextCmd / 4 + i)) = v
  | .storing nextCmd left dword =>
      nextCmd = s.dev.fifoNextCmd ∧ 4 ∣ left ∧ s.dev.reservedSize = 0 ∧
        unread + left / 4 < s.dev.ringHi - s.dev.ringLo ∧
        s.committed = s.published ++
          (List.range (left / 4)).map fun i => s.dev.bounceBuffer (dword + i)
  | .publishing nextCmd bytes =>
      nextCmd = s.dev.fifoNextCmd ∧ 4 ∣ bytes ∧ s.dev.reservedSize = 0 ∧
        bytes ≤ bounceBufferSize ∧
        unread + bytes / 4 < s.dev.ringHi - s.dev.ringLo ∧
        s.committed = s.published ++
          ringRead s.dev.fifo s.dev.ringLo s.dev.ringHi (nextCmd / 4) (bytes / 4)

/-- **The invariant of a run.** -/
def FifoInv (s : FifoRun) : Prop :=
  ∃ stop unread, RingInv s.dev stop unread ∧
    s.published = s.deviceRead ++ ringRead s.dev.fifo s.dev.ringLo s.dev.ringHi stop unread ∧
    GuestInv s unread s.pc

/-! ### Positions -/

namespace RingInv

variable {d : SVGADevice} {stop unread : ℕ}

/-- The word at which the next command will start. -/
theorem next_div (h : RingInv d stop unread) :
    d.fifoNextCmd / 4 = ringAdvance d.ringLo d.ringHi stop unread := by
  rw [h.next_eq]
  omega

/-- The device's word, from its byte offset. -/
theorem stop_div (h : RingInv d stop unread) : d.fifoStop / 4 = stop := by
  rw [h.stop_eq]
  omega

/-- The next word is one of the ring. -/
theorem next_mem (h : RingInv d stop unread) :
    d.ringLo ≤ d.fifoNextCmd / 4 ∧ d.fifoNextCmd / 4 < d.ringHi := by
  rw [h.next_div]
  exact ringAdvance_mem h.stop_mem

/-- The next command begins at a word. -/
theorem next_aligned (h : RingInv d stop unread) :
    d.fifoNextCmd = 4 * (d.fifoNextCmd / 4) := by
  rw [h.next_div, h.next_eq]

/-- The number of unread words, computed from the two registers. -/
theorem unread_eq (h : RingInv d stop unread) :
    unread = ringDist d.ringLo d.ringHi (d.fifoStop / 4) (d.fifoNextCmd / 4) := by
  rw [h.next_div, h.stop_div, ringDist_ringAdvance h.stop_mem h.unread_lt]

/-- The pointers are equal exactly when nothing is unread. -/
theorem next_eq_stop_iff (h : RingInv d stop unread) :
    d.fifoNextCmd = d.fifoStop ↔ unread = 0 := by
  rw [h.next_eq, h.stop_eq, ← ringAdvance_eq_self_iff h.stop_mem h.unread_lt]
  omega

/-- The cells behind `NEXT_CMD`, counted from `STOP`. -/
theorem advance_next (h : RingInv d stop unread) (i : ℕ) :
    ringAdvance d.ringLo d.ringHi (d.fifoNextCmd / 4) i =
      ringAdvance d.ringLo d.ringHi stop (unread + i) := by
  rw [h.next_div, ringAdvance_add]

/-- The free cells behind `NEXT_CMD` are not unread ones. -/
theorem free_ne_unread (h : RingInv d stop unread) {i j : ℕ} (hj : j < unread)
    (hi : unread + i < d.ringHi - d.ringLo) :
    ringAdvance d.ringLo d.ringHi stop j ≠
      ringAdvance d.ringLo d.ringHi (d.fifoNextCmd / 4) i := by
  rw [h.advance_next]
  intro heq
  have := ringAdvance_inj h.stop_mem (by omega) hi heq
  omega

/-- **One look is enough.** If `FIFOReserve` finds room, the free cells hold the command,
and a command in place does not cross the end of the ring. -/
theorem room_of_placement (h : RingInv d stop unread) {bytes : ℕ} (hb : 4 ∣ bytes)
    (hp : placement d.fifoMin d.fifoMax d.fifoNextCmd d.fifoStop bytes ≠ .full) :
    unread + bytes / 4 < d.ringHi - d.ringLo ∧
      (placement d.fifoMin d.fifoMax d.fifoNextCmd d.fifoStop bytes = .inPlace →
        d.fifoNextCmd / 4 + bytes / 4 ≤ d.ringHi) := by
  have hmem := h.next_mem
  have hnext := h.next_aligned
  have hstop := h.stop_eq
  have hmin := h.minAligned
  have hmax := h.maxAligned
  have hlt := h.max_lt
  have hsm := h.stop_mem
  have hun := h.unread_eq
  rw [h.stop_div] at hun
  unfold ringDist at hun
  unfold placement at hp ⊢
  by_cases hge : d.fifoNextCmd ≥ d.fifoStop
  · rw [if_pos hge] at hp ⊢
    have hsum : add32 (sub32 d.fifoMax d.fifoNextCmd) (sub32 d.fifoStop d.fifoMin) =
        (d.fifoMax - d.fifoNextCmd) + (d.fifoStop - d.fifoMin) := by
      rw [sub32_of_le (by omega) (by omega), sub32_of_le (by omega) (by omega),
        add32_of_lt (by omega)]
    rw [hsum] at hp ⊢
    rw [if_pos (by omega)] at hun
    split at hp
    · rename_i hin
      rw [if_pos hin]
      exact ⟨by omega, fun _ => by omega⟩
    · rename_i hin
      rw [if_neg hin]
      split at hp
      · exact absurd rfl hp
      · rename_i hfull
        rw [if_neg hfull]
        exact ⟨by omega, by rintro ⟨⟩⟩
  · rw [if_neg hge] at hp ⊢
    rw [if_neg (by omega)] at hun
    split at hp
    · rename_i hin
      rw [if_pos hin]
      exact ⟨by omega, fun _ => by omega⟩
    · exact absurd rfl hp

/-- The step of the word-by-word copy and of the device is the step of the ring. -/
theorem nextWord_eq (h : RingInv d stop unread) {w : ℕ}
    (hw : d.ringLo ≤ w ∧ w < d.ringHi) :
    d.nextWord (4 * w) = 4 * ringNext d.ringLo d.ringHi w := by
  have hmin := h.minAligned
  have hmax := h.maxAligned
  have hlt := h.max_lt
  unfold nextWord ringNext
  rw [add32_of_lt (by omega)]
  split <;> split <;> omega

/-- Without wrapping in `uint32_t`, the step of a whole command is that many steps of
the ring. -/
theorem nextCommand_eq (h : RingInv d stop unread) {bytes : ℕ} (hb : 4 ∣ bytes)
    (hroom : unread + bytes / 4 < d.ringHi - d.ringLo)
    (hfits : d.fifoNextCmd + bytes < 2 ^ 32) :
    d.nextCommand d.fifoNextCmd bytes =
      4 * ringAdvance d.ringLo d.ringHi (d.fifoNextCmd / 4) (bytes / 4) := by
  have hmem := h.next_mem
  have hnext := h.next_aligned
  have hmin := h.minAligned
  have hmax := h.maxAligned
  have hlt := h.max_lt
  rw [ringAdvance_eq hmem (by omega)]
  unfold nextCommand
  rw [add32_of_lt hfits, sub32_of_le (b := d.fifoMin) (by omega) (by omega)]
  simp only
  split
  · rw [if_neg (by omega), sub32_of_le (by omega) (by omega)]
    omega
  · rw [if_pos (by omega)]
    omega

/-- The words published by moving `NEXT_CMD` over `k` cells. -/
theorem wordsBetween_advance (h : RingInv d stop unread) {k : ℕ}
    (hk : k < d.ringHi - d.ringLo) (mem : ℕ → FifoWord) :
    ringRead mem d.ringLo d.ringHi (d.fifoNextCmd / 4)
        (ringDist d.ringLo d.ringHi (d.fifoNextCmd / 4)
          (4 * ringAdvance d.ringLo d.ringHi (d.fifoNextCmd / 4) k / 4)) =
      ringRead mem d.ringLo d.ringHi (d.fifoNextCmd / 4) k := by
  rw [Nat.mul_div_cancel_left _ (by omega), ringDist_ringAdvance h.next_mem hk]

end RingInv

/-! ### Contents -/

/-- The words filled by the guest, once it has filled all of them. -/
theorem contents_eq_map {written : ℕ → Option FifoWord} {bytes : ℕ} {f : ℕ → FifoWord}
    (hfull : filled written bytes = true)
    (hf : ∀ i < bytes / 4, ∀ v, written i = some v → f i = v) :
    contents written bytes = (List.range (bytes / 4)).map f := by
  unfold filled at hfull
  rw [List.all_eq_true] at hfull
  refine List.map_congr_left fun i hi => ?_
  obtain ⟨v, hv⟩ := Option.isSome_iff_exists.mp (hfull i hi)
  rw [hf i (List.mem_range.mp hi) v hv, hv, Option.getD_some]

/-- A commit of nothing has no contents. -/
@[simp] theorem contents_zero (written : ℕ → Option FifoWord) : contents written 0 = [] :=
  rfl

/-- The contents of a command that is in place are the cells behind `NEXT_CMD`. -/
theorem map_add_eq_ringRead {mem : ℕ → FifoWord} {lo hi w n : ℕ} (hw : lo ≤ w ∧ w < hi)
    (hn : w + n ≤ hi) :
    ((List.range n).map fun i => mem (w + i)) = ringRead mem lo hi w n := by
  rw [ringRead_eq_map]
  refine List.map_congr_left fun i hi => ?_
  have hi := List.mem_range.mp hi
  rw [ringAdvance_eq hw (by omega), if_pos (by omega)]

/-- The copy out of the bounce buffer puts the command on the cells behind `NEXT_CMD`. -/
theorem RingInv.copy_at {d : SVGADevice} {stop unread bytes i : ℕ}
    (h : RingInv d stop unread) (hb : 4 ∣ bytes)
    (hroom : unread + bytes / 4 < d.ringHi - d.ringLo) (hi : i < bytes / 4) :
    (d.fifoCommitCopy d.fifoNextCmd bytes).fifo
        (ringAdvance d.ringLo d.ringHi (d.fifoNextCmd / 4) i) = d.bounceBuffer i := by
  have hmem := h.next_mem
  have hnext := h.next_aligned
  have hmin := h.minAligned
  have hmax := h.maxAligned
  have hlt := h.max_lt
  rw [ringAdvance_eq hmem (by omega)]
  unfold fifoCommitCopy
  rw [sub32_of_le (by omega) (by omega)]
  simp only
  by_cases hend : d.fifoNextCmd / 4 + i < d.ringHi
  · rw [if_pos hend, if_neg (by omega), if_pos (by omega), Nat.add_sub_cancel_left]
  · rw [if_neg hend, if_pos (by omega)]
    congr 1
    omega

/-- The copy changes no other cell. -/
theorem RingInv.copy_other {d : SVGADevice} {stop unread bytes k : ℕ}
    (h : RingInv d stop unread) (hb : 4 ∣ bytes)
    (hroom : unread + bytes / 4 < d.ringHi - d.ringLo)
    (hk : ∀ i < bytes / 4, k ≠ ringAdvance d.ringLo d.ringHi (d.fifoNextCmd / 4) i) :
    (d.fifoCommitCopy d.fifoNextCmd bytes).fifo k = d.fifo k := by
  have hmem := h.next_mem
  have hnext := h.next_aligned
  have hmin := h.minAligned
  have hmax := h.maxAligned
  have hlt := h.max_lt
  unfold fifoCommitCopy
  rw [sub32_of_le (by omega) (by omega)]
  simp only
  split
  · -- the part that wrapped to the start of the ring
    have hi := hk (k - d.fifoMin / 4 + min (d.fifoMax - d.fifoNextCmd) bytes / 4) (by omega)
    rw [ringAdvance_eq hmem (by omega), if_neg (by omega)] at hi
    omega
  · split
    · -- the part up to the end of the ring
      have hi := hk (k - d.fifoNextCmd / 4) (by omega)
      rw [ringAdvance_eq hmem (by omega), if_pos (by omega)] at hi
      omega
    · rfl

/-! ### What each move preserves -/

/-- Changing cells and fields that the ring does not depend on keeps it. -/
theorem RingInv.congr {d d' : SVGADevice} {stop unread : ℕ} (h : RingInv d stop unread)
    (hmin : d'.fifoMin = d.fifoMin) (hmax : d'.fifoMax = d.fifoMax)
    (hstop : d'.fifoStop = d.fifoStop) (hnext : d'.fifoNextCmd = d.fifoNextCmd) :
    RingInv d' stop unread := by
  obtain ⟨h1, h2, h3, h4, h5, h6, h7⟩ := h
  constructor <;> simp only [ringLo, ringHi, hmin, hmax, hstop, hnext] at * <;> assumption

/-- Moving `NEXT_CMD` over `k` free cells publishes them. -/
theorem RingInv.publish {d d' : SVGADevice} {stop unread k : ℕ} (h : RingInv d stop unread)
    (hmin : d'.fifoMin = d.fifoMin) (hmax : d'.fifoMax = d.fifoMax)
    (hstop : d'.fifoStop = d.fifoStop)
    (hnext : d'.fifoNextCmd =
      4 * ringAdvance d.ringLo d.ringHi (d.fifoNextCmd / 4) k)
    (hroom : unread + k < d.ringHi - d.ringLo) : RingInv d' stop (unread + k) := by
  rw [h.advance_next] at hnext
  obtain ⟨h1, h2, h3, h4, h5, -, -⟩ := h
  constructor <;> simp only [ringLo, ringHi, hmin, hmax, hstop, hnext] at * <;> assumption

/-- The published stream grows by the cells behind the old `NEXT_CMD`. -/
theorem published_step {d : SVGADevice} (d' : SVGADevice) {stop unread k : ℕ}
    {published deviceRead : List FifoWord} (h : RingInv d stop unread)
    (hpub : published = deviceRead ++ ringRead d.fifo d.ringLo d.ringHi stop unread)
    (hlo : d'.ringLo = d.ringLo) (hhi : d'.ringHi = d.ringHi)
    (hnext : d'.fifoNextCmd =
      4 * ringAdvance d.ringLo d.ringHi (d.fifoNextCmd / 4) k)
    (hroom : unread + k < d.ringHi - d.ringLo)
    (hkeep : ∀ j < unread, d'.fifo (ringAdvance d.ringLo d.ringHi stop j) =
      d.fifo (ringAdvance d.ringLo d.ringHi stop j)) :
    published ++ d'.wordsBetween d.fifoNextCmd d'.fifoNextCmd =
        published ++ ringRead d'.fifo d.ringLo d.ringHi (d.fifoNextCmd / 4) k ∧
      published ++ d'.wordsBetween d.fifoNextCmd d'.fifoNextCmd =
        deviceRead ++ ringRead d'.fifo d'.ringLo d'.ringHi stop (unread + k) := by
  have hwords : d'.wordsBetween d.fifoNextCmd d'.fifoNextCmd =
      ringRead d'.fifo d.ringLo d.ringHi (d.fifoNextCmd / 4) k := by
    unfold wordsBetween
    rw [hlo, hhi, hnext, h.wordsBetween_advance (by omega)]
  refine ⟨by rw [hwords], ?_⟩
  rw [hwords, hpub, hlo, hhi, ringRead_add, ringRead_congr hkeep, h.next_div,
    List.append_assoc]

/-- The invariant, for a guest whose program point is known. -/
theorem FifoInv.intro {t : FifoRun} {pc : GuestPc} {stop unread : ℕ} (hpc : t.pc = pc)
    (hring : RingInv t.dev stop unread)
    (hpub : t.published =
      t.deviceRead ++ ringRead t.dev.fifo t.dev.ringLo t.dev.ringHi stop unread)
    (hguest : GuestInv t unread pc) : FifoInv t :=
  ⟨stop, unread, hring, hpub, hpc ▸ hguest⟩

/-- The invariant holds after `FIFOInit`. -/
theorem FifoInv.start {d : SVGADevice} (hsize : svgaFifoNumRegs * 4 < d.fifoSize)
    (haligned : 4 ∣ d.fifoSize) (hlt : d.fifoSize < 2 ^ 32) : FifoInv (fifoStart d) := by
  have hregs : svgaFifoNumRegs = 291 := rfl
  refine ⟨svgaFifoNumRegs, 0, ?_, rfl, rfl, rfl⟩
  constructor <;>
    simp only [fifoStart, fifoInit, ringLo, ringHi, ringAdvance_zero] <;> omega

/-- Entering `FIFOReserve`. -/
theorem FifoInv.reserve {s t : FifoRun} {n : ℕ} (h : FifoInv s)
    (hstep : fifoStep s (.reserve n) = some t) : FifoInv t := by
  obtain ⟨stop, unread, hring, hpub, hguest⟩ := h
  simp only [fifoStep] at hstep
  split at hstep
  · rename_i hpc
    rw [hpc] at hguest
    split at hstep
    · cases hstep
    · split at hstep
      · cases hstep
        exact ⟨stop, unread, hring, hpub, hpc ▸ hguest⟩
      · rename_i hn hrefused
        cases hstep
        simp only [fifoReserveRefused, Bool.or_eq_true, decide_eq_true_eq, not_or,
          not_lt] at hrefused
        refine ⟨stop, unread, hring.congr rfl rfl rfl rfl, hpub, hguest.2, rfl, ?_, ?_, ?_,
          rfl, fun i => rfl⟩ <;> omega
  · cases hstep

/-- One look at `STOP`. -/
theorem FifoInv.look {s t : FifoRun} (h : FifoInv s) (hstep : fifoStep s .look = some t) :
    FifoInv t := by
  obtain ⟨stop, unread, hring, hpub, hguest⟩ := h
  simp only [fifoStep] at hstep
  split at hstep
  · rename_i nextCmd bytes hpc
    rw [hpc] at hguest
    obtain ⟨hcom, rfl, hdvd, hpos, hle, hres, hwritten⟩ := hguest
    split at hstep
    · rename_i d hiter
      cases hstep
      obtain ⟨bounce, reserved, rfl, hne, hin, -⟩ := fifoReserveIter_eq_some hiter
      have hroom := hring.room_of_placement hdvd hne
      refine ⟨stop, unread, hring.congr rfl rfl rfl rfl, hpub, hcom, rfl, hdvd, hpos, hle,
        hres, hroom.1, fun hb => hroom.2 (hin hb), fun i _ v hv => ?_⟩
      exact absurd ((hwritten i).symm.trans hv) (by simp)
    · cases hstep
      exact ⟨stop, unread, hring, hpub, hpc ▸ ⟨hcom, rfl, hdvd, hpos, hle, hres, hwritten⟩⟩
  · cases hstep

/-- Filling a reserved word leaves the unread words alone. -/
theorem FifoInv.store {s t : FifoRun} {i : ℕ} {v : FifoWord} (h : FifoInv s)
    (hstep : fifoStep s (.store i v) = some t) : FifoInv t := by
  obtain ⟨stop, unread, hring, hpub, hguest⟩ := h
  simp only [fifoStep] at hstep
  split at hstep
  · rename_i nextCmd bytes hpc
    rw [hpc] at hguest
    obtain ⟨hcom, rfl, hdvd, hpos, hle, hres, hroom, hfit, hwritten⟩ := hguest
    split at hstep
    · rename_i hi
      cases hstep
      by_cases hb : s.dev.usingBounceBuffer = true
      · simp only [fillWord, hb, if_true] at hwritten ⊢
        refine FifoInv.intro hpc (hring.congr rfl rfl rfl rfl) hpub
          ⟨hcom, rfl, hdvd, hpos, hle, hres, hroom, ?_, fun k hk u hu => ?_⟩
        · rintro ⟨⟩
        · simp only [if_true] at hu ⊢
          by_cases hki : k = i
          · simp_all
          · rw [if_neg hki] at hu ⊢
            exact hwritten k hk u hu
      · have hcell : s.dev.fifoNextCmd / 4 + i =
            ringAdvance s.dev.ringLo s.dev.ringHi (s.dev.fifoNextCmd / 4) i := by
          have hfit := hfit (by simpa using hb)
          rw [ringAdvance_eq hring.next_mem (by omega), if_pos (by omega)]
        simp only [fillWord, hb, if_false, Bool.false_eq_true] at hwritten ⊢
        refine FifoInv.intro hpc (hring.congr rfl rfl rfl rfl) ?_
          ⟨hcom, rfl, hdvd, hpos, hle, hres, hroom, fun _ => hfit (by simpa using hb),
            fun k hk u hu => ?_⟩
        · -- the filled cell is free
          rw [hpub]
          congr 1
          refine (ringRead_congr fun j hj => ?_).symm
          refine if_neg ?_
          rw [hcell]
          exact hring.free_ne_unread hj (by omega)
        · simp only [if_false, Bool.false_eq_true] at hu ⊢
          by_cases hki : k = i
          · simp_all
          · rw [if_neg hki] at hu
            rw [if_neg (by omega)]
            exact hwritten k hk u hu
    · cases hstep
  · cases hstep

/-- Entering `FIFOCommit` copies a bounced command behind `NEXT_CMD`, or leaves it to
the word-by-word loop. -/
theorem FifoInv.enterCommit {s : FifoRun} {nextCmd bytes n : ℕ} (h : FifoInv s)
    (hpc : s.pc = .reserved nextCmd bytes)
    (hn : n = 0 ∨ n = bytes ∧ filled s.written bytes = true) :
    FifoInv (s.enterCommit n) := by
  obtain ⟨stop, unread, hring, hpub, hguest⟩ := h
  rw [hpc] at hguest
  obtain ⟨hcom, rfl, hdvd, hpos, hle, hres, hroom, hfit, hwritten⟩ := hguest
  have hn4 : 4 ∣ n := by rcases hn with rfl | ⟨rfl, -⟩ <;> omega
  have hnle : n ≤ bytes := by rcases hn with rfl | ⟨rfl, -⟩ <;> omega
  have hnroom : unread + n / 4 < s.dev.ringHi - s.dev.ringLo := by omega
  have hcontents : contents s.written n = (List.range (n / 4)).map fun i =>
      if s.dev.usingBounceBuffer then s.dev.bounceBuffer i
      else s.dev.fifo (s.dev.fifoNextCmd / 4 + i) := by
    rcases hn with rfl | ⟨rfl, hfull⟩
    · rfl
    · exact contents_eq_map hfull hwritten
  unfold FifoRun.enterCommit
  have hrefused : s.dev.fifoCommitRefused n = false := by
    simp only [fifoCommitRefused, Bool.or_eq_false_iff, decide_eq_false_iff_not, not_not]
    omega
  simp only [hrefused, Bool.false_eq_true, if_false]
  by_cases hb : s.dev.usingBounceBuffer = true
  · simp only [hb, if_true] at hcontents ⊢
    by_cases hr : s.dev.reservable = true
    · simp only [hr, if_true]
      refine ⟨stop, unread, hring.congr rfl rfl rfl rfl, ?_, rfl, hn4, rfl, by omega, hnroom, ?_⟩
      · rw [hpub]
        congr 1
        refine (ringRead_congr fun j hj => ?_).symm
        refine hring.copy_other hn4 hnroom fun i hi => ?_
        exact hring.free_ne_unread hj (by omega)
      · rw [hcom, hcontents, ringRead_eq_map]
        refine congrArg (s.published ++ ·) (List.map_congr_left fun i hi => ?_)
        exact (hring.copy_at hn4 hnroom (List.mem_range.mp hi)).symm
    · simp only [hr, if_false, Bool.false_eq_true]
      refine ⟨stop, unread, hring.congr rfl rfl rfl rfl, hpub, rfl, hn4, rfl, hnroom, ?_⟩
      rw [hcom, hcontents]
      simp
  · simp only [hb, if_false, Bool.false_eq_true] at hcontents ⊢
    have hfit := hfit (by simpa using hb)
    refine ⟨stop, unread, hring.congr rfl rfl rfl rfl, hpub, rfl, hn4, rfl, by omega, hnroom, ?_⟩
    rw [hcom, hcontents, map_add_eq_ringRead hring.next_mem (by omega)]
    rfl

/-- A commit of the first words of the reservation. -/
theorem FifoInv.commit {s t : FifoRun} {n : ℕ} (h : FifoInv s)
    (hstep : fifoStep s (.commit n) = some t) : FifoInv t := by
  simp only [fifoStep] at hstep
  split at hstep
  · rename_i nextCmd bytes hpc
    split at hstep
    · rename_i hn
      cases hstep
      exact h.enterCommit hpc hn
    · cases hstep
  · cases hstep

/-- A commit of the whole reservation. -/
theorem FifoInv.commitAll {s t : FifoRun} (h : FifoInv s)
    (hstep : fifoStep s .commitAll = some t) : FifoInv t := by
  simp only [fifoStep] at hstep
  split at hstep
  · rename_i nextCmd bytes hpc
    split at hstep
    · rename_i hfull
      cases hstep
      have hres : s.dev.reservedSize = bytes := by
        obtain ⟨stop, unread, -, -, hguest⟩ := h
        rw [hpc] at hguest
        exact hguest.2.2.2.2.2.1
      exact h.enterCommit hpc (.inr ⟨hres, hfull⟩)
    · cases hstep
  · cases hstep

/-- One turn of the word-by-word loop publishes one word. -/
theorem FifoInv.copyWord {s t : FifoRun} (h : FifoInv s)
    (hstep : fifoStep s .copyWord = some t) : FifoInv t := by
  obtain ⟨stop, unread, hring, hpub, hguest⟩ := h
  simp only [fifoStep] at hstep
  split at hstep
  · rename_i nextCmd left dword hpc
    rw [hpc] at hguest
    obtain ⟨rfl, hdvd, hres, hroom, hcom⟩ := hguest
    split at hstep
    · rename_i hleft
      cases hstep
      refine ⟨stop, unread, hring, hpub, hres, ?_⟩
      rw [hcom, hleft]
      simp
    · cases hstep
      have hnext : s.dev.nextWord s.dev.fifoNextCmd =
          4 * ringAdvance s.dev.ringLo s.dev.ringHi (s.dev.fifoNextCmd / 4) 1 := by
        conv_lhs => rw [hring.next_aligned]
        exact hring.nextWord_eq hring.next_mem
      obtain ⟨hnew, hstream⟩ := published_step
        (s.dev.fifoCommitWord s.dev.fifoNextCmd dword) (k := 1) hring hpub rfl rfl
        hnext (by omega) fun j hj => if_neg (hring.free_ne_unread (i := 0) hj (by omega))
      refine ⟨stop, unread + 1, hring.publish rfl rfl rfl hnext (by omega), hstream, rfl,
        by omega, hres, ?_, ?_⟩
      · simp only [fifoCommitWord, ringLo, ringHi] at *
        omega
      · obtain ⟨k, hk⟩ : ∃ k, left / 4 = k + 1 := ⟨left / 4 - 1, by omega⟩
        have hk' : (left - 4) / 4 = k := by omega
        show s.committed = _
        rw [hnew, hk', hcom, hk, List.range_succ_eq_map, List.append_assoc]
        simp [ringRead_succ, fifoCommitWord, Function.comp_def, Nat.add_right_comm,
          Nat.add_assoc]
  · cases hstep

/-- The last statements of `FIFOCommit` publish the command, unless the sum wraps. -/
theorem FifoInv.publish {s t : FifoRun} (h : FifoInv s) (hfits : CommitFits s .publish)
    (hstep : fifoStep s .publish = some t) : FifoInv t := by
  obtain ⟨stop, unread, hring, hpub, hguest⟩ := h
  simp only [fifoStep] at hstep
  split at hstep
  · rename_i nextCmd bytes hpc
    rw [hpc] at hguest
    simp only [CommitFits, hpc] at hfits
    obtain ⟨rfl, hdvd, hres, hle, hroom, hcom⟩ := hguest
    cases hstep
    have hnext := hring.nextCommand_eq hdvd hroom hfits
    obtain ⟨hnew, hstream⟩ := published_step
      (s.dev.fifoCommitPublish s.dev.fifoNextCmd bytes) hring hpub rfl rfl hnext hroom
      fun j hj => rfl
    exact ⟨stop, unread + bytes / 4, hring.publish rfl rfl rfl hnext hroom, hstream, hres,
      hcom.trans hnew.symm⟩
  · cases hstep

/-- The device takes the first unread word; the guest keeps its room. -/
theorem FifoInv.device {s t : FifoRun} (h : FifoInv s) (hstep : fifoStep s .device = some t) :
    FifoInv t := by
  obtain ⟨stop, unread, hring, hpub, hguest⟩ := h
  simp only [fifoStep] at hstep
  split at hstep
  · cases hstep
  · rename_i hne
    cases hstep
    obtain ⟨k, rfl⟩ : ∃ k, unread = k + 1 := by
      refine ⟨unread - 1, ?_⟩
      have := mt hring.next_eq_stop_iff.mpr (Ne.symm hne)
      omega
    have hstop : s.dev.nextWord s.dev.fifoStop =
        4 * ringNext s.dev.ringLo s.dev.ringHi stop := by
      rw [hring.stop_eq]
      exact hring.nextWord_eq hring.stop_mem
    obtain ⟨hmin, hmax, hlt, hmem, hstopEq, hun, hnext⟩ := hring
    rw [ringAdvance_succ] at hnext
    have hcell : s.dev.fifoStop / 4 = stop := by omega
    have hring' : RingInv { s.dev with fifoStop := s.dev.nextWord s.dev.fifoStop }
        (ringNext s.dev.ringLo s.dev.ringHi stop) k :=
      ⟨hmin, hmax, hlt, ringNext_mem hmem, hstop, Nat.lt_of_succ_lt hun, hnext⟩
    have hstream : s.published = (s.deviceRead ++ [s.dev.fifo (s.dev.fifoStop / 4)]) ++
        ringRead s.dev.fifo s.dev.ringLo s.dev.ringHi
          (ringNext s.dev.ringLo s.dev.ringHi stop) k := by
      rw [hpub, hcell, ringRead_succ, List.append_assoc, List.singleton_append]
    refine ⟨ringNext s.dev.ringLo s.dev.ringHi stop, k, hring', hstream, ?_⟩
    -- the guest keeps its room: fewer words are unread
    show GuestInv _ k s.pc
    cases hpc : s.pc with
    | idle => rw [hpc] at hguest; exact hguest
    | reserving nextCmd bytes => rw [hpc] at hguest; exact hguest
    | reserved nextCmd bytes =>
        rw [hpc] at hguest
        obtain ⟨hcom, hnc, hdvd, hpos, hle, hres, hroom, hrest⟩ := hguest
        have hroom' : k + bytes / 4 < s.dev.ringHi - s.dev.ringLo := by omega
        exact ⟨hcom, hnc, hdvd, hpos, hle, hres, hroom', hrest⟩
    | storing nextCmd left dword =>
        rw [hpc] at hguest
        obtain ⟨hnc, hdvd, hres, hroom, hcom⟩ := hguest
        have hroom' : k + left / 4 < s.dev.ringHi - s.dev.ringLo := by omega
        exact ⟨hnc, hdvd, hres, hroom', hcom⟩
    | publishing nextCmd bytes =>
        rw [hpc] at hguest
        obtain ⟨hnc, hdvd, hres, hle, hroom, hcom⟩ := hguest
        have hroom' : k + bytes / 4 < s.dev.ringHi - s.dev.ringLo := by omega
        exact ⟨hnc, hdvd, hres, hle, hroom', hcom⟩

/-- **Step lemma.** Every move whose publication does not wrap keeps the invariant. -/
theorem FifoInv.step (s : FifoRun) (a : FifoAction) (t : FifoRun) (h : FifoInv s)
    (hfits : CommitFits s a) (hstep : fifoStep s a = some t) : FifoInv t := by
  cases a with
  | reserve n => exact h.reserve hstep
  | look => exact h.look hstep
  | store i v => exact h.store hstep
  | commit n => exact h.commit hstep
  | commitAll => exact h.commitAll hstep
  | copyWord => exact h.copyWord hstep
  | publish => exact h.publish hfits hstep
  | device => exact h.device hstep

/-! ### The law -/

/-- What has been committed begins with what has been published. -/
theorem FifoInv.published_prefix {s : FifoRun} (h : FifoInv s) :
    s.published <+: s.committed := by
  obtain ⟨stop, unread, -, -, hguest⟩ := h
  cases hpc : s.pc with
  | idle => rw [hpc] at hguest; exact hguest.2 ▸ List.prefix_rfl
  | reserving nextCmd bytes => rw [hpc] at hguest; exact hguest.1 ▸ List.prefix_rfl
  | reserved nextCmd bytes => rw [hpc] at hguest; exact hguest.1 ▸ List.prefix_rfl
  | storing nextCmd left dword =>
      rw [hpc] at hguest
      exact hguest.2.2.2.2 ▸ List.prefix_append _ _
  | publishing nextCmd bytes =>
      rw [hpc] at hguest
      exact hguest.2.2.2.2.2 ▸ List.prefix_append _ _

/-- Outside a commit everything committed has been published. -/
theorem FifoInv.published_eq {s : FifoRun} (h : FifoInv s) (hpc : s.pc.committing = false) :
    s.published = s.committed := by
  obtain ⟨stop, unread, -, -, hguest⟩ := h
  cases hp : s.pc with
  | idle => rw [hp] at hguest; exact hguest.2.symm
  | reserving nextCmd bytes => rw [hp] at hguest; exact hguest.1.symm
  | reserved nextCmd bytes => rw [hp] at hguest; exact hguest.1.symm
  | storing nextCmd left dword => simp [hp, GuestPc.committing] at hpc
  | publishing nextCmd bytes => simp [hp, GuestPc.committing] at hpc

/-- The invariant gives the law. -/
theorem FifoInv.streamLaw {s : FifoRun} (h : FifoInv s) : StreamLaw s := by
  have hprefix := h.published_prefix
  have heq := h.published_eq
  obtain ⟨stop, unread, hring, hpub, -⟩ := h
  have hmem := hring.next_mem
  have hnext := hring.next_aligned
  obtain ⟨hmin, hmax, hlt, hsm, hstop, hun, -⟩ := id hring
  have hdrained : s.dev.fifoNextCmd = s.dev.fifoStop ↔ s.deviceRead = s.published := by
    rw [hring.next_eq_stop_iff, hpub, List.self_eq_append_right, ← List.length_eq_zero_iff,
      length_ringRead]
  refine ⟨?_, fun hpc hs => ?_, ?_, hdrained, ?_, ?_, ?_, ?_⟩
  · exact (hpub ▸ List.prefix_append _ _ : s.deviceRead <+: s.published).trans hprefix
  · exact (hdrained.mp hs.symm).trans (heq hpc)
  · rw [wordsBetween, ← hring.unread_eq, hring.stop_div]
    exact hpub
  all_goals omega

/-- **The stream law of the command FIFO**, for every run in which no sum of `NEXT_CMD`
and a command size wraps at a publication. -/
theorem fifo_stream_law {d : SVGADevice} (hsize : svgaFifoNumRegs * 4 < d.fifoSize)
    (haligned : 4 ∣ d.fifoSize) (hlt : d.fifoSize < 2 ^ 32) {as : List FifoAction}
    {s : FifoRun} (hrun : Run fifoStep CommitFits (fifoStart d) as s) : StreamLaw s :=
  (hrun.invariant FifoInv.step (FifoInv.start hsize haligned hlt)).streamLaw

/-- A device with a FIFO of one page, used to evaluate runs. -/
def onePageFifo : SVGADevice where
  fifoSize := 4096
  fifoMin := 0
  fifoMax := 0
  fifoNextCmd := 0
  fifoStop := 0
  fifoReserved := 0
  reservable := true
  fifo := fun _ => 0
  bounceBuffer := fun _ => 0
  usingBounceBuffer := false
  reservedSize := 0

/-- The law on a run of one command: the device has read exactly its word. -/
theorem fifo_stream_law_one_word :
    ∃ s, Run fifoStep CommitFits (fifoStart onePageFifo)
        [.reserve 4, .look, .store 0 7, .commit 4, .publish, .device] s ∧
      s.deviceRead = [7] ∧ StreamLaw s := by
  have hrun : Run fifoStep CommitFits (fifoStart onePageFifo)
      [.reserve 4, .look, .store 0 7, .commit 4, .publish, .device] _ :=
    Run.cons trivial rfl <| Run.cons trivial rfl <| Run.cons trivial rfl <|
      Run.cons trivial rfl <| Run.cons (by decide : (1164 : ℕ) + 4 < 2 ^ 32) rfl <|
        Run.cons trivial rfl <| Run.nil _
  exact ⟨_, hrun, rfl, fifo_stream_law (by decide) (by decide) (by decide) hrun⟩

/-- No move changes the bounds of the ring. -/
theorem fifoStep_fifoMax {s t : FifoRun} {a : FifoAction} (h : fifoStep s a = some t) :
    t.dev.fifoMax = s.dev.fifoMax := by
  cases a <;> simp only [fifoStep] at h
  case look =>
    split at h
    · split at h
      · rename_i d hiter
        obtain ⟨bounce, reserved, rfl, -⟩ := fifoReserveIter_eq_some hiter
        cases h
        rfl
      · cases h
        rfl
    · cases h
  all_goals
    (repeat' split at h) <;> cases h <;>
      simp only [FifoRun.enterCommit, fillWord, fifoCommitWord, fifoCommitPublish] <;>
      (repeat' split) <;> rfl

/-- In a FIFO of at most `2 ^ 32 - 2 ^ 16` bytes no publication wraps. -/
theorem FifoInv.commitFits {s : FifoRun} (h : FifoInv s)
    (hmax : s.dev.fifoMax ≤ 2 ^ 32 - 2 ^ 16) (a : FifoAction) : CommitFits s a := by
  obtain ⟨stop, unread, hring, -, hguest⟩ := h
  unfold CommitFits
  split
  · rename_i nextCmd bytes hpc
    rw [hpc] at hguest
    obtain ⟨rfl, -, -, hle, -⟩ := hguest
    have hmem := hring.next_mem
    have hnext := hring.next_aligned
    have hmaxw := hring.maxAligned
    simp only [bounceBufferSize] at hle
    omega
  · trivial

/-- **The stream law** for every run of a FIFO that leaves `2 ^ 16` bytes of the 32-bit
range free. -/
theorem fifo_stream_law_of_small {d : SVGADevice} (hsize : svgaFifoNumRegs * 4 < d.fifoSize)
    (haligned : 4 ∣ d.fifoSize) (hsmall : d.fifoSize ≤ 2 ^ 32 - 2 ^ 16)
    {as : List FifoAction} {s : FifoRun} (hrun : Run fifoStep Always (fifoStart d) as s) :
    StreamLaw s := by
  have hI : FifoInv s ∧ s.dev.fifoMax ≤ 2 ^ 32 - 2 ^ 16 := by
    refine hrun.invariant (I := fun s => FifoInv s ∧ s.dev.fifoMax ≤ 2 ^ 32 - 2 ^ 16)
      (fun s a t h _ hstep => ?_) ⟨FifoInv.start hsize haligned (by omega), hsmall⟩
    exact ⟨h.1.step s a t (h.1.commitFits h.2 a) hstep, fifoStep_fifoMax hstep ▸ h.2⟩
  exact hI.1.streamLaw

/-! ### Undisturbed calls -/

/-- The word-by-word loop, undisturbed. -/
theorem copyWord_run (n : ℕ) {s : FifoRun} {nextCmd dword : ℕ}
    (hpc : s.pc = .storing nextCmd (4 * n) dword) :
    ∃ as t, Run fifoStep Always s as t ∧ t.pc = .idle ∧
      t.dev = s.dev.fifoCommitWords nextCmd dword n := by
  induction n generalizing s nextCmd dword with
  | zero =>
      refine ⟨[.copyWord], { s with pc := .idle }, Run.single trivial ?_, rfl, rfl⟩
      simp only [fifoStep, hpc]
      rfl
  | succ n ih =>
      set d := s.dev.fifoCommitWord nextCmd dword with hd
      set t : FifoRun := { s with
        dev := d
        pc := .storing (s.dev.nextWord nextCmd) (4 * n) (dword + 1)
        published := s.published ++ d.wordsBetween s.dev.fifoNextCmd d.fifoNextCmd } with ht
      have hstep : fifoStep s .copyWord = some t := by
        simp only [fifoStep, hpc]
        rw [if_neg (by omega)]
        rfl
      obtain ⟨as, u, hrun, hidle, hdev⟩ := ih (s := t) rfl
      exact ⟨.copyWord :: as, u, Run.cons trivial hstep hrun, hidle, hdev⟩

/-- The moves of an undisturbed `FIFOCommit` compose to the whole function. -/
theorem fifoCommit_run {s : FifoRun} {nextCmd bytes n : ℕ}
    (hpc : s.pc = .reserved nextCmd bytes)
    (hn : n = 0 ∨ n = bytes ∧ filled s.written bytes = true) :
    ∃ as t, Run fifoStep Always s (.commit n :: as) t ∧ t.pc = .idle ∧
      t.dev = s.dev.fifoCommit n := by
  have hstep : fifoStep s (.commit n) = some (s.enterCommit n) := by
    simp only [fifoStep, hpc]
    exact if_pos hn
  suffices h : ∃ as t, Run fifoStep Always (s.enterCommit n) as t ∧ t.pc = .idle ∧
      t.dev = s.dev.fifoCommit n by
    obtain ⟨as, t, hrun, hidle, hdev⟩ := h
    exact ⟨as, t, Run.cons trivial hstep hrun, hidle, hdev⟩
  unfold FifoRun.enterCommit fifoCommit
  by_cases hrefused : s.dev.fifoCommitRefused n = true
  · simp only [hrefused, if_true]
    exact ⟨[], _, Run.nil _, rfl, rfl⟩
  · simp only [hrefused, if_false, Bool.false_eq_true]
    have h4 : 4 * (n / 4) = n := by
      simp only [fifoCommitRefused, Bool.or_eq_true, decide_eq_true_eq, not_or, not_not]
        at hrefused
      omega
    by_cases hb : s.dev.usingBounceBuffer = true
    · by_cases hr : s.dev.reservable = true
      · simp only [hb, hr, if_true]
        exact ⟨[.publish], _, Run.single trivial rfl, rfl, rfl⟩
      · simp only [hb, hr, if_true, if_false, Bool.false_eq_true]
        exact copyWord_run (n / 4) (by simp only [h4])
    · simp only [hb, if_false, Bool.false_eq_true]
      exact ⟨[.publish], _, Run.single trivial rfl, rfl, rfl⟩

/-! ### A FIFO that ends just below `2 ^ 32`

Without `CommitFits` the law fails. On a device with `CAP_RESERVE` whose FIFO ends at
`2 ^ 32 - 4`, commands of 64 KiB bring `NEXT_CMD` to the last bounced command, whose
publication wraps to an offset below `MIN`. -/

/-- The FIFO of `2 ^ 32 - 4` bytes. -/
def hugeFifo : SVGADevice := { onePageFifo with fifoSize := 2 ^ 32 - 4 }

/-- Between commands, with nothing unread and both pointers at byte `x`. -/
structure Parked (s : FifoRun) (x : ℕ) : Prop where
  pc : s.pc = .idle
  reservable : s.dev.reservable = true
  min : s.dev.fifoMin = 1164
  max : s.dev.fifoMax = 2 ^ 32 - 4
  next : s.dev.fifoNextCmd = x
  stop : s.dev.fifoStop = x
  reservedSize : s.dev.reservedSize = 0

/-- Filling the first `k` words of a reservation changes only buffers. -/
theorem fill_run {s : FifoRun} {nextCmd bytes : ℕ} (hpc : s.pc = .reserved nextCmd bytes)
    (k : ℕ) (hk : k ≤ bytes / 4) :
    ∃ as f b w, Run fifoStep Always s as
        { s with dev := { s.dev with fifo := f, bounceBuffer := b }, written := w } ∧
      ∀ i < k, (w i).isSome = true := by
  induction k with
  | zero => exact ⟨[], s.dev.fifo, s.dev.bounceBuffer, s.written, Run.nil _, by simp⟩
  | succ k ih =>
      obtain ⟨as, f, b, w, hrun, hw⟩ := ih (by omega)
      set t : FifoRun :=
        { s with dev := { s.dev with fifo := f, bounceBuffer := b }, written := w } with ht
      obtain ⟨f', b', hfill⟩ : ∃ f' b', t.dev.fillWord nextCmd k 0 =
          { s.dev with fifo := f', bounceBuffer := b' } := by
        unfold fillWord
        split
        · exact ⟨_, _, rfl⟩
        · exact ⟨_, _, rfl⟩
      have hstep : fifoStep t (.store k 0) = some
          { s with
            dev := { s.dev with fifo := f', bounceBuffer := b' }
            written := fun i => if i = k then some 0 else w i } := by
        simp only [fifoStep, show t.pc = .reserved nextCmd bytes from hpc]
        rw [if_pos (by omega), hfill, ← hpc]
      refine ⟨as ++ [.store k 0], f', b', _, hrun.append (Run.single trivial hstep), ?_⟩
      intro i hi
      by_cases hik : i = k
      · simp [hik]
      · simp only [hik, if_false]
        exact hw i (by omega)

/-- A device that catches up over `n` words in front of it. -/
theorem drain_run (n : ℕ) {s : FifoRun} {x : ℕ} (hstop : s.dev.fifoStop = x)
    (hnext : s.dev.fifoNextCmd = x + 4 * n) (hmax : x + 4 * n < s.dev.fifoMax)
    (hlt : s.dev.fifoMax < 2 ^ 32) :
    ∃ as r, Run fifoStep Always s as
      { s with dev := { s.dev with fifoStop := x + 4 * n }, deviceRead := r } := by
  induction n generalizing s x with
  | zero =>
      have hs : s = { s with dev := { s.dev with fifoStop := x + 4 * 0 } } := by
        simp [← hstop]
      exact ⟨[], s.deviceRead, hs ▸ Run.nil s⟩
  | succ n ih =>
      set t : FifoRun := { s with
        dev := { s.dev with fifoStop := x + 4 }
        deviceRead := s.deviceRead ++ [s.dev.fifo (s.dev.fifoStop / 4)] } with ht
      have hword : s.dev.nextWord s.dev.fifoStop = x + 4 := by
        unfold nextWord
        rw [hstop, add32_of_lt (by omega), if_neg (by omega)]
      have hstep : fifoStep s .device = some t := by
        simp only [fifoStep]
        rw [if_neg (by omega), hword]
      obtain ⟨as, r, hrun⟩ := ih (s := t) (x := x + 4) rfl
        (show s.dev.fifoNextCmd = _ by omega) (show _ < s.dev.fifoMax by omega) hlt
      rw [show x + 4 + 4 * n = x + 4 * (n + 1) by omega] at hrun
      exact ⟨.device :: as, r, Run.cons trivial hstep hrun⟩

/-- Reserving, filling and committing one command of `n` bytes, up to its publication. -/
theorem Parked.command_run {s : FifoRun} {x n : ℕ} (h : Parked s x) (hn : 0 < n)
    (hle : n ≤ bounceBufferSize) (hdvd : n % 4 = 0)
    (hplace : placement 1164 (2 ^ 32 - 4) x x n ≠ .full) :
    ∃ as t, Run fifoStep Always s as t ∧ t.pc = .publishing x n ∧
      t.dev.reservable = true ∧ t.dev.fifoMin = 1164 ∧ t.dev.fifoMax = 2 ^ 32 - 4 ∧
      t.dev.fifoNextCmd = x ∧ t.dev.fifoStop = x ∧ t.dev.reservedSize = 0 := by
  obtain ⟨hpc, hres, hmin, hmax, rfl, hstop, hsize⟩ := h
  set x := s.dev.fifoNextCmd with hnext
  set s₁ : FifoRun := { s with
    dev := { s.dev with reservedSize := n }
    pc := .reserving x n
    written := fun _ => none } with hs₁
  have hreserve : fifoStep s (.reserve n) = some s₁ := by
    have hrefused : s.dev.fifoReserveRefused n = false := by
      simp only [fifoReserveRefused, hmin, hmax, hsize, Bool.or_eq_false_iff,
        decide_eq_false_iff_not, show sub32 (2 ^ 32 - 4) 1164 = 4294966128 from rfl]
      simp only [bounceBufferSize] at hle ⊢
      omega
    simp only [fifoStep, hpc]
    rw [if_neg (by omega), hrefused]
    rfl
  obtain ⟨b, r, hlook⟩ : ∃ b r, fifoStep s₁ .look = some { s₁ with
      dev := { s₁.dev with usingBounceBuffer := b, fifoReserved := r }
      pc := .reserved x n } := by
    have hplace₁ : placement s₁.dev.fifoMin s₁.dev.fifoMax x s₁.dev.fifoStop n ≠ .full := by
      simpa only [hs₁, hmin, hmax, hstop] using hplace
    cases hiter : s₁.dev.fifoReserveIter x n with
    | none =>
        exfalso
        unfold fifoReserveIter at hiter
        cases hp : placement s₁.dev.fifoMin s₁.dev.fifoMax x s₁.dev.fifoStop n with
        | full => exact hplace₁ hp
        | inPlace => simp [hp, show s₁.dev.reservable = true from hres] at hiter
        | bounce => simp [hp] at hiter
    | some d =>
        obtain ⟨b, r, rfl, -⟩ := fifoReserveIter_eq_some hiter
        refine ⟨b, r, ?_⟩
        simp only [fifoStep, hs₁] at hiter ⊢
        rw [hiter]
  set s₂ : FifoRun := { s₁ with
    dev := { s₁.dev with usingBounceBuffer := b, fifoReserved := r }
    pc := .reserved x n } with hs₂
  obtain ⟨as, f, bb, w, hfill, hw⟩ := fill_run (s := s₂) rfl (n / 4) le_rfl
  set s₃ : FifoRun :=
    { s₂ with dev := { s₂.dev with fifo := f, bounceBuffer := bb }, written := w } with hs₃
  have hcommit : fifoStep s₃ (.commit n) = some (s₃.enterCommit n) := by
    have hfull : filled w n = true :=
      List.all_eq_true.mpr fun i hi => hw i (List.mem_range.mp hi)
    exact if_pos (.inr ⟨rfl, hfull⟩)
  refine ⟨.reserve n :: .look :: (as ++ [.commit n]), s₃.enterCommit n,
    Run.cons trivial hreserve (Run.cons trivial hlook
      (hfill.append (Run.single trivial hcommit))), ?_⟩
  have hrefused : s₃.dev.fifoCommitRefused n = false := by
    simp only [fifoCommitRefused, hs₃, hs₂, hs₁, Bool.or_eq_false_iff,
      decide_eq_false_iff_not]
    omega
  unfold FifoRun.enterCommit
  simp only [hrefused, Bool.false_eq_true, if_false]
  have hres₃ : s₃.dev.reservable = true := hres
  simp only [hres₃, if_true]
  split
  · exact ⟨rfl, rfl, hmin, hmax, rfl, hstop, rfl⟩
  · exact ⟨rfl, rfl, hmin, hmax, rfl, hstop, rfl⟩

/-- The last statements of `FIFOCommit`, as a move. -/
theorem publish_run {t : FifoRun} {x n : ℕ} (hpc : t.pc = .publishing x n) :
    ∃ u, fifoStep t .publish = some u ∧ u.pc = .idle ∧
      u.dev = t.dev.fifoCommitPublish x n := by
  set d := t.dev.fifoCommitPublish x n with hd
  refine ⟨{ t with
    dev := d
    pc := .idle
    published := t.published ++ d.wordsBetween t.dev.fifoNextCmd d.fifoNextCmd }, ?_, rfl, rfl⟩
  simp only [fifoStep, hpc]
  rfl

/-- A command in place, published and read, moves both pointers past it. -/
theorem Parked.cycle {s : FifoRun} {x n : ℕ} (h : Parked s x) (hn : 0 < n)
    (hle : n ≤ bounceBufferSize) (hdvd : n % 4 = 0) (hfit : x + n < 2 ^ 32 - 4) :
    ∃ as t, Run fifoStep Always s as t ∧ Parked t (x + n) := by
  have hplace : placement 1164 (2 ^ 32 - 4) x x n ≠ .full := by
    unfold placement
    rw [if_pos (le_refl x), if_pos (.inl hfit)]
    decide
  obtain ⟨as, t, hrun, hpc, hres, hmin, hmax, hnext, hstop, hsize⟩ :=
    h.command_run hn hle hdvd hplace
  have hnc : t.dev.nextCommand x n = x + n := by
    unfold nextCommand
    rw [hmax, add32_of_lt (by omega)]
    exact if_neg (by omega)
  obtain ⟨u, hpub, hidle, hdev⟩ := publish_run hpc
  obtain ⟨bs, r, hdrain⟩ := drain_run (n / 4) (s := u) (x := x)
    (by rw [hdev]; exact hstop) (by rw [hdev]; show t.dev.nextCommand x n = _; omega)
    (by rw [hdev]; show _ < t.dev.fifoMax; omega) (by rw [hdev]; show t.dev.fifoMax < _; omega)
  refine ⟨as ++ .publish :: bs, _, hrun.append (Run.cons trivial hpub hdrain), ?_⟩
  refine ⟨hidle, ?_, ?_, ?_, ?_, ?_, ?_⟩ <;> simp only [hdev, fifoCommitPublish]
  · exact hres
  · exact hmin
  · exact hmax
  · exact hnc
  · omega
  · exact hsize

/-- `k` commands of 64 KiB. -/
theorem parked_reach (k : ℕ) (hk : k ≤ 65535) :
    ∃ as s, Run fifoStep Always (fifoStart hugeFifo) as s ∧ Parked s (1164 + k * 65536) := by
  induction k with
  | zero => exact ⟨[], _, Run.nil _, rfl, rfl, rfl, rfl, rfl, rfl, rfl⟩
  | succ k ih =>
      obtain ⟨as, s, hrun, hparked⟩ := ih (by omega)
      obtain ⟨bs, t, hcycle, hparked'⟩ :=
        hparked.cycle (n := 65536) (by omega) (by decide) (by decide) (by omega)
      refine ⟨as ++ bs, t, hrun.append hcycle, ?_⟩
      rwa [show 1164 + (k + 1) * 65536 = 1164 + k * 65536 + 65536 by omega]

/-- A run from `FIFOInit` after which `NEXT_CMD` lies below `MIN`. -/
theorem fifo_stream_law_fails :
    svgaFifoNumRegs * 4 < hugeFifo.fifoSize ∧ 4 ∣ hugeFifo.fifoSize ∧
      hugeFifo.fifoSize < 2 ^ 32 ∧
      ∃ as s, Run fifoStep Always (fifoStart hugeFifo) as s ∧
        s.dev.fifoMin = 1164 ∧ s.dev.fifoNextCmd = 1160 ∧ ¬ StreamLaw s := by
  refine ⟨by decide, by decide, by decide, ?_⟩
  obtain ⟨as, s, hrun, hparked⟩ := parked_reach 65535 le_rfl
  obtain ⟨bs, t, hrun', hpc, hres, hmin, hmax, hnext, hstop, hsize⟩ :=
    hparked.command_run (n := 65532) (by omega) (by decide) (by decide) (by decide)
  have hnc : t.dev.nextCommand (1164 + 65535 * 65536) 65532 = 1160 := by
    simp only [nextCommand, hmax, hmin]
    decide
  obtain ⟨u, hpub, -, hdev⟩ := publish_run hpc
  have hmin' : u.dev.fifoMin = 1164 := by rw [hdev]; exact hmin
  have hnext' : u.dev.fifoNextCmd = 1160 := by rw [hdev]; exact hnc
  refine ⟨as ++ (bs ++ [.publish]), u,
    hrun.append (hrun'.append (Run.single trivial hpub)), hmin', hnext', fun hlaw => ?_⟩
  have := hlaw.nextInside.1
  omega

end DockerMacos
