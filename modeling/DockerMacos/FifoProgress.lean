import DockerMacos.CommandFifo

/-!
# When a Reservation Comes to an End

`FIFOReserve` (`FB/SVGADevice.cpp`) looks at `STOP` until there is room for the command. One word
of the ring is always free, so a command that is as long as the ring never fits; the check before
the loop lets it through, and the loop goes on for ever, however far the device gets.

## The device

The device is given by the values of `STOP` that it shows: they stay in the ring, the words that
are left to it become fewer, and in the end there are none (`Consumes`). Nothing is said about
how many looks that takes. A reservation ends for such a device if some number of looks is
enough.

## Main definitions

* `InRing`: a geometry of the FIFO with `NEXT_CMD` in it.
* `backlog`: what is published and not consumed.

## Main results

* `reserveLoop_isSome_iff`: the loop ends at the first look that finds room.
* `fifoReserve_terminates_iff`: it ends for every such device just when the command is shorter
  than the ring.
-/

namespace DockerMacos

/-- A geometry of the FIFO with `NEXT_CMD` in it. -/
structure SVGADevice.InRing (d : SVGADevice) : Prop where
  min_lt : d.fifoMin < d.fifoMax
  max_lt : d.fifoMax < 2 ^ 32
  next_ge : d.fifoMin ≤ d.fifoNextCmd
  next_lt : d.fifoNextCmd < d.fifoMax

/-- The bytes that are published and not consumed when `STOP` is here. -/
def SVGADevice.backlog (d : SVGADevice) (stop : ℕ) : ℕ :=
  ringDist d.fifoMin d.fifoMax stop d.fifoNextCmd

/-- The device consumes what is published: the values of `STOP` that are looked at one after the
other come closer to `NEXT_CMD`, and one of them is there. -/
structure Consumes (d : SVGADevice) (stops : ℕ → ℕ) : Prop where
  ge : ∀ k, d.fifoMin ≤ stops k
  lt : ∀ k, stops k < d.fifoMax
  first : d.backlog (stops 0) ≤ d.backlog d.fifoStop
  closer : ∀ k, d.backlog (stops (k + 1)) ≤ d.backlog (stops k)
  reaches : ∃ n, stops n = d.fifoNextCmd

/-- The first `n` looks at `STOP`. -/
def firstLooks (stops : ℕ → ℕ) (n : ℕ) : List StopRead :=
  (List.range n).map fun k => .offset (stops k)

/-- An iteration ends the loop if its look finds room. -/
theorem SVGADevice.fifoReserveIter_isSome_iff (d : SVGADevice) (nextCmd bytes : ℕ) :
    (d.fifoReserveIter nextCmd bytes).isSome = true ↔
      SVGADevice.placement d.fifoMin d.fifoMax nextCmd d.fifoStop bytes ≠ .full := by
  rw [fifoReserveIter]
  split
  · rename_i hplace
    rw [hplace]
    split_ifs <;> exact iff_of_true rfl (by decide)
  · rename_i hplace
    rw [hplace]
    exact iff_of_true rfl (by decide)
  · rename_i hplace
    rw [hplace]
    exact iff_of_false (by decide) (by decide)

/-- **The loop of `FIFOReserve`** ends within the given looks if and only if one of them finds
room. -/
theorem reserveLoop_isSome_iff (d : SVGADevice) (nextCmd bytes : ℕ) (looks : List StopRead) :
    (reserveLoop d nextCmd bytes looks).isSome = true ↔ ∃ look ∈ looks,
      SVGADevice.placement d.fifoMin d.fifoMax nextCmd (look.value d.fifoNextCmd) bytes ≠
        .full := by
  induction looks generalizing d with
  | nil => exact iff_of_false (by rintro ⟨⟩) (by rintro ⟨look, hlook, -⟩; cases hlook)
  | cons look looks ih =>
      have hiter := SVGADevice.fifoReserveIter_isSome_iff
        { d with fifoStop := look.value d.fifoNextCmd } nextCmd bytes
      rw [List.exists_mem_cons_iff]
      simp only [reserveLoop]
      split
      · rename_i hsome
        rw [hsome] at hiter
        exact iff_of_true rfl (.inl (hiter.mp rfl))
      · rename_i hnone
        rw [hnone] at hiter
        rw [ih]
        exact (or_iff_right fun hroom => Bool.false_ne_true (hiter.mpr hroom)).symm

namespace SVGADevice.InRing

variable {d : SVGADevice} {bytes stop : ℕ}

/-- A device that has caught up leaves room for every command that is shorter than the ring. -/
theorem placement_next (h : d.InRing) (hbytes : bytes < d.fifoMax - d.fifoMin) :
    placement d.fifoMin d.fifoMax d.fifoNextCmd d.fifoNextCmd bytes ≠ .full := by
  obtain ⟨hmin, hmax, hge, hlt⟩ := h
  rw [placement, if_pos le_rfl, sub32_of_le hlt.le hmax, sub32_of_le hge (by omega),
    add32_of_lt (by omega)]
  split
  · rintro ⟨⟩
  rw [if_neg (by omega)]
  rintro ⟨⟩

/-- A command that is as long as the ring never fits. -/
theorem placement_full (h : d.InRing) (hge : d.fifoMin ≤ stop) (hlt : stop < d.fifoMax) :
    placement d.fifoMin d.fifoMax d.fifoNextCmd stop (d.fifoMax - d.fifoMin) = .full := by
  obtain ⟨hmin, hmax, hnext, hnextlt⟩ := h
  rw [placement]
  split
  · rename_i hbehind
    rw [if_neg (by omega), if_pos]
    rw [sub32_of_le hnextlt.le hmax, sub32_of_le hge (by omega), add32_of_lt (by omega)]
    omega
  · rw [if_neg (by omega)]

/-- The device that has caught up all the time. -/
theorem consumes_next (h : d.InRing) : Consumes d fun _ => d.fifoNextCmd := by
  have hzero : d.backlog d.fifoNextCmd = 0 := by
    rw [backlog, ringDist, if_pos le_rfl, Nat.sub_self]
  refine ⟨fun _ => h.next_ge, fun _ => h.next_lt, ?_, fun _ => le_rfl, 0, rfl⟩
  rw [hzero]
  exact Nat.zero_le _

/-- The limits of an accepted reservation. -/
theorem accepted_le (h : d.InRing) (haccepted : d.fifoReserveRefused bytes = false) :
    bytes ≤ d.fifoMax - d.fifoMin := by
  simp only [fifoReserveRefused, Bool.or_eq_false_iff, decide_eq_false_iff_not, not_lt,
    gt_iff_lt] at haccepted
  rw [sub32_of_le h.min_lt.le h.max_lt] at haccepted
  exact haccepted.1.1.2

end SVGADevice.InRing

/-- An accepted command as long as the ring is never granted room, wherever in the ring the
device is seen. -/
theorem fifoReserve_never {c : CommandFifo} (hring : c.dev.InRing)
    (haccepted : c.dev.fifoReserveRefused (c.dev.fifoMax - c.dev.fifoMin) = false)
    (hlooks : ∀ look ∈ c.looks, c.dev.fifoMin ≤ look.value c.dev.fifoNextCmd ∧
      look.value c.dev.fifoNextCmd < c.dev.fifoMax) :
    (fifoReserve (c.dev.fifoMax - c.dev.fifoMin)).run c = none := by
  rcases fifoReserve_cases c (c.dev.fifoMax - c.dev.fifoMin) with ⟨hrefused, -⟩ | ⟨-, heq⟩
  · rw [haccepted] at hrefused
    cases hrefused
  · rw [heq, Option.map_eq_none_iff, ← Option.not_isSome_iff_eq_none, reserveLoop_isSome_iff]
    rintro ⟨look, hlook, hroom⟩
    obtain ⟨hge, hlt⟩ := hlooks look hlook
    exact hroom (hring.placement_full hge hlt)

/-- Nor is it by a device that consumes what is published. -/
theorem fifoReserve_hangs {c : CommandFifo} (hring : c.dev.InRing)
    (haccepted : c.dev.fifoReserveRefused (c.dev.fifoMax - c.dev.fifoMin) = false)
    {stops : ℕ → ℕ} (hstops : Consumes c.dev stops) (n : ℕ) :
    (fifoReserve (c.dev.fifoMax - c.dev.fifoMin)).run { c with looks := firstLooks stops n } =
      none := by
  refine fifoReserve_never (c := { c with looks := firstLooks stops n }) hring haccepted
    fun look hlook => ?_
  obtain ⟨k, -, rfl⟩ := List.mem_map.mp hlook
  exact ⟨hstops.ge k, hstops.lt k⟩

/-- **`FIFOReserve` terminates** with a reservation, whatever a device shows that consumes what
is published, if and only if the accepted command is shorter than the ring. -/
theorem fifoReserve_terminates_iff {c : CommandFifo} (hring : c.dev.InRing) {bytes : ℕ}
    (haccepted : c.dev.fifoReserveRefused bytes = false) :
    (∀ stops, Consumes c.dev stops → ∃ n c',
      (fifoReserve bytes).run { c with looks := firstLooks stops n } = some (true, c') ∧
        c'.dev.reservedSize = bytes) ↔ bytes < c.dev.fifoMax - c.dev.fifoMin := by
  constructor
  · intro hends
    rcases (hring.accepted_le haccepted).lt_or_eq with hless | rfl
    · exact hless
    · obtain ⟨n, c', hrun, -⟩ := hends _ hring.consumes_next
      rw [fifoReserve_hangs hring haccepted hring.consumes_next n] at hrun
      cases hrun
  · intro hless stops hstops
    obtain ⟨n, hn⟩ := hstops.reaches
    rcases fifoReserve_cases { c with looks := firstLooks stops (n + 1) } bytes
      with ⟨hrefused, -⟩ | ⟨-, heq⟩
    · rw [haccepted] at hrefused
      cases hrefused
    have hsome : (reserveLoop { c.dev with reservedSize := bytes } c.dev.fifoNextCmd bytes
        (firstLooks stops (n + 1))).isSome = true := by
      rw [reserveLoop_isSome_iff]
      refine ⟨.offset (stops n), List.mem_map.mpr ⟨n, List.mem_range.mpr n.lt_succ_self, rfl⟩, ?_⟩
      rw [StopRead.value, hn]
      exact hring.placement_next hless
    obtain ⟨⟨d, looks⟩, hloop⟩ := Option.isSome_iff_exists.mp hsome
    obtain ⟨stop, bounce, reserved, rfl, -⟩ := reserveLoop_eq_some hloop
    rw [hloop] at heq
    exact ⟨n + 1, _, heq, rfl⟩

/-- A FIFO with a ring of four words. -/
def fourWordFifo : CommandFifo := exampleFifo (4 * svgaFifoNumRegs + 16)

/-- The four words are a ring. -/
theorem fourWordFifo_inRing : fourWordFifo.dev.InRing :=
  ⟨by decide, by decide, by decide, by decide⟩

/-- A command of three words is granted room. -/
theorem fifoReserve_terminates_three : ∃ n c',
    (fifoReserve 12).run { fourWordFifo with
      looks := firstLooks (fun _ => fourWordFifo.dev.fifoNextCmd) n } = some (true, c') ∧
    c'.dev.reservedSize = 12 :=
  (fifoReserve_terminates_iff fourWordFifo_inRing (by decide)).mpr (by decide) _
    fourWordFifo_inRing.consumes_next

/-- A command of four words passes the checks, and waits for ever for a device that has consumed
everything. -/
theorem fifoReserve_four_hangs : ∃ stops,
    fourWordFifo.dev.fifoReserveRefused 16 = false ∧ Consumes fourWordFifo.dev stops ∧
    ∀ n, (fifoReserve 16).run { fourWordFifo with looks := firstLooks stops n } = none :=
  ⟨_, by decide, fourWordFifo_inRing.consumes_next,
    fifoReserve_hangs fourWordFifo_inRing (by decide) fourWordFifo_inRing.consumes_next⟩

end DockerMacos
