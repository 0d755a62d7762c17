import Mathlib.Data.List.TakeWhile
import DockerMacos.EmittedCommands
import DockerMacos.PhysicalMemory

/-!
# The Commands of `createGMR2`

`createGMR2` of the accelerator (`AC/VMsvga2Accel.cpp`) allocates a list for the pages of the
length of its memory, and fills it segment by segment. It then sends a define-GMR2 and a
remap-GMR2 command, and looks only at the result of the first.

## The page list

The loop writes a word for every page that a segment touches, whereas the list is allocated for
the length of the memory: segments that do not begin or end at a page take more. It stops at a
segment that starts where page frame numbers have more than 32 bits (`inReach`), and then the
call fails. `fillPageList` gives the words that the loop stores, however many there are.

## The commands

A command that the FIFO refuses leaves the ring as it was. The define-GMR2 command has a fixed
size; that of the remap-GMR2 command has the page list behind it, and may not fit.

## Main results

* `emit_run`: the two ways of a command with a header of one word.
* `createGMR2Memory_cases`: the ways through `createGMR2`.
* `createGMR2_sound_iff`: when success means both commands, and the list is not overrun.
-/

namespace DockerMacos

/-! ### Commands, one after the other -/

/-- What a command leaves of the device, apart from the contents of the FIFO. -/
structure SameRing (d d' : SVGADevice) : Prop where
  fifoMin : d'.fifoMin = d.fifoMin
  fifoMax : d'.fifoMax = d.fifoMax

/-- A device with the same ring refuses the same sizes, when neither has a reservation open. -/
theorem SameRing.refused_eq {d d' : SVGADevice} (h : SameRing d d') (hd : d.reservedSize = 0)
    (hd' : d'.reservedSize = 0) (bytes : ℕ) :
    d'.fifoReserveRefused bytes = d.fifoReserveRefused bytes := by
  rw [SVGADevice.fifoReserveRefused, SVGADevice.fifoReserveRefused, h.fifoMin, h.fifoMax, hd, hd']

/-- A reservation that is accepted has whole words, and no other is open. -/
theorem reserved_of_accepted {d : SVGADevice} {bytes : ℕ}
    (h : d.fifoReserveRefused bytes = false) : d.reservedSize = 0 ∧ bytes % 4 = 0 := by
  simp only [SVGADevice.fifoReserveRefused, Bool.or_eq_false_iff, decide_eq_false_iff_not,
    not_not, ne_eq] at h
  exact ⟨h.2, h.1.2⟩

/-- A reservation leaves the bounds of the ring. -/
theorem fifoReserve_sameRing {c u : CommandFifo} {bytes : ℕ} {ok : Bool}
    (hrun : (fifoReserve bytes).run c = some (ok, u)) : SameRing c.dev u.dev := by
  rcases fifoReserve_cases c bytes with ⟨-, heq⟩ | ⟨-, heq⟩
  · cases heq.symm.trans hrun
    exact ⟨rfl, rfl⟩
  · rw [heq, Option.map_eq_some_iff] at hrun
    obtain ⟨⟨d, looks⟩, hloop, hrun⟩ := hrun
    cases hrun
    obtain ⟨stop, bounce, reserved, rfl, -⟩ := reserveLoop_eq_some hloop
    exact ⟨rfl, rfl⟩

/-- So does storing words. -/
theorem storeWords_sameRing (c : CommandFifo) (i : ℕ) (ws : List FifoWord) :
    SameRing c.dev (c.storeWords i ws).dev := by
  obtain ⟨fifo, bounceBuffer, written, heq⟩ := storeWords_eq c i ws
  rw [heq]
  exact ⟨rfl, rfl⟩

/-- So does a commit, which closes the reservation. -/
theorem fifoCommit_sameRing {d : SVGADevice} (hreserved : d.reservedSize ≠ 0)
    (haligned : d.reservedSize % 4 = 0) :
    SameRing d (d.fifoCommit d.reservedSize) ∧ (d.fifoCommit d.reservedSize).reservedSize = 0 := by
  rcases SVGADevice.fifoCommit_cases hreserved haligned with
    ⟨-, fifo, reserved, heq⟩ | ⟨-, -, heq⟩
  · rw [heq]
    exact ⟨⟨rfl, rfl⟩, rfl⟩
  · obtain ⟨fifo, next, -, hwords⟩ := SVGADevice.fifoCommitWords_eq { d with reservedSize := 0 }
      d.fifoNextCmd 0 (d.reservedSize / 4)
    rw [heq, hwords]
    exact ⟨⟨rfl, rfl⟩, rfl⟩

/-- Two steps on the same ring. -/
theorem SameRing.trans {d₁ d₂ d₃ : SVGADevice} (h₁ : SameRing d₁ d₂) (h₂ : SameRing d₂ d₃) :
    SameRing d₁ d₃ := ⟨h₂.fifoMin.trans h₁.fifoMin, h₂.fifoMax.trans h₁.fifoMax⟩

/-- A reservation with its command word leaves the ring as well. -/
theorem fifoReserveCmd_sameRing {c u : CommandFifo} {type bytes : ℕ} {ok : Bool}
    (hrun : (fifoReserveCmd type bytes).run c = some (ok, u)) : SameRing c.dev u.dev := by
  rw [fifoReserveCmd, StateT.run_bind, Option.bind_eq_bind, Option.bind_eq_some_iff] at hrun
  obtain ⟨⟨started, v⟩, hv, hrun⟩ := hrun
  have hring := fifoReserve_sameRing hv
  cases started with
  | false =>
      cases hrun
      exact hring
  | true =>
      cases hrun
      exact hring.trans (storeWords_sameRing v 0 [word type])

/-- `FIFOCommitAll` closes what is open, on the same ring. -/
theorem fifoCommitAll_sameRing {u v : CommandFifo} (hreserved : u.dev.reservedSize ≠ 0)
    (haligned : u.dev.reservedSize % 4 = 0) (hrun : fifoCommitAll.run u = some ((), v)) :
    SameRing u.dev v.dev ∧ v.dev.reservedSize = 0 := by
  have hdev : v.dev = u.dev.fifoCommit u.dev.reservedSize := by
    cases hrun
    show (ite _ _ _ : CommandFifo).dev = _
    split
    · rfl
    · rfl
  rw [hdev]
  exact fifoCommit_sameRing hreserved haligned

/-- **A command with a header of one word** is refused and does nothing, or it is logged and the
FIFO is as it was. -/
theorem emit_run {c d : CommandFifo} {type bytes : ℕ} {ws : List FifoWord} {ok : Bool}
    (hbytes : bytes + 4 = 4 * (ws.length + 1))
    (hrun : (do
      if ← fifoReserveCmd type bytes then
        store 1 ws
        fifoCommitAll
        return true
      else return false : FifoM Bool).run c = some (ok, d)) :
    (c.dev.fifoReserveRefused (bytes + 4) = true ∧ ok = false ∧ d.log = c.log) ∨
    (c.dev.fifoReserveRefused (bytes + 4) = false ∧ ok = true ∧
      (∃ e, d.log = c.log ++ [e] ∧ e.words = word type :: ws) ∧
      SameRing c.dev d.dev ∧ d.dev.reservedSize = 0) := by
  have hbegin : Begins c (bytes + 4) [word type] (fifoReserveCmd type bytes) :=
    Begins.header (fifoReserve_begins c _) [word type]
  rw [StateT.run_bind] at hrun
  cases hrefused : c.dev.fifoReserveRefused (bytes + 4) with
  | true =>
      obtain ⟨blocked, heq⟩ := hbegin.refused hrefused
      rw [heq] at hrun
      cases hrun
      exact .inl ⟨rfl, rfl, rfl⟩
  | false =>
      rw [Option.bind_eq_bind, Option.bind_eq_some_iff] at hrun
      obtain ⟨⟨started, u⟩, hu, hrun⟩ := hrun
      obtain ⟨rfl, hwriting⟩ := hbegin.accepted hrefused started u hu
      have hstored : Writing c (4 * (word type :: ws).length) (word type :: ws)
          (u.storeWords 1 ws) := by
        have hstore := hwriting.store (i := 1) le_rfl ws
        rwa [overlay, List.take_succ_cons, List.take_zero, List.drop_eq_nil_of_le
          (by rw [List.length_singleton]; omega), List.append_nil, List.singleton_append,
          hbytes] at hstore
      obtain ⟨e, v, hv, hlog, hwords⟩ := fifoCommitAll_writing
        (l := word type :: ws) (Nat.succ_pos _) hstored
      have hreserved := hstored.reserved
      rw [List.length_cons] at hreserved
      obtain ⟨hring, hclosed⟩ := fifoCommitAll_sameRing (by omega) (by omega) hv
      have hstore : (store 1 ws).run u = some ((), u.storeWords 1 ws) := rfl
      simp only [if_true, StateT.run_bind, hstore, Option.bind_eq_bind, Option.bind_some, hv]
        at hrun
      cases hrun
      exact .inr ⟨rfl, rfl, ⟨e, hlog, hwords⟩, ((fifoReserveCmd_sameRing hu).trans
        (storeWords_sameRing u 1 ws)).trans hring, hclosed⟩

/-! ### The page list -/

/-- The fill loop of `createGMR2`: the words that it stores in the page list, and whether it
comes to the end. It stops at a segment that starts out of reach. -/
def fillPageList : List PhysicalSegment → List FifoWord × Bool
  | [] => ([], true)
  | seg :: segments =>
      if seg.addr / 2 ^ maxBits ≠ 0 then ([], false)
      else
        let length := (seg.length + seg.addr % pageSize + (pageSize - 1)) / pageSize
        let rest := fillPageList segments
        ((List.range' (seg.addr / pageSize) length).map word ++ rest.1, rest.2)

/-- A segment that starts where page frame numbers have 32 bits. -/
def PhysicalSegment.inReach (seg : PhysicalSegment) : Bool := seg.addr < 2 ^ maxBits

/-- The test of the source: the address, shifted, is not 0. -/
theorem PhysicalSegment.inReach_iff (seg : PhysicalSegment) :
    seg.inReach = true ↔ ¬ seg.addr / 2 ^ maxBits ≠ 0 := by
  rw [inReach, decide_eq_true_iff, not_not, Nat.div_eq_zero_iff_lt (Nat.two_pow_pos _)]

/-- What the fill loop stores: the pages of the segments up to the first one out of reach. -/
theorem fillPageList_fst (segments : List PhysicalSegment) : (fillPageList segments).1 =
    ((segments.takeWhile PhysicalSegment.inReach).flatMap PhysicalSegment.pages).map word := by
  induction segments with
  | nil => rfl
  | cons seg segments ih =>
      rw [fillPageList]
      by_cases hreach : seg.inReach = true
      · rw [if_neg (seg.inReach_iff.mp hreach), List.takeWhile_cons_of_pos hreach,
          List.flatMap_cons, List.map_append, ← ih, PhysicalSegment.pages, seg.pageCount_eq]
        rfl
      · rw [if_pos (not_not.mp (mt seg.inReach_iff.mpr hreach)),
          List.takeWhile_cons_of_neg hreach]
        rfl

/-- The fill loop succeeds when all segments are in reach. -/
theorem fillPageList_snd (segments : List PhysicalSegment) :
    (fillPageList segments).2 = segments.all PhysicalSegment.inReach := by
  induction segments with
  | nil => rfl
  | cons seg segments ih =>
      rw [fillPageList, List.all_cons]
      by_cases hreach : seg.inReach = true
      · rw [if_neg (seg.inReach_iff.mp hreach), hreach, ih]
        rfl
      · rw [if_pos (not_not.mp (mt seg.inReach_iff.mpr hreach))]
        simp [hreach]

/-- `createGMR2` of the memory `md`; `allocated` says whether the page list is allocated. -/
def AccelCommands.createGMR2Memory (cfg : AccelConfig) (gmrId : FifoWord)
    (md : Option PhysicalMemory) (allocated : Bool) : FifoM IOReturn :=
  AccelCommands.createGMR2 cfg gmrId (md.map PhysicalMemory.length) allocated
    (md.bind fun md =>
      let filled := fillPageList md.segments
      if filled.2 then some filled.1 else none)

/-- The call comes to the fill loop: it is not turned away, and the page list is allocated. -/
def fillsPageList (cfg : AccelConfig) (md : PhysicalMemory) (allocated : Bool) : Bool :=
  cfg.haveFramebuffer && cfg.hasGMR2 && md.numPages ≠ 0 && md.numPages ≤ cfg.maxGMRPages &&
    allocated

/-- The words of the define-GMR2 command. -/
def defineGMR2Words (gmrId : FifoWord) (numPages : ℕ) : List FifoWord :=
  [word 41, gmrId, word numPages]

/-- The words of the remap-GMR2 command before the page list. -/
def remapGMR2Head (gmrId : FifoWord) (numPages : ℕ) : List FifoWord :=
  [word 42, gmrId, 0, 0, word numPages]

/-- **The ways through `createGMR2`**: its result, and what it commits. -/
inductive GMR2Outcome (cfg : AccelConfig) (gmrId : FifoWord) (md : Option PhysicalMemory)
    (allocated : Bool) (c d : CommandFifo) : IOReturn → Prop
  /-- There is no memory. -/
  | missing (r : IOReturn) (hmd : md = none) (hr : r ≠ .success) :
      GMR2Outcome cfg gmrId md allocated c d r
  /-- The call is turned away before it fills the list. -/
  | rejected (r : IOReturn) (m : PhysicalMemory) (hmd : md = some m)
      (hfills : fillsPageList cfg m allocated = false) (hr : r ≠ .success) :
      GMR2Outcome cfg gmrId md allocated c d r
  /-- A segment is out of reach. -/
  | outOfReach (m : PhysicalMemory) (hmd : md = some m)
      (hfills : fillsPageList cfg m allocated = true)
      (hreach : m.segments.all PhysicalSegment.inReach = false) :
      GMR2Outcome cfg gmrId md allocated c d .unsupported
  /-- The define-GMR2 command is refused. -/
  | undefined (m : PhysicalMemory) (hmd : md = some m)
      (hfills : fillsPageList cfg m allocated = true)
      (hreach : m.segments.all PhysicalSegment.inReach = true)
      (hrefused : c.dev.fifoReserveRefused 12 = true) :
      GMR2Outcome cfg gmrId md allocated c d .deviceError
  /-- The remap-GMR2 command is refused, and the call succeeds all the same. -/
  | defined (m : PhysicalMemory) (hmd : md = some m)
      (hfills : fillsPageList cfg m allocated = true)
      (hreach : m.segments.all PhysicalSegment.inReach = true)
      (haccepted : c.dev.fifoReserveRefused 12 = false)
      (hrefused : c.dev.fifoReserveRefused (20 + 4 * m.numPages) = true) (e : FifoCommit)
      (hlog : d.log = c.log ++ [e]) :
      GMR2Outcome cfg gmrId md allocated c d .success
  /-- Both commands are committed. -/
  | mapped (m : PhysicalMemory) (hmd : md = some m)
      (hfills : fillsPageList cfg m allocated = true)
      (hreach : m.segments.all PhysicalSegment.inReach = true)
      (haccepted : c.dev.fifoReserveRefused 12 = false)
      (hfits : c.dev.fifoReserveRefused (20 + 4 * m.numPages) = false) (e₁ e₂ : FifoCommit)
      (hlog : d.log = c.log ++ [e₁, e₂])
      (hdefine : e₁.words = defineGMR2Words gmrId m.numPages)
      (hremap : e₂.words = remapGMR2Head gmrId m.numPages ++
        (m.pages.map word).take m.numPages) :
      GMR2Outcome cfg gmrId md allocated c d .success

/-- The list is filled when no check before it refuses. -/
theorem fillsPageList_iff {cfg : AccelConfig} {md : PhysicalMemory} {allocated : Bool} :
    fillsPageList cfg md allocated = true ↔ cfg.haveFramebuffer = true ∧ cfg.hasGMR2 = true ∧
      md.numPages ≠ 0 ∧ md.numPages ≤ cfg.maxGMRPages ∧ allocated = true := by
  simp only [fillsPageList, Bool.and_eq_true, decide_eq_true_iff, and_assoc]

/-- All the segments are in reach: the list holds all their pages. -/
theorem takeWhile_of_all {segments : List PhysicalSegment}
    (h : segments.all PhysicalSegment.inReach = true) :
    segments.takeWhile PhysicalSegment.inReach = segments :=
  List.takeWhile_eq_self_iff.mpr (List.all_eq_true.mp h)

/-- A remap-GMR2 command with a list of at least `numPages` words. -/
theorem remapGMR2_run {c d : CommandFifo} {gmrId : FifoWord} {numPages : ℕ}
    {ppns : List FifoWord} {ok : Bool} (hppns : numPages ≤ ppns.length)
    (hrun : (SVGACommands.remapGMR2 gmrId 0 0 (word numPages) (some ppns) (4 * numPages)).run c =
      some (ok, d)) :
    (c.dev.fifoReserveRefused (20 + 4 * numPages) = true ∧ d.log = c.log) ∨
    (c.dev.fifoReserveRefused (20 + 4 * numPages) = false ∧ ∃ e, d.log = c.log ++ [e] ∧
      e.words = remapGMR2Head gmrId numPages ++ ppns.take numPages) := by
  have hwords : ((some ppns).getD []).take (4 * numPages / 4) = ppns.take numPages := by
    rw [Option.getD_some, Nat.mul_div_cancel_left _ (by decide)]
  have hsize : 16 + 4 * numPages + 4 = 20 + 4 * numPages := by omega
  have hpresent : ¬ ((some ppns).isNone = true ∧ 4 * numPages ≠ 0) := by simp
  rw [SVGACommands.remapGMR2, if_neg hpresent, hwords] at hrun
  have hlength : (16 + 4 * numPages) + 4 =
      4 * (([gmrId, 0, 0, word numPages] ++ ppns.take numPages).length + 1) := by
    rw [List.length_append, List.length_take, Nat.min_eq_left hppns]
    simp only [List.length_cons, List.length_nil]
    omega
  rcases emit_run hlength hrun with ⟨hrefused, -, hlog⟩ | ⟨haccepted, -, ⟨e, hlog, hwords⟩, -⟩
  · exact .inl ⟨hsize ▸ hrefused, hlog⟩
  · exact .inr ⟨hsize ▸ haccepted, e, hlog, hwords⟩

/-- A call that does not come to the fill loop fails. -/
theorem createGMR2Memory_rejected {cfg : AccelConfig} {gmrId : FifoWord} {m : PhysicalMemory}
    {allocated : Bool} {c d : CommandFifo} {r : IOReturn}
    (hfills : fillsPageList cfg m allocated = false)
    (hrun : (AccelCommands.createGMR2Memory cfg gmrId (some m) allocated).run c = some (r, d)) :
    r ≠ .success := by
  have hlength : (m.length + pageSize - 1) / pageSize = m.numPages := rfl
  simp only [AccelCommands.createGMR2Memory, Option.map_some, Option.bind_some,
    AccelCommands.createGMR2, hlength] at hrun
  rw [Bool.eq_false_iff, ne_eq, fillsPageList_iff] at hfills
  split at hrun
  · cases hrun
    decide
  rename_i hframe
  split at hrun
  · cases hrun
    decide
  rename_i hcap
  split at hrun
  · cases hrun
    decide
  rename_i hzero
  split at hrun
  · cases hrun
    decide
  rename_i hmax
  split at hrun
  · cases hrun
    decide
  rename_i halloc
  exact absurd ⟨by simpa using hframe, by simpa using hcap, hzero, not_lt.mp hmax,
    by simpa using halloc⟩ hfills

/-- What a call does after it has filled the page list. -/
theorem createGMR2Memory_eq {cfg : AccelConfig} {gmrId : FifoWord} {m : PhysicalMemory}
    {allocated : Bool} (hfills : fillsPageList cfg m allocated = true) :
    AccelCommands.createGMR2Memory cfg gmrId (some m) allocated =
      if m.segments.all PhysicalSegment.inReach then do
        if ← SVGACommands.defineGMR2 gmrId (word m.numPages) then
          let _ ← SVGACommands.remapGMR2 gmrId 0 0 (word m.numPages) (some (m.pages.map word))
            (4 * m.numPages)
          return .success
        else return .deviceError
      else return .unsupported := by
  obtain ⟨hframe, hcap, hzero, hmax, halloc⟩ := fillsPageList_iff.mp hfills
  have hlength : (m.length + pageSize - 1) / pageSize = m.numPages := rfl
  simp only [AccelCommands.createGMR2Memory, Option.map_some, Option.bind_some,
    AccelCommands.createGMR2, hlength, fillPageList_fst, fillPageList_snd, hframe, hcap,
    hzero, not_lt.mpr hmax, halloc, Bool.not_true, Bool.false_eq_true, if_false]
  cases hreach : m.segments.all PhysicalSegment.inReach with
  | false => rfl
  | true =>
      simp only [if_true, takeWhile_of_all hreach]
      rfl

/-- `createGMR2` is refused, stops in the fill loop, or issues its commands. -/
theorem createGMR2Memory_cases {cfg : AccelConfig} {gmrId : FifoWord}
    {md : Option PhysicalMemory} {allocated : Bool} {c d : CommandFifo} {r : IOReturn}
    (hrun : (AccelCommands.createGMR2Memory cfg gmrId md allocated).run c = some (r, d)) :
    GMR2Outcome cfg gmrId md allocated c d r := by
  cases md with
  | none =>
      cases hrun
      exact .missing _ rfl (by decide)
  | some m =>
      cases hfills : fillsPageList cfg m allocated with
      | false => exact .rejected _ m rfl hfills (createGMR2Memory_rejected hfills hrun)
      | true =>
          rw [createGMR2Memory_eq hfills] at hrun
          cases hreach : m.segments.all PhysicalSegment.inReach with
          | false =>
              simp only [hreach, Bool.false_eq_true, if_false] at hrun
              cases hrun
              exact .outOfReach m rfl hfills hreach
          | true =>
              rw [hreach, if_pos rfl, StateT.run_bind, Option.bind_eq_bind,
                Option.bind_eq_some_iff] at hrun
              obtain ⟨⟨ok, u⟩, hu, hrun⟩ := hrun
              rcases emit_run rfl hu with ⟨hrefused, rfl, -⟩ |
                ⟨haccepted, rfl, ⟨e, hlog, hwords⟩, hring, hclosed⟩
              · cases hrun
                exact .undefined m rfl hfills hreach hrefused
              · -- the second command is sent whatever becomes of it
                simp only [if_true, StateT.run_bind, Option.bind_eq_bind,
                  Option.bind_eq_some_iff] at hrun
                obtain ⟨⟨ok, v⟩, hv, hrun⟩ := hrun
                cases hrun
                have hppns : m.numPages ≤ (m.pages.map word).length := by
                  rw [List.length_map]
                  exact m.numPages_le
                have hsame := hring.refused_eq (reserved_of_accepted haccepted).1 hclosed
                  (20 + 4 * m.numPages)
                rcases remapGMR2_run hppns hv with ⟨hrefused, hlog'⟩ |
                  ⟨hfits, e', hlog', hwords'⟩
                · exact .defined m rfl hfills hreach haccepted (hsame ▸ hrefused) e
                    (hlog'.trans hlog)
                · refine .mapped m rfl hfills hreach haccepted (hsame ▸ hfits) e e' ?_ hwords
                    hwords'
                  rw [hlog', hlog, List.append_assoc]
                  rfl

/-! ### What success means -/

/-- **What `createGMR2` promises**: success means that a define-GMR2 and a remap-GMR2 command for
the pages of the memory have been committed, and the fill loop stores no more words than the page
list has. -/
structure CreatesGMR2 (cfg : AccelConfig) (gmrId : FifoWord) (md : Option PhysicalMemory)
    (allocated : Bool) (c : CommandFifo) (r : IOReturn) (d : CommandFifo) : Prop where
  committed : r = .success → ∃ m e₁ e₂ ppns, md = some m ∧ d.log = c.log ++ [e₁, e₂] ∧
    e₁.words = defineGMR2Words gmrId m.pages.length ∧
    e₂.words = remapGMR2Head gmrId m.pages.length ++ ppns ∧ ppns.map BitVec.toNat = m.pages
  inside : ∀ m, md = some m → fillsPageList cfg m allocated = true →
    (fillPageList m.segments).1.length ≤ m.numPages

/-- The condition for this, once the call comes to the fill loop: the segments up to the first one
out of reach take no more pages than the length of the memory; and if none is out of reach and
the define-GMR2 command is accepted, the remap-GMR2 command is not refused, and no page frame
number takes more than 32 bits. -/
structure GMR2Fits (cfg : AccelConfig) (md : Option PhysicalMemory) (allocated : Bool)
    (c : CommandFifo) : Prop where
  pages : ∀ m, md = some m → fillsPageList cfg m allocated = true →
    ((m.segments.takeWhile PhysicalSegment.inReach).map PhysicalSegment.pageCount).sum ≤
      m.numPages
  remap : ∀ m, md = some m → fillsPageList cfg m allocated = true →
    m.segments.all PhysicalSegment.inReach = true → c.dev.fifoReserveRefused 12 = false →
    c.dev.fifoReserveRefused (20 + 4 * m.numPages) = false ∧ ∀ n ∈ m.pages, n < 2 ^ 32

/-- The list has one word for each page of the segments in reach. -/
theorem length_fillPageList (segments : List PhysicalSegment) :
    (fillPageList segments).1.length =
      ((segments.takeWhile PhysicalSegment.inReach).map PhysicalSegment.pageCount).sum := by
  rw [fillPageList_fst, List.length_map, length_pages_eq]

/-- The words of numbers below `2 ^ 32` are the numbers. -/
theorem map_toNat_word {l : List ℕ} : (l.map word).map BitVec.toNat = l ↔ ∀ n ∈ l, n < 2 ^ 32 := by
  have hword : ∀ n, (word n).toNat = n % 2 ^ 32 := fun n => BitVec.toNat_ofNat n 32
  rw [List.map_map]
  constructor
  · intro heq n hn
    rw [← heq, List.mem_map] at hn
    obtain ⟨k, -, rfl⟩ := hn
    exact (word k).isLt
  · intro h
    refine (List.map_congr_left fun n hn => ?_).trans (List.map_id l)
    rw [Function.comp_apply, hword, Nat.mod_eq_of_lt (h n hn)]
    rfl

/-- **`createGMR2`** keeps its promise exactly when its memory fits. -/
theorem createGMR2_sound_iff {cfg : AccelConfig} {gmrId : FifoWord} {md : Option PhysicalMemory}
    {allocated : Bool} {c d : CommandFifo} {r : IOReturn}
    (hrun : (AccelCommands.createGMR2Memory cfg gmrId md allocated).run c = some (r, d)) :
    CreatesGMR2 cfg gmrId md allocated c r d ↔ GMR2Fits cfg md allocated c := by
  -- the page list is overrun exactly when the segments take more pages
  have hinside : (∀ m, md = some m → fillsPageList cfg m allocated = true →
      (fillPageList m.segments).1.length ≤ m.numPages) ↔
      ∀ m, md = some m → fillsPageList cfg m allocated = true →
        ((m.segments.takeWhile PhysicalSegment.inReach).map PhysicalSegment.pageCount).sum ≤
          m.numPages := by
    simp only [length_fillPageList]
  -- where the commands are not sent, only the page list matters
  have hunsent : r ≠ .success → (∀ m, md = some m → fillsPageList cfg m allocated = true →
      m.segments.all PhysicalSegment.inReach = true → c.dev.fifoReserveRefused 12 = true) →
      (CreatesGMR2 cfg gmrId md allocated c r d ↔ GMR2Fits cfg md allocated c) := by
    intro hr hnot
    refine ⟨fun h => ⟨hinside.mp h.inside, fun m hmd hfills hreach haccepted => ?_⟩,
      fun h => ⟨fun hok => absurd hok hr, hinside.mpr h.pages⟩⟩
    exact absurd ((hnot m hmd hfills hreach).symm.trans haccepted) (by decide)
  cases createGMR2Memory_cases hrun with
  | missing r hmd hr =>
      exact hunsent hr fun m hm => by rw [hmd] at hm; cases hm
  | rejected r m hmd hfills hr =>
      refine hunsent hr fun m' hm hfills' => ?_
      obtain rfl : m = m' := Option.some.inj (hmd.symm.trans hm)
      exact absurd (hfills.symm.trans hfills') (by decide)
  | outOfReach m hmd hfills hreach =>
      refine hunsent (by decide) fun m' hm _ hreach' => ?_
      obtain rfl : m = m' := Option.some.inj (hmd.symm.trans hm)
      exact absurd (hreach.symm.trans hreach') (by decide)
  | undefined m hmd hfills hreach hrefused =>
      exact hunsent (by decide) fun _ _ _ _ => hrefused
  | defined m hmd hfills hreach haccepted hrefused e hlog =>
      refine iff_of_false (fun h => ?_) fun h => ?_
      · obtain ⟨m', e₁, e₂, ppns, -, hlog', -⟩ := h.committed rfl
        rw [hlog] at hlog'
        cases List.append_cancel_left hlog'
      · have hfits := (h.remap m hmd hfills hreach haccepted).1
        exact absurd (hrefused.symm.trans hfits) (by decide)
  | mapped m hmd hfills hreach haccepted hfits e₁ e₂ hlog hdefine hremap =>
      have hlength : (∀ m, md = some m → fillsPageList cfg m allocated = true →
          ((m.segments.takeWhile PhysicalSegment.inReach).map PhysicalSegment.pageCount).sum ≤
            m.numPages) → m.numPages = m.pages.length := by
        intro hpages
        have hle := hpages m hmd hfills
        rw [takeWhile_of_all hreach, ← length_pages_eq] at hle
        exact le_antisymm m.numPages_le hle
      have hwhole : m.numPages = m.pages.length →
          e₂.words = remapGMR2Head gmrId m.pages.length ++ m.pages.map word := by
        intro heq
        rw [hremap, heq, List.take_of_length_le (List.length_map _).le]
      constructor
      · intro h
        have hpages := hinside.mp h.inside
        refine ⟨hpages, fun m' hm _ _ _ => ?_⟩
        obtain rfl : m = m' := Option.some.inj (hmd.symm.trans hm)
        refine ⟨hfits, ?_⟩
        obtain ⟨m', e₁', e₂', ppns, hm', hlog', -, hremap', hnumbers⟩ := h.committed rfl
        obtain rfl : m = m' := Option.some.inj (hmd.symm.trans hm')
        rw [hlog] at hlog'
        obtain ⟨-, rfl⟩ : e₁ = e₁' ∧ e₂ = e₂' := by simpa using List.append_cancel_left hlog'
        obtain rfl : m.pages.map word = ppns :=
          List.append_cancel_left ((hwhole (hlength hpages)).symm.trans hremap')
        exact map_toNat_word.mp hnumbers
      · intro h
        have heq := hlength h.pages
        refine ⟨fun _ => ⟨m, e₁, e₂, m.pages.map word, hmd, hlog, heq ▸ hdefine, hwhole heq,
          map_toNat_word.mpr (h.remap m hmd hfills hreach haccepted).2⟩, hinside.mpr h.pages⟩

/-- An accelerator whose device allows GMRs of 65536 pages. -/
def largeGmrConfig : AccelConfig := { fullConfig with maxGMRPages := 65536 }

/-- A memory of one segment. -/
def singleSegment (addr length : ℕ) (haddr : 0 < addr) (hlength : 0 < length) : PhysicalMemory :=
  ⟨[⟨addr, length, haddr, hlength⟩]⟩

/-- A memory whose remap-GMR2 command is refused, but not its define-GMR2 command. -/
theorem createGMR2Memory_refused {cfg : AccelConfig} {gmrId : FifoWord} {m : PhysicalMemory}
    {allocated : Bool} {c u : CommandFifo} (hfills : fillsPageList cfg m allocated = true)
    (hreach : m.segments.all PhysicalSegment.inReach = true)
    (hdefine : (SVGACommands.defineGMR2 gmrId (word m.numPages)).run c = some (true, u))
    (hrefused : c.dev.fifoReserveRefused (20 + 4 * m.numPages) = true) :
    ∃ d, (AccelCommands.createGMR2Memory cfg gmrId (some m) allocated).run c =
      some (.success, d) := by
  rcases emit_run rfl hdefine with ⟨-, hfalse, -⟩ | ⟨haccepted, -, -, hring, hclosed⟩
  · cases hfalse
  have hrefused' : u.dev.fifoReserveRefused (16 + 4 * m.numPages + 4) = true := by
    rw [hring.refused_eq (reserved_of_accepted haccepted).1 hclosed,
      show 16 + 4 * m.numPages + 4 = 20 + 4 * m.numPages by omega]
    exact hrefused
  obtain ⟨blocked, hbegin⟩ := (Begins.header (fifoReserve_begins u _) [word 42]).refused hrefused'
  have hbegin : (fifoReserveCmd 42 (16 + 4 * m.numPages)).run u = _ := hbegin
  have hpresent : ¬ ((some (m.pages.map word)).isNone = true ∧ 4 * m.numPages ≠ 0) := by simp
  refine ⟨{ u with blocked := blocked }, ?_⟩
  rw [createGMR2Memory_eq hfills, if_pos hreach, StateT.run_bind, hdefine]
  simp only [Option.bind_eq_bind, Option.bind_some, if_true, SVGACommands.remapGMR2,
    if_neg hpresent, StateT.run_bind, hbegin]
  rfl

/-- Two pages are mapped. -/
theorem createGMR2_sound_two_pages :
    ∃ d, (AccelCommands.createGMR2Memory largeGmrConfig 7
        (some (singleSegment 0x5000 0x2000 (by decide) (by decide))) true).run
        (exampleFifo 0x100000) = some (.success, d) ∧
      CreatesGMR2 largeGmrConfig 7
        (some (singleSegment 0x5000 0x2000 (by decide) (by decide))) true
        (exampleFifo 0x100000) .success d := by
  obtain ⟨d, hrun⟩ : ∃ d, (AccelCommands.createGMR2Memory largeGmrConfig 7
      (some (singleSegment 0x5000 0x2000 (by decide) (by decide))) true).run
      (exampleFifo 0x100000) = some (.success, d) := by
    have hnum : (singleSegment 0x5000 0x2000 (by decide) (by decide)).numPages = 2 := by decide
    have hpages : (singleSegment 0x5000 0x2000 (by decide) (by decide)).pages = [5, 6] := by
      decide
    rw [createGMR2Memory_eq (by decide), if_pos (by decide), hnum, hpages]
    exact ⟨_, rfl⟩
  refine ⟨d, hrun, (createGMR2_sound_iff hrun).mpr ⟨fun m hm _ => ?_, fun m hm _ _ _ => ?_⟩⟩
  · cases hm
    decide
  · cases hm
    decide

/-- A memory of 64 MiB: the remap-GMR2 command is refused, and the call succeeds. A memory of
eight bytes across a page boundary: the page list is overrun. -/
theorem createGMR2_unsound :
    (∃ d, (AccelCommands.createGMR2Memory largeGmrConfig 7
        (some (singleSegment 0x100000 0x4000000 (by decide) (by decide))) true).run
        (exampleFifo 0x100000) = some (.success, d) ∧
      ¬ CreatesGMR2 largeGmrConfig 7
        (some (singleSegment 0x100000 0x4000000 (by decide) (by decide))) true
        (exampleFifo 0x100000) .success d) ∧
    ∃ r d, (AccelCommands.createGMR2Memory largeGmrConfig 7
        (some (singleSegment 0x5FFC 8 (by decide) (by decide))) true).run
        (exampleFifo 0x100000) = some (r, d) ∧
      ¬ CreatesGMR2 largeGmrConfig 7
        (some (singleSegment 0x5FFC 8 (by decide) (by decide))) true
        (exampleFifo 0x100000) r d := by
  constructor
  · obtain ⟨u, hdefine⟩ : ∃ u, (SVGACommands.defineGMR2 7 (word (singleSegment 0x100000 0x4000000
        (by decide) (by decide)).numPages)).run (exampleFifo 0x100000) = some (true, u) := ⟨_, rfl⟩
    have hfills : fillsPageList largeGmrConfig
        (singleSegment 0x100000 0x4000000 (by decide) (by decide)) true = true := by decide
    obtain ⟨d, hrun⟩ := createGMR2Memory_refused hfills (by decide) hdefine (by decide)
    refine ⟨d, hrun, fun h => ?_⟩
    have hfits := ((createGMR2_sound_iff hrun).mp h).remap _ rfl hfills (by decide) (by decide)
    exact absurd hfits.1 (by decide)
  · obtain ⟨r, d, hrun⟩ : ∃ r d, (AccelCommands.createGMR2Memory largeGmrConfig 7
        (some (singleSegment 0x5FFC 8 (by decide) (by decide))) true).run
        (exampleFifo 0x100000) = some (r, d) := by
      have hnum : (singleSegment 0x5FFC 8 (by decide) (by decide)).numPages = 1 := by decide
      have hpages : (singleSegment 0x5FFC 8 (by decide) (by decide)).pages = [5, 6] := by decide
      rw [createGMR2Memory_eq (by decide), if_pos (by decide), hnum, hpages]
      exact ⟨_, _, rfl⟩
    refine ⟨r, d, hrun, fun h => ?_⟩
    exact absurd (h.inside _ rfl (by decide)) (by decide)

end DockerMacos
