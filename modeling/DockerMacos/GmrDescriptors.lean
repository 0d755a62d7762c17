import Mathlib.Data.List.Basic
import DockerMacos.IOReturn
import DockerMacos.PhysicalMemory

/-!
# The Descriptor Table of `createGMR`

`createGMR` of the accelerator (`AC/VMsvga2Accel.cpp`) describes the physical segments of a memory
to the device in a table of its own, the helper. A page of the helper has room for 511
descriptors, and its last slot holds the number of the next page. Where the helper is
contiguous the next number is the one after the last, and elsewhere it is looked up.

## The walk

The device starts at the page number that it is given, and reads slot after slot: a descriptor
with pages is a range, one without leads to another page, and a null one ends the table, as
`svga_reg.h` has it. `walk` is this reading of the table; it has no result outside the pages of
the helper.

## The builder

`BuildInv` compares the state of the loop with the segments that it has behind it. The page
count of a descriptor has 32 bits, so a segment of `2 ^ 32` pages or more is recorded with fewer,
or as the end of the table; nothing else goes wrong.

## Main results

* `buildLoop_spec`: the building loop stays in the helper, and what it leaves there.
* `GmrDefinition.walk_ranges`: the walk over the table.
* `createGMR_cases`: `createGMR` is turned away, or builds a table.
* `createGMR_chain_iff`: when the walk yields the page ranges of the memory.
-/

namespace DockerMacos

/-! ### The table -/

/-- `SVGAGuestMemDescriptor`. -/
structure SVGAGuestMemDescriptor where
  ppn : BitVec 32
  numPages : BitVec 32
  deriving DecidableEq

/-- How many descriptors a page holds. -/
def slotsPerPage : ℕ := 512

/-- `dpp`: the descriptors of a page without the last one. -/
def dpp : ℕ := 511

/-- The helper, a buffer of `n` pages of physical memory somewhere below `2 ^ maxBits`. The
pages from page `i` on are contiguous for `run i` pages, as `getPhysicalSegment` tells. -/
structure HelperPages (n : ℕ) where
  ppn : ℕ → ℕ
  run : ℕ → ℕ
  ppn_pos : ∀ i < n, 0 < ppn i
  ppn_lt : ∀ i < n, ppn i < 2 ^ 32
  ppn_inj : ∀ i < n, ∀ j < n, ppn i = ppn j → i = j
  run_pos : ∀ i < n, 0 < run i
  run_le : ∀ i < n, i + run i ≤ n
  contiguous : ∀ i < n, ∀ j < run i, ppn (i + j) = ppn i + j

/-- The state of the building loop. The places of the table are counted from `helper_base`. -/
structure GmrBuilder where
  table : ℕ → SVGAGuestMemDescriptor
  /-- `helper_ptr`. -/
  slot : ℕ
  /-- `in_page_count`. -/
  inPageCount : ℕ
  nextPage : ℕ
  helperPpn : BitVec 32
  /-- `helper_length`, as the signed number that it is tested as. -/
  helperLength : ℤ

/-- The descriptor of a segment. -/
def PhysicalSegment.descriptor (seg : PhysicalSegment) : SVGAGuestMemDescriptor where
  ppn := BitVec.ofNat 32 (seg.addr / pageSize)
  numPages := BitVec.ofNat 32
    ((seg.length + seg.addr % pageSize + (pageSize - 1)) % 2 ^ 64 / pageSize)

namespace GmrBuilder

/-- A descriptor is stored in the next slot. There is no result outside the helper. -/
def putRange (n : ℕ) (b : GmrBuilder) (d : SVGAGuestMemDescriptor) : Option GmrBuilder :=
  if b.slot < n * slotsPerPage then
    some { b with
      table := Function.update b.table b.slot d
      slot := b.slot + 1
      inPageCount := b.inPageCount - 1 }
  else none

/-- The number of the next page, and how far the helper is contiguous from there on; there is no
result after the last page. -/
def nextPpn {n : ℕ} (h : HelperPages n) (b : GmrBuilder) : Option GmrBuilder :=
  if b.helperLength > 0 then some b
  else if b.nextPage < n then
    some { b with
      helperPpn := BitVec.ofNat 32 (h.ppn b.nextPage)
      helperLength := h.run b.nextPage * pageSize }
  else none

/-- The number of the next page is stored in the last slot, and the loop goes on there. -/
def putLink (n : ℕ) (b : GmrBuilder) : Option GmrBuilder :=
  if b.slot < n * slotsPerPage then
    some { b with
      table := Function.update b.table b.slot { b.table b.slot with ppn := b.helperPpn }
      slot := b.nextPage * slotsPerPage
      inPageCount := dpp
      nextPage := b.nextPage + 1
      helperPpn := b.helperPpn + 1
      helperLength := b.helperLength - pageSize }
  else none

end GmrBuilder

/-- The building loop of `createGMR`. -/
def buildLoop {n : ℕ} (h : HelperPages n) : List PhysicalSegment → GmrBuilder → Option GmrBuilder
  | [], b => some b
  | seg :: segments, b => do
      let b ← b.putRange n seg.descriptor
      if b.inPageCount ≠ 0 then buildLoop h segments b
      else
        match b.nextPpn h with
        | none => return b
        | some b => do
            let b ← b.putLink n
            buildLoop h segments b

/-- The state before the loop: the table is zeroed. -/
def startBuilder {n : ℕ} (h : HelperPages n) : GmrBuilder where
  table := fun _ => ⟨0, 0⟩
  slot := 0
  inPageCount := dpp
  nextPage := 1
  helperPpn := BitVec.ofNat 32 (h.ppn 0) + 1
  helperLength := h.run 0 * pageSize - pageSize

/-! ### `createGMR` -/

/-- What `createGMR` knows about the device. -/
structure GmrConfig where
  /-- Whether `m_framebuffer` is set. -/
  haveFramebuffer : Bool
  /-- `HasCapability(SVGA_CAP_GMR)`. -/
  hasGMR : Bool
  maxGMRDescriptorLength : ℕ

/-- The registers of `defineGMR`. -/
inductive GmrRegister
  | gmrId
  | gmrDescriptor
  deriving DecidableEq

/-- `defineGMR`: the writes to the registers. -/
def defineGMR (cfg : GmrConfig) (gmrId ppn : BitVec 32) : List (GmrRegister × BitVec 32) :=
  if !cfg.hasGMR then [] else [(.gmrId, gmrId), (.gmrDescriptor, ppn)]

/-- The counting loop of `createGMR`; there is no result when a segment starts out of reach. -/
def countRanges : List PhysicalSegment → Option ℕ
  | [] => some 0
  | seg :: segments =>
      if seg.addr / 2 ^ maxBits ≠ 0 then none else (countRanges segments).map (· + 1)

/-- What a successful `createGMR` leaves: the helper with its table, and the writes to the
registers. -/
structure GmrDefinition where
  numPages : ℕ
  helper : HelperPages numPages
  table : ℕ → SVGAGuestMemDescriptor
  writes : List (GmrRegister × BitVec 32)

/-- `createGMR`: `helper` is the allocation of the helper for a number of pages, and `prepare`
the code that preparing it returns. There is no result when a store misses the helper. -/
def createGMR (cfg : GmrConfig) (gmrId : BitVec 32) (md : Option PhysicalMemory)
    (helper : (n : ℕ) → Option (HelperPages n)) (prepare : IOReturn) :
    Option (IOReturn × Option GmrDefinition) :=
  match md with
  | none => some (.badArgument, none)
  | some md =>
      if !cfg.haveFramebuffer then some (.noDevice, none)
      else if !cfg.hasGMR then some (.unsupported, none)
      else
        match countRanges md.segments with
        | none => some (.unsupported, none)
        | some numPhysicalRanges =>
            if numPhysicalRanges = 0 then some (.badArgument, none)
            else
              let numPages := (numPhysicalRanges + (dpp - 1)) / dpp
              if numPhysicalRanges + numPages > cfg.maxGMRDescriptorLength then
                some (.noResources, none)
              else
                match helper numPages with
                | none => some (.noResources, none)
                | some helper =>
                    if prepare ≠ .success then some (prepare, none)
                    else do
                      let b ← buildLoop helper md.segments (startBuilder helper)
                      return (.success, some
                        { numPages := numPages
                          helper := helper
                          table := b.table
                          writes := defineGMR cfg gmrId (BitVec.ofNat 32 (helper.ppn 0)) })

/-! ### The walk of the device -/

namespace GmrDefinition

/-- What the device reads in a slot of a page. Only the pages of the helper hold descriptors. -/
def read (g : GmrDefinition) (ppn slot : ℕ) : Option SVGAGuestMemDescriptor :=
  if slot < slotsPerPage then
    ((List.range g.numPages).find? fun i => g.helper.ppn i = ppn).map fun i =>
      g.table (i * slotsPerPage + slot)
  else none

/-- The walk over the table from a slot of a page on, for at most the given number of slots: the
ranges that it finds. There is no result when it leaves the helper or does not come to an end. -/
def walk (g : GmrDefinition) : ℕ → ℕ → ℕ → Option (List (ℕ × ℕ))
  | 0, _, _ => none
  | fuel + 1, ppn, slot =>
      match g.read ppn slot with
      | none => none
      | some d =>
          if d.numPages ≠ 0 then
            (g.walk fuel ppn (slot + 1)).map ((d.ppn.toNat, d.numPages.toNat) :: ·)
          else if d.ppn ≠ 0 then g.walk fuel d.ppn.toNat 0
          else some []

end GmrDefinition

/-! ### The building loop -/

/-- The slot of the descriptor with number `i`. -/
def rangeSlot (i : ℕ) : ℕ := i / dpp * slotsPerPage + i % dpp

/-- What the table holds when the first `nextPage` pages are linked and the descriptors of `pre`
are stored. -/
structure Filled {n : ℕ} (h : HelperPages n) (pre : List PhysicalSegment) (nextPage slot : ℕ)
    (table : ℕ → SVGAGuestMemDescriptor) : Prop where
  ranges : ∀ i seg, pre[i]? = some seg → table (rangeSlot i) = seg.descriptor
  links : ∀ page, page + 1 < nextPage →
    table (page * slotsPerPage + dpp) = ⟨BitVec.ofNat 32 (h.ppn (page + 1)), 0⟩
  rest : ∀ i, slot ≤ i → table i = ⟨0, 0⟩

/-- The pages up to `nextPage` are in the contiguous part of the helper that begins at page
`start`; `ppn` and `length` are what the loop knows about the rest of it. -/
structure InRun {n : ℕ} (h : HelperPages n) (nextPage : ℕ) (ppn : BitVec 32) (length : ℤ)
    (start : ℕ) : Prop where
  start_lt : start < nextPage
  next_le : nextPage ≤ start + h.run start
  length : length = ((start + h.run start - nextPage : ℕ) : ℤ) * pageSize
  ppn : ppn = BitVec.ofNat 32 (h.ppn start + (nextPage - start))

/-- **The invariant of the building loop**, with the segments `pre` behind it. -/
structure BuildInv {n : ℕ} (h : HelperPages n) (pre : List PhysicalSegment) (b : GmrBuilder) :
    Prop where
  page : 1 ≤ b.nextPage ∧ b.nextPage ≤ n
  room : 1 ≤ b.inPageCount ∧ b.inPageCount ≤ dpp
  count : pre.length + b.inPageCount = b.nextPage * dpp
  slot : b.slot + b.inPageCount + 1 = b.nextPage * slotsPerPage
  filled : Filled h pre b.nextPage b.slot b.table
  run : ∃ start, InRun h b.nextPage b.helperPpn b.helperLength start

/-- What the building loop leaves: the descriptors of all segments, the links, and an end. -/
structure Built {n : ℕ} (h : HelperPages n) (segments : List PhysicalSegment)
    (table : ℕ → SVGAGuestMemDescriptor) : Prop where
  ranges : ∀ i seg, segments[i]? = some seg → table (rangeSlot i) = seg.descriptor
  links : ∀ page, page + 1 < n →
    table (page * slotsPerPage + dpp) = ⟨BitVec.ofNat 32 (h.ppn (page + 1)), 0⟩
  ended : ∀ page slot, page < n → slot ≤ dpp → page * dpp + slot = segments.length →
    table (page * slotsPerPage + slot) = ⟨0, 0⟩

section Building

variable {n : ℕ} {h : HelperPages n} {segments pre : List PhysicalSegment}
  {seg : PhysicalSegment} {b b' : GmrBuilder}

/-- Every page before the slot adds a link. -/
theorem rangeSlot_eq_add (i : ℕ) : rangeSlot i = i + i / dpp := by
  simp only [rangeSlot, dpp, slotsPerPage]
  omega

/-- Later ranges have later slots. -/
theorem rangeSlot_lt {i j : ℕ} (hij : i < j) : rangeSlot i < rangeSlot j := by
  have hle : i / dpp ≤ j / dpp := Nat.div_le_div_right hij.le
  rw [rangeSlot_eq_add, rangeSlot_eq_add]
  omega

/-- The slot of a range, from its page and its place there. -/
theorem rangeSlot_eq {i page slot : ℕ} (hslot : slot < dpp) (hi : i = page * dpp + slot) :
    rangeSlot i = page * slotsPerPage + slot := by
  simp only [rangeSlot, dpp, slotsPerPage] at *
  omega

/-- Another descriptor is stored. -/
theorem Filled.putRange {nextPage slot : ℕ} {table : ℕ → SVGAGuestMemDescriptor}
    (hfilled : Filled h pre nextPage slot table) (hslot : slot = rangeSlot pre.length)
    (hnext : (nextPage - 1) * slotsPerPage ≤ slot) :
    Filled h (pre ++ [seg]) nextPage (slot + 1)
      (Function.update table slot seg.descriptor) where
  ranges i seg' hi := by
    by_cases hlast : i = pre.length
    · subst hlast
      rw [List.getElem?_concat_length] at hi
      rw [← hslot, Function.update_self, Option.some.inj hi]
    · have hlt : i < pre.length := by
        obtain ⟨hlt, -⟩ := List.getElem?_eq_some_iff.mp hi
        rw [List.length_append, List.length_singleton] at hlt
        omega
      have hbefore := rangeSlot_lt hlt
      rw [List.getElem?_append_left hlt] at hi
      rw [Function.update_of_ne (by omega)]
      exact hfilled.ranges i seg' hi
  links page hpage := by
    have hle : (page + 1) * slotsPerPage ≤ (nextPage - 1) * slotsPerPage :=
      Nat.mul_le_mul_right _ (by omega)
    rw [Function.update_of_ne (by simp only [dpp, slotsPerPage] at *; omega)]
    exact hfilled.links page hpage
  rest i hi := by
    rw [Function.update_of_ne (by omega)]
    exact hfilled.rest i (by omega)

/-- A link is stored in the last slot of the page. -/
theorem Filled.putLink {nextPage slot : ℕ} {table : ℕ → SVGAGuestMemDescriptor}
    (hfilled : Filled h pre nextPage slot table)
    (hslot : slot + 1 = nextPage * slotsPerPage) (hcount : pre.length = nextPage * dpp) :
    Filled h pre (nextPage + 1) (nextPage * slotsPerPage) (Function.update table slot
      { table slot with ppn := BitVec.ofNat 32 (h.ppn nextPage) }) where
  ranges i seg hi := by
    have hlt := (List.getElem?_eq_some_iff.mp hi).choose
    -- the link is behind the descriptors of its page
    have hbefore : rangeSlot i < slot := by
      rw [rangeSlot]
      simp only [dpp, slotsPerPage] at *
      omega
    rw [Function.update_of_ne (by omega)]
    exact hfilled.ranges i seg hi
  links page hpage := by
    by_cases hlast : page + 1 = nextPage
    · have heq : page * slotsPerPage + dpp = slot := by
        simp only [dpp, slotsPerPage] at *
        omega
      rw [heq, Function.update_self, hfilled.rest slot le_rfl, hlast]
    · have hle : (page + 2) * slotsPerPage ≤ nextPage * slotsPerPage :=
        Nat.mul_le_mul_right _ (by omega)
      rw [Function.update_of_ne (by simp only [dpp, slotsPerPage] at *; omega)]
      exact hfilled.links page (by omega)
  rest i hi := by
    rw [Function.update_of_ne (by omega)]
    exact hfilled.rest i (by omega)

/-- A contiguous part of the helper, with its first page done. -/
theorem InRun.enter {page : ℕ} (hpage : page < n) :
    InRun h (page + 1) (BitVec.ofNat 32 (h.ppn page) + 1) (h.run page * pageSize - pageSize)
      page where
  start_lt := Nat.lt_succ_self page
  next_le := Nat.add_le_add_left (h.run_pos page hpage) page
  length := by
    have hpos := h.run_pos page hpage
    rw [show page + h.run page - (page + 1) = h.run page - 1 by omega, Nat.cast_sub hpos,
      Nat.cast_one, sub_mul, one_mul]
  ppn := by
    rw [Nat.add_sub_cancel_left, BitVec.ofNat_add]
    rfl

/-- One page further in a contiguous part. -/
theorem InRun.next {nextPage start : ℕ} {ppn : BitVec 32} {length : ℤ}
    (hrun : InRun h nextPage ppn length start) (hlt : nextPage < start + h.run start) :
    InRun h (nextPage + 1) (ppn + 1) (length - pageSize) start where
  start_lt := hrun.start_lt.trans (Nat.lt_succ_self nextPage)
  next_le := hlt
  length := by
    rw [hrun.length, show start + h.run start - nextPage =
      (start + h.run start - (nextPage + 1)) + 1 by omega, Nat.cast_add, Nat.cast_one, add_mul,
      one_mul, add_sub_cancel_right]
  ppn := by
    have hstart := hrun.start_lt
    rw [hrun.ppn, show nextPage + 1 - start = (nextPage - start) + 1 by omega, ← Nat.add_assoc,
      BitVec.ofNat_add _ 1]
    rfl

/-- **The number of the next page**: there is none behind the last page, and elsewhere it is the
number of that page of the helper, contiguous or not. -/
theorem nextPpn_cases (hle : b.nextPage ≤ n)
    (hrun : ∃ start, InRun h b.nextPage b.helperPpn b.helperLength start) :
    (b.nextPage = n ∧ b.nextPpn h = none) ∨
    ∃ length, b.nextPage < n ∧
      b.nextPpn h = some { b with
        helperPpn := BitVec.ofNat 32 (h.ppn b.nextPage), helperLength := length } ∧
      ∃ start, InRun h (b.nextPage + 1) (BitVec.ofNat 32 (h.ppn b.nextPage) + 1)
        (length - pageSize) start := by
  obtain ⟨start, hrun⟩ := hrun
  have hstart : start < n := lt_of_lt_of_le hrun.start_lt hle
  have hend := h.run_le start hstart
  rw [GmrBuilder.nextPpn]
  by_cases hlt : b.nextPage < start + h.run start
  · -- the helper goes on without a gap
    have hpos : b.helperLength > 0 := by
      rw [hrun.length, pageSize]
      omega
    have hppn : b.helperPpn = BitVec.ofNat 32 (h.ppn b.nextPage) := by
      have hnext := h.contiguous start hstart (b.nextPage - start) (by have := hrun.start_lt; omega)
      rw [show start + (b.nextPage - start) = b.nextPage by have := hrun.start_lt; omega] at hnext
      rw [hrun.ppn, hnext]
    rw [if_pos hpos]
    refine .inr ⟨b.helperLength, lt_of_lt_of_le hlt hend, ?_, start, hppn ▸ hrun.next hlt⟩
    rw [← hppn]
  · have hzero : ¬ b.helperLength > 0 := by
      rw [hrun.length, pageSize]
      omega
    rw [if_neg hzero]
    by_cases hmore : b.nextPage < n
    · rw [if_pos hmore]
      exact .inr ⟨_, hmore, rfl, b.nextPage, InRun.enter hmore⟩
    · rw [if_neg hmore]
      exact .inl ⟨by omega, rfl⟩

/-- Storing a descriptor stays in the helper. -/
theorem BuildInv.putRange (hinv : BuildInv h pre b) (seg : PhysicalSegment) :
    ∃ b', b.putRange n seg.descriptor = some b' ∧ b'.inPageCount + 1 = b.inPageCount ∧
      b'.nextPage = b.nextPage ∧ b'.slot + b'.inPageCount + 1 = b.nextPage * slotsPerPage ∧
      Filled h (pre ++ [seg]) b.nextPage b'.slot b'.table ∧
      ∃ start, InRun h b'.nextPage b'.helperPpn b'.helperLength start := by
  obtain ⟨⟨hpos, hle⟩, ⟨hroom, hroom'⟩, hcount, hslot, hfilled, hrun⟩ := hinv
  have hinside : b.slot < n * slotsPerPage := by
    have hmul : b.nextPage * slotsPerPage ≤ n * slotsPerPage := Nat.mul_le_mul_right _ hle
    omega
  have hplace : b.slot = rangeSlot pre.length := by
    rw [rangeSlot]
    simp only [dpp, slotsPerPage] at *
    omega
  rw [GmrBuilder.putRange, if_pos hinside]
  refine ⟨_, rfl, ?_, rfl, ?_, hfilled.putRange hplace ?_, hrun⟩
  · show b.inPageCount - 1 + 1 = _
    omega
  · show b.slot + 1 + (b.inPageCount - 1) + 1 = _
    omega
  · simp only [dpp, slotsPerPage] at *
    omega

/-- The table is done when all the segments are behind the loop. -/
theorem BuildInv.built (hinv : BuildInv h segments b)
    (hn : n = (segments.length + (dpp - 1)) / dpp) : Built h segments b.table := by
  obtain ⟨⟨hpos, hle⟩, ⟨hroom, hroom'⟩, hcount, hslot, hfilled, -⟩ := hinv
  -- the loop is in the last page
  have hlast : b.nextPage = n := by
    simp only [dpp] at *
    omega
  refine ⟨hfilled.ranges, fun page hpage => hfilled.links page (hlast ▸ hpage),
    fun page slot hpage hslot' hcount' => hfilled.rest _ ?_⟩
  simp only [dpp, slotsPerPage] at *
  omega

/-- The table is done when the loop is left at the end of the last page. -/
theorem Filled.built {slot : ℕ} {table : ℕ → SVGAGuestMemDescriptor}
    (hfilled : Filled h segments n slot table) (hslot : slot + 1 = n * slotsPerPage)
    (hcount : segments.length = n * dpp) : Built h segments table := by
  refine ⟨hfilled.ranges, hfilled.links, fun page slot' hpage hslot' hcount' =>
    hfilled.rest _ ?_⟩
  simp only [dpp, slotsPerPage] at *
  omega

/-- **The building loop** stays in the helper, and builds the table. -/
theorem buildLoop_spec (hn : n = (segments.length + (dpp - 1)) / dpp)
    (rest : List PhysicalSegment) (hsegments : segments = pre ++ rest)
    (hinv : BuildInv h pre b) :
    ∃ b', buildLoop h rest b = some b' ∧ Built h segments b'.table := by
  induction rest generalizing pre b with
  | nil =>
      rw [List.append_nil] at hsegments
      subst hsegments
      exact ⟨b, rfl, hinv.built hn⟩
  | cons seg rest ih =>
      have hsegments' : segments = (pre ++ [seg]) ++ rest := by
        rw [hsegments, List.append_assoc]
        rfl
      obtain ⟨b₁, hput, hroom, hpage, hslot, hfilled, hrun⟩ := hinv.putRange seg
      obtain ⟨hpages, hrooms, hcount, -⟩ := hinv
      have hcount₁ : (pre ++ [seg]).length + b₁.inPageCount = b.nextPage * dpp := by
        rw [List.length_append, List.length_singleton]
        omega
      rw [buildLoop, hput]
      simp only [Option.bind_eq_bind, Option.bind_some]
      by_cases hfull : b₁.inPageCount = 0
      · rw [if_neg (not_not.mpr hfull)]
        rw [hfull] at hcount₁ hslot
        rcases nextPpn_cases (hpage ▸ hpages.2) hrun with ⟨hlast, hnext⟩ |
          ⟨length, hmore, hnext, hrun'⟩
        · -- the last page is full: there is no segment left
          have hdone : rest = [] := by
            have hlength := congrArg List.length hsegments'
            rw [List.length_append] at hlength
            refine List.eq_nil_of_length_eq_zero ?_
            simp only [dpp] at *
            omega
          subst hdone
          rw [List.append_nil] at hsegments'
          subst hsegments'
          rw [hpage] at hlast
          rw [hlast] at hfilled hcount₁ hslot
          rw [hnext]
          exact ⟨b₁, rfl, hfilled.built hslot hcount₁⟩
        · -- the loop goes on in the next page
          rw [hpage] at hmore hnext hrun'
          have hinside : b₁.slot < n * slotsPerPage := by
            have hmul : b.nextPage * slotsPerPage ≤ n * slotsPerPage :=
              Nat.mul_le_mul_right _ hmore.le
            omega
          rw [hnext]
          simp only [GmrBuilder.putLink, if_pos hinside, Option.bind_some]
          refine ih hsegments' ⟨⟨Nat.le_add_left 1 _, hmore⟩,
            ⟨(show 1 ≤ dpp by decide), le_rfl⟩, ?_,
            ?_, hfilled.putLink hslot hcount₁, hrun'⟩
          · show (pre ++ [seg]).length + dpp = (b.nextPage + 1) * dpp
            rw [Nat.succ_mul]
            omega
          · show b.nextPage * slotsPerPage + dpp + 1 = (b.nextPage + 1) * slotsPerPage
            rw [Nat.succ_mul, Nat.add_assoc]
            exact congrArg (_ + ·) (show dpp + 1 = slotsPerPage from rfl)
      · rw [if_pos hfull]
        refine ih hsegments' ⟨hpage ▸ hpages, ⟨by omega, by omega⟩, hpage ▸ hcount₁,
          hpage ▸ hslot, hpage ▸ hfilled, hrun⟩

/-- The loop starts with a table of zeros. -/
theorem BuildInv.start (hn : n = (segments.length + (dpp - 1)) / dpp)
    (hpos : 0 < segments.length) : BuildInv h [] (startBuilder h) := by
  have hpages : 0 < n := by
    simp only [dpp] at hn
    omega
  refine ⟨⟨le_rfl, hpages⟩, ⟨(show 1 ≤ dpp by decide), le_rfl⟩, (show 0 + dpp = 1 * dpp by decide),
    (show 0 + dpp + 1 = 1 * slotsPerPage by decide), ?_, 0, InRun.enter hpages⟩
  refine ⟨fun i seg hi => (by cases hi), fun page hpage => ?_, fun _ _ => rfl⟩
  exact absurd hpage (by show ¬ page + 1 < 1; omega)

end Building

/-! ### The walk -/

/-- The words of a descriptor tell its range when it has fewer than `2 ^ 32` pages. -/
theorem descriptor_toNat {seg : PhysicalSegment} (haddr : seg.addr < 2 ^ maxBits)
    (hcount : seg.pageCount < 2 ^ 32) :
    seg.descriptor.ppn.toNat = seg.firstPage ∧ seg.descriptor.numPages.toNat = seg.pageCount := by
  constructor
  · rw [PhysicalSegment.descriptor, PhysicalSegment.firstPage, BitVec.toNat_ofNat]
    simp only [maxBits, pageSize] at *
    omega
  · rw [seg.pageCount_eq] at hcount
    rw [PhysicalSegment.descriptor, BitVec.toNat_ofNat, seg.pageCount_eq]
    simp only [pageSize] at *
    omega

namespace GmrDefinition

variable {g : GmrDefinition} {segments : List PhysicalSegment}

/-- The device reads the pages of the helper. -/
theorem read_page {page slot : ℕ} (hpage : page < g.numPages) (hslot : slot ≤ dpp) :
    g.read (g.helper.ppn page) slot = some (g.table (page * slotsPerPage + slot)) := by
  have hlt : slot < slotsPerPage := Nat.lt_succ_of_le hslot
  have hfind : (List.range g.numPages).find? (fun i => g.helper.ppn i = g.helper.ppn page) =
      some page := by
    rw [List.find?_range_eq_some]
    refine ⟨by simp, List.mem_range.mpr hpage, fun i hi => ?_⟩
    -- no other page of the helper has its number
    simp only [Bool.not_eq_true', decide_eq_false_iff_not]
    exact fun heq => hi.ne (g.helper.ppn_inj i (hi.trans hpage) page hpage heq)
  rw [read, if_pos hlt, hfind, Option.map_some]

/-- All ranges that a walk finds have fewer than `2 ^ 32` pages. -/
theorem walk_lt {fuel ppn slot : ℕ} {l : List (ℕ × ℕ)} (hwalk : g.walk fuel ppn slot = some l) :
    ∀ r ∈ l, r.2 < 2 ^ 32 := by
  induction fuel generalizing ppn slot l with
  | zero => cases hwalk
  | succ fuel ih =>
      rw [walk] at hwalk
      split at hwalk
      · cases hwalk
      · rename_i d _
        split at hwalk
        · rw [Option.map_eq_some_iff] at hwalk
          obtain ⟨l', hl', rfl⟩ := hwalk
          rintro r (_ | ⟨_, hr⟩)
          · exact d.numPages.isLt
          · exact ih hl' r hr
        · split at hwalk
          · exact ih hwalk
          · cases hwalk
            exact fun r hr => absurd hr List.not_mem_nil

/-- The walk from a slot of a page on finds the ranges of the segments from there on. -/
def WalksFrom (g : GmrDefinition) (segments : List PhysicalSegment) (page slot : ℕ) : Prop :=
  ∃ fuel, g.walk fuel (g.helper.ppn page) slot =
    some ((segments.drop (page * dpp + slot)).map fun seg => (seg.firstPage, seg.pageCount))

/-- The walk ends behind the last descriptor. -/
theorem walksFrom_end (hbuilt : Built g.helper segments g.table) {page slot : ℕ}
    (hpage : page < g.numPages) (hslot : slot ≤ dpp)
    (hend : page * dpp + slot = segments.length) : g.WalksFrom segments page slot := by
  refine ⟨1, ?_⟩
  rw [walk, read_page hpage hslot, hbuilt.ended page slot hpage hslot hend, hend,
    List.drop_length]
  rfl

/-- A descriptor is a range. -/
theorem walksFrom_range (hbuilt : Built g.helper segments g.table)
    (haddr : ∀ seg ∈ segments, seg.addr < 2 ^ maxBits)
    (hcount : ∀ seg ∈ segments, seg.pageCount < 2 ^ 32) {page slot : ℕ}
    (hpage : page < g.numPages) (hslot : slot < dpp)
    (hlt : page * dpp + slot < segments.length) (hrest : g.WalksFrom segments page (slot + 1)) :
    g.WalksFrom segments page slot := by
  obtain ⟨fuel, hfuel⟩ := hrest
  have hget := List.getElem?_eq_getElem hlt
  have hmem : segments[page * dpp + slot] ∈ segments := List.getElem_mem hlt
  have htable := hbuilt.ranges _ _ hget
  rw [rangeSlot_eq hslot rfl] at htable
  obtain ⟨hppn, hnum⟩ := descriptor_toNat (haddr _ hmem) (hcount _ hmem)
  have hpos := (segments[page * dpp + slot]).pageCount_pos
  have hne : (segments[page * dpp + slot]).descriptor.numPages ≠ 0 := by
    intro hzero
    rw [hzero] at hnum
    exact hpos.ne hnum
  refine ⟨fuel + 1, ?_⟩
  rw [walk, read_page hpage hslot.le, htable]
  simp only [if_pos hne, hppn, hnum, hfuel, Option.map_some]
  rw [List.drop_eq_getElem_cons hlt, List.map_cons, ← Nat.add_assoc]

/-- The last slot of a page leads to the next page. -/
theorem walksFrom_link (hbuilt : Built g.helper segments g.table) {page : ℕ}
    (hpage : page + 1 < g.numPages) (hrest : g.WalksFrom segments (page + 1) 0) :
    g.WalksFrom segments page dpp := by
  obtain ⟨fuel, hfuel⟩ := hrest
  have hlt := g.helper.ppn_lt (page + 1) hpage
  have htoNat : (BitVec.ofNat 32 (g.helper.ppn (page + 1))).toNat = g.helper.ppn (page + 1) := by
    rw [BitVec.toNat_ofNat, Nat.mod_eq_of_lt hlt]
  have hne : BitVec.ofNat 32 (g.helper.ppn (page + 1)) ≠ 0 := by
    intro hzero
    rw [hzero] at htoNat
    exact (g.helper.ppn_pos (page + 1) hpage).ne htoNat
  refine ⟨fuel + 1, ?_⟩
  rw [walk, read_page (by omega) le_rfl, hbuilt.links page hpage]
  simp only [ne_eq, not_true_eq_false, if_false, if_pos hne, htoNat, hfuel, Nat.succ_mul,
    Nat.add_zero]

/-- **The walk over the table** finds the page ranges of the segments. -/
theorem walk_ranges (hbuilt : Built g.helper segments g.table)
    (hn : g.numPages = (segments.length + (dpp - 1)) / dpp)
    (haddr : ∀ seg ∈ segments, seg.addr < 2 ^ maxBits)
    (hcount : ∀ seg ∈ segments, seg.pageCount < 2 ^ 32) {page slot : ℕ}
    (hpage : page < g.numPages) (hslot : slot ≤ dpp)
    (hle : page * dpp + slot ≤ segments.length) : g.WalksFrom segments page slot := by
  -- by induction on the number of segments that are left
  generalize hleft : segments.length - (page * dpp + slot) = left
  induction left generalizing page slot with
  | zero => exact walksFrom_end hbuilt hpage hslot (by omega)
  | succ left ih =>
      have hrange : ∀ {page slot : ℕ}, page < g.numPages → slot < dpp →
          segments.length - (page * dpp + slot) = left + 1 → g.WalksFrom segments page slot :=
        fun hpage hslot hleft => walksFrom_range hbuilt haddr hcount hpage hslot (by omega)
          (ih hpage hslot (by omega) (by omega))
      by_cases hlast : slot = dpp
      · subst hlast
        have hmore : page + 1 < g.numPages := by
          rw [hn]
          simp only [dpp] at *
          omega
        exact walksFrom_link hbuilt hmore (hrange hmore (by decide) (by
          rw [Nat.succ_mul]
          omega))
      · exact hrange hpage (by omega) hleft

end GmrDefinition

/-! ### The chain -/

/-- **What `createGMR` promises**: no store misses the helper, and when it succeeds, the walk from
the page number in the descriptor register stays in the helper and finds the page ranges of the
memory. -/
structure BuildsChain (gmrId : BitVec 32) (md : Option PhysicalMemory)
    (res : Option (IOReturn × Option GmrDefinition)) : Prop where
  inside : res ≠ none
  chain : ∀ made, res = some (.success, made) → ∃ m g ppn, md = some m ∧ made = some g ∧
    g.writes = [(.gmrId, gmrId), (.gmrDescriptor, ppn)] ∧
    ∃ fuel, g.walk fuel ppn.toNat 0 = some m.pageRanges

/-- The call is not turned away: it comes to the building loop. -/
structure ComesToTable (cfg : GmrConfig) (m : PhysicalMemory)
    (helper : (n : ℕ) → Option (HelperPages n)) (prepare : IOReturn) : Prop where
  framebuffer : cfg.haveFramebuffer = true
  capability : cfg.hasGMR = true
  inReach : ∀ seg ∈ m.segments, seg.addr < 2 ^ maxBits
  ranges : m.segments.length ≠ 0
  limit : m.segments.length + (m.segments.length + (dpp - 1)) / dpp ≤ cfg.maxGMRDescriptorLength
  helper : (helper ((m.segments.length + (dpp - 1)) / dpp)).isSome = true
  prepared : prepare = .success

/-- A count that succeeds is that of the segments, all of them in reach. -/
theorem countRanges_eq_some {segments : List PhysicalSegment} {k : ℕ}
    (h : countRanges segments = some k) :
    k = segments.length ∧ ∀ seg ∈ segments, seg.addr < 2 ^ maxBits := by
  induction segments generalizing k with
  | nil =>
      cases h
      exact ⟨rfl, fun seg hseg => absurd hseg List.not_mem_nil⟩
  | cons seg segments ih =>
      rw [countRanges] at h
      split at h
      · cases h
      · rename_i hreach
        rw [Option.map_eq_some_iff] at h
        obtain ⟨k', hk', rfl⟩ := h
        obtain ⟨rfl, hrest⟩ := ih hk'
        refine ⟨rfl, fun seg' hseg' => ?_⟩
        rcases List.mem_cons.mp hseg' with rfl | hseg'
        · exact (Nat.div_eq_zero_iff_lt (Nat.two_pow_pos _)).mp (not_not.mp hreach)
        · exact hrest seg' hseg'

/-- With all segments in reach the count succeeds. -/
theorem countRanges_of_inReach {segments : List PhysicalSegment}
    (h : ∀ seg ∈ segments, seg.addr < 2 ^ maxBits) :
    countRanges segments = some segments.length := by
  induction segments with
  | nil => rfl
  | cons seg segments ih =>
      have hreach : ¬ seg.addr / 2 ^ maxBits ≠ 0 :=
        not_not.mpr (Nat.div_eq_of_lt (h seg List.mem_cons_self))
      rw [countRanges, if_neg hreach, ih fun seg' hseg' => h seg' (List.mem_cons_of_mem _ hseg')]
      rfl

/-- **The two ways of `createGMR`**: it is turned away, or it builds a table for the walk. -/
theorem createGMR_cases (cfg : GmrConfig) (gmrId : BitVec 32) (md : Option PhysicalMemory)
    (helper : (n : ℕ) → Option (HelperPages n)) (prepare : IOReturn) :
    (∃ rc, rc ≠ .success ∧ createGMR cfg gmrId md helper prepare = some (rc, none) ∧
      ∀ m, md = some m → ¬ ComesToTable cfg m helper prepare) ∨
    ∃ m g, md = some m ∧ ComesToTable cfg m helper prepare ∧
      createGMR cfg gmrId md helper prepare = some (.success, some g) ∧
      g.numPages = (m.segments.length + (dpp - 1)) / dpp ∧
      Built g.helper m.segments g.table ∧
      g.writes = [(.gmrId, gmrId), (.gmrDescriptor, BitVec.ofNat 32 (g.helper.ppn 0))] := by
  rcases md with _ | m
  · exact .inl ⟨.badArgument, by decide, rfl, fun m hm => by cases hm⟩
  rw [createGMR]
  split
  · rename_i hframebuffer
    refine .inl ⟨.noDevice, by decide, rfl, fun _ hm hcomes => ?_⟩
    simp [hcomes.framebuffer] at hframebuffer
  rename_i hframebuffer
  split
  · rename_i hcapability
    refine .inl ⟨.unsupported, by decide, rfl, fun _ hm hcomes => ?_⟩
    simp [hcomes.capability] at hcapability
  rename_i hcapability
  split
  · rename_i hcount
    refine .inl ⟨.unsupported, by decide, rfl, fun _ hm hcomes => ?_⟩
    cases hm
    rw [countRanges_of_inReach hcomes.inReach] at hcount
    cases hcount
  rename_i numPhysicalRanges hcount
  obtain ⟨rfl, hreach⟩ := countRanges_eq_some hcount
  split
  · rename_i hnone
    refine .inl ⟨.badArgument, by decide, rfl, fun _ hm hcomes => ?_⟩
    cases hm
    exact hcomes.ranges hnone
  rename_i hsome
  dsimp only
  split
  · rename_i hlimit
    refine .inl ⟨.noResources, by decide, rfl, fun _ hm hcomes => ?_⟩
    cases hm
    exact absurd hcomes.limit (by omega)
  rename_i hlimit
  split
  · rename_i hhelper
    refine .inl ⟨.noResources, by decide, rfl, fun _ hm hcomes => ?_⟩
    cases hm
    have hisSome := hcomes.helper
    rw [hhelper] at hisSome
    cases hisSome
  rename_i pages hhelper
  split
  · rename_i hprepare
    exact .inl ⟨prepare, hprepare, rfl, fun _ hm hcomes => hprepare hcomes.prepared⟩
  rename_i hprepare
  have hstart : BuildInv pages [] (startBuilder pages) :=
    BuildInv.start rfl (Nat.pos_of_ne_zero hsome)
  obtain ⟨b, hbuild, hbuilt⟩ := buildLoop_spec rfl m.segments (List.nil_append _).symm hstart
  have hcomes : ComesToTable cfg m helper prepare :=
    ⟨by simpa using hframebuffer, by simpa using hcapability, hreach, hsome, by omega,
      by rw [hhelper]; rfl, not_not.mp hprepare⟩
  rw [hbuild, defineGMR, if_neg hcapability]
  exact .inr ⟨m, _, rfl, hcomes, rfl, rfl, hbuilt, rfl⟩

/-- **The descriptor chain.** The walk finds the page ranges of the memory exactly when the page
counts of its segments fit their words. -/
theorem createGMR_chain_iff (cfg : GmrConfig) (gmrId : BitVec 32) (md : Option PhysicalMemory)
    (helper : (n : ℕ) → Option (HelperPages n)) (prepare : IOReturn) :
    BuildsChain gmrId md (createGMR cfg gmrId md helper prepare) ↔
      ∀ m, md = some m → ComesToTable cfg m helper prepare →
        ∀ seg ∈ m.segments, seg.pageCount < 2 ^ 32 := by
  rcases createGMR_cases cfg gmrId md helper prepare with ⟨rc, hrc, hres, hnot⟩ |
    ⟨m, g, rfl, hcomes, hres, hn, hbuilt, hwrites⟩
  · -- the call is turned away
    refine ⟨fun _ m hm hcomes => absurd hcomes (hnot m hm), fun _ => ⟨by rw [hres]; simp, ?_⟩⟩
    intro made hmade
    rw [hres] at hmade
    cases hmade
    exact absurd rfl hrc
  · have hpages : 0 < g.numPages := by
      have hsome := hcomes.ranges
      rw [hn]
      simp only [dpp]
      omega
    have hstart : (BitVec.ofNat 32 (g.helper.ppn 0)).toNat = g.helper.ppn 0 := by
      rw [BitVec.toNat_ofNat, Nat.mod_eq_of_lt (g.helper.ppn_lt 0 hpages)]
    rw [hres]
    constructor
    · intro hchain m' hm' _ seg hseg
      cases hm'
      obtain ⟨_, _, ppn, hm, hg, -, fuel, hwalk⟩ := hchain.chain _ rfl
      cases hm
      cases hg
      exact GmrDefinition.walk_lt hwalk _ (List.mem_map_of_mem hseg)
    · intro hcount
      refine ⟨by simp, fun made hmade => ?_⟩
      cases hmade
      obtain ⟨fuel, hfuel⟩ := GmrDefinition.walk_ranges hbuilt hn hcomes.inReach
        (hcount m rfl hcomes) hpages (Nat.zero_le dpp) (Nat.zero_le _)
      refine ⟨m, g, _, rfl, rfl, hwrites, fuel, ?_⟩
      rw [hstart, hfuel, Nat.zero_mul, Nat.zero_add, List.drop_zero]
      rfl

/-- A helper without a gap. -/
def contiguousHelper (base n : ℕ) (hbase : 0 < base) (hle : base + n ≤ 2 ^ 32) :
    HelperPages n where
  ppn i := base + i
  run i := n - i
  ppn_pos i _ := Nat.add_pos_left hbase i
  ppn_lt i hi := by omega
  ppn_inj i _ j _ heq := Nat.add_left_cancel heq
  run_pos i hi := Nat.sub_pos_of_lt hi
  run_le i hi := by omega
  contiguous i _ j _ := (Nat.add_assoc base i j).symm

/-- The helper of the examples lies at page `0x100`. -/
def exampleHelper (n : ℕ) : Option (HelperPages n) :=
  if hle : 0x100 + n ≤ 2 ^ 32 then some (contiguousHelper 0x100 n (by decide) hle) else none

/-- A single segment of `2 ^ 32` pages. -/
def hugeSegment : PhysicalSegment := ⟨0x1000, 2 ^ 44, by decide, by decide⟩

/-- The page count of the segment becomes zero, and the device follows its page number. -/
theorem createGMR_chain_broken :
    ¬ BuildsChain 1 (some ⟨[hugeSegment]⟩)
      (createGMR ⟨true, true, 4096⟩ 1 (some ⟨[hugeSegment]⟩) exampleHelper .success) := by
  intro hchain
  have hcomes : ComesToTable ⟨true, true, 4096⟩ ⟨[hugeSegment]⟩ exampleHelper .success :=
    ⟨rfl, rfl, by simp [hugeSegment, maxBits], by decide, by decide, rfl, rfl⟩
  have hlt := (createGMR_chain_iff _ _ _ _ _).mp hchain _ rfl hcomes hugeSegment
    List.mem_cons_self
  exact absurd hlt (by decide)

end DockerMacos
