import DockerMacos.AllocatorRun

/-!
# The Check of `Release`

`Release` must refuse a range that touches a free block, or the same memory would be free
twice. Its check of the bit map is a scan in three parts; the one over whole bytes tells by
the bytes left whether it has found a clear bit, so it does not see one in its last byte.

## What the check sees

`InLastByte` are the bits that the scan of whole bytes looks at last. A range that ends inside a
byte, or has no whole byte, has the other parts of the scan, which are exact. So a free block
escapes the check only if all clear bits of the range lie in that byte.

## What `Release` should do

Two things are asked of it: it refuses a range that touches a free block and changes nothing
(`RefusesFree`), and it makes exactly a range of minimum blocks free that were never released
(`FreesUnreleased`). The second it always does.

## Main results

* `testAll_iff`: what the check of the bit map finds.
* `release_validates`: when `Release` refuses every range that touches a free block, and that
  it makes exactly a range of never released minimum blocks free.
-/

namespace DockerMacos

open VMsvga2Allocator

/-! ### The scan -/

/-- A scan leaves no byte when every byte but the last one matches. -/
theorem scanEqual_eq_zero_iff {map : ByteMap} {value : BitVec 8} {p bytes : ℕ} :
    scanEqual map value p bytes = 0 ↔ ∀ j, p ≤ j → j + 1 < p + bytes → map j = value := by
  induction bytes generalizing p with
  | zero => exact ⟨fun _ j hj hlt => by omega, fun _ => rfl⟩
  | succ bytes ih =>
    rw [scanEqual]
    split
    · next hmatch =>
      rw [ih]
      constructor
      · intro h j hj hlt
        by_cases hjp : j = p
        · exact hjp ▸ hmatch
        · exact h j (by omega) (by omega)
      · intro h j hj hlt
        exact h j (by omega) (by omega)
    · next hmismatch =>
      constructor
      · rintro rfl j hj hlt
        omega
      · intro h
        by_contra hleft
        exact hmismatch (h p le_rfl (by omega))

/-- Bit `n` lies in the last of the whole bytes that the check of `[first, past)` scans. -/
def InLastByte (first past n : ℕ) : Prop :=
  (first + 7) / 8 < past / 8 ∧ n / 8 + 1 = past / 8

instance (first past n : ℕ) : Decidable (InLastByte first past n) :=
  inferInstanceAs (Decidable (_ ∧ _))

/-- `testAll` sees every clear bit but those in the last whole byte. -/
theorem testAll_iff {s : VMsvga2Allocator} {first past : ℕ} :
    s.testAll first past = true ↔
      ∀ n, first ≤ n → n < past → ¬InLastByte first past n → bitTest s.map n = true := by
  simp only [testAll, Bool.and_eq_true, List.all_eq_true, List.mem_range'_1, InLastByte]
  constructor
  · rintro ⟨⟨hhead, hbody⟩, htail⟩ n hfirst hpast hlast
    by_cases hn : n < min past ((first + 7) / 8 * 8)
    · exact hhead n (by omega)
    by_cases hn' : max (past / 8 * 8) (min past ((first + 7) / 8 * 8)) ≤ n
    · exact htail n (by omega)
    rw [if_pos (by omega), memAll, decide_eq_true_iff, scanEqual_eq_zero_iff] at hbody
    exact byte_eq_ones_iff.mp (hbody (n / 8) (by omega) (by omega)) n rfl
  · intro h
    refine ⟨⟨fun n hn => h n (by omega) (by omega) (by omega), ?_⟩,
      fun n hn => h n (by omega) (by omega) (by omega)⟩
    split
    · rw [memAll, decide_eq_true_iff, scanEqual_eq_zero_iff]
      refine fun j h₁ h₂ => byte_eq_ones_iff.mpr fun n hn => ?_
      exact h n (by omega) (by omega) (by omega)
    · rfl

/-! ### Releasing -/

/-- Minimum block `n` belongs to a free block. -/
def FreeCell (lists : ℕ → List ℕ) (n : ℕ) : Prop := ∃ b ∈ freeSet lists, n ∈ b.cells

/-- Minimum block `n` belongs to the range of bytes. -/
def InRange (first past n : ℕ) : Prop := first / 2 ^ minBits ≤ n ∧ n < past / 2 ^ minBits

instance (first past n : ℕ) : Decidable (InRange first past n) :=
  inferInstanceAs (Decidable (_ ∧ _))

/-- `Release` refuses a range that touches a free block, and changes nothing. -/
def RefusesFree (r : AllocRun) (lists : ℕ → List ℕ) (first past : ℕ) : Prop :=
  (∃ n, InRange first past n ∧ FreeCell lists n) →
    ∃ e, e ≠ .success ∧ r.alloc.release first past = (e, r.alloc)

/-- `Release` makes exactly a range of never released minimum blocks free. -/
def FreesUnreleased (r : AllocRun) (lists : ℕ → List ℕ) (first past : ℕ) : Prop :=
  (∀ n, InRange first past n → r.released n = false) →
    ∃ t lists', allocStep r (.release first past) = some t ∧ t.ret = .success ∧
      AllocInv t lists' ∧ ∀ n, FreeCell lists' n ↔ FreeCell lists n ∨ InRange first past n

namespace AllocInv

variable {r : AllocRun} {lists : ℕ → List ℕ} {first past : ℕ}

/-- The mark of a minimum block of a free block is clear. -/
theorem bitTest_of_freeCell (h : AllocInv r lists) {n : ℕ} (hn : FreeCell lists n)
    (hlt : n < r.alloc.poolBlocks) : bitTest r.alloc.map n = false := by
  obtain ⟨b, hb, hnb⟩ := hn
  by_contra hset
  rw [Bool.not_eq_false, h.rep.ends n hlt] at hset
  rcases hset with hunrel | ⟨c, hc, rfl⟩
  · exact h.rep.tiling.avoid b (h.rep.free_mem hb) n hnb (.inl hunrel)
  · have heq := h.rep.tiling.disjoint c (h.rep.live_mem hc) b (h.rep.free_mem hb) c.last
      c.last_mem hnb
    exact h.rep.live_free c hc (heq ▸ hb)

/-- What `Release` makes of an aligned range in the pool. -/
theorem release_eq (r : AllocRun) (hfirst : first % 2 ^ minBits = 0)
    (hpast : past % 2 ^ minBits = 0) (hlt : first < past)
    (hpool : past / 2 ^ minBits ≤ r.alloc.poolBlocks) :
    r.alloc.release first past =
      if r.alloc.testAll (first / 2 ^ minBits) (past / 2 ^ minBits) then
        (.success, (r.alloc.clearAll (first / 2 ^ minBits) (past / 2 ^ minBits)).toFree
          (first / 2 ^ minBits) (past / 2 ^ minBits) false)
      else (.badMedia, r.alloc) := by
  have hin : ¬(first / 2 ^ minBits ≥ r.alloc.poolBlocks ∨
      past / 2 ^ minBits > r.alloc.poolBlocks) := by
    rw [minBits] at *
    omega
  rw [VMsvga2Allocator.release, if_neg (by omega), if_neg (by omega)]
  by_cases htest : r.alloc.testAll (first / 2 ^ minBits) (past / 2 ^ minBits) = true
  · simp only [if_neg hin, clearCheck, if_pos htest]
  · simp only [if_neg hin, clearCheck, if_neg htest]

/-- `Release` leaves the pool where it is. -/
theorem release_poolStart {s a : VMsvga2Allocator} (h : (s.release first past).2 = a) :
    a.poolStart = s.poolStart := by
  subst h
  rw [VMsvga2Allocator.release]
  split_ifs
  · rfl
  · rfl
  · simp only
    split_ifs
    · rfl
    · by_cases htest : s.testAll (first / 2 ^ minBits) (past / 2 ^ minBits) = true
      · simp only [clearCheck, if_pos htest, toFree_poolStart]
        rfl
      · simp only [clearCheck, if_neg htest]

/-- A range that touches a free block is refused exactly when a clear bit outside the last
whole byte gives it away. -/
theorem refusesFree_iff (hfirst : first % 2 ^ minBits = 0) (hpast : past % 2 ^ minBits = 0)
    (hlt : first < past) (hpool : past / 2 ^ minBits ≤ r.alloc.poolBlocks) :
    RefusesFree r lists first past ↔
      ((∃ n, InRange first past n ∧ FreeCell lists n) →
        ∃ n, InRange first past n ∧ bitTest r.alloc.map n = false ∧
          ¬InLastByte (first / 2 ^ minBits) (past / 2 ^ minBits) n) := by
  refine imp_congr_right fun _ => ?_
  have htest : r.alloc.testAll (first / 2 ^ minBits) (past / 2 ^ minBits) = false ↔
      ∃ n, InRange first past n ∧ bitTest r.alloc.map n = false ∧
        ¬InLastByte (first / 2 ^ minBits) (past / 2 ^ minBits) n := by
    rw [← Bool.not_eq_true, testAll_iff]
    push Not
    simp only [InRange, ne_eq, Bool.not_eq_true, and_assoc]
    exact exists_congr fun n => by tauto
  rw [release_eq r hfirst hpast hlt hpool, ← htest]
  constructor
  · rintro ⟨e, hne, heq⟩
    by_contra hpass
    rw [if_pos (by simpa using hpass)] at heq
    exact hne (congrArg Prod.fst heq).symm
  · intro hfail
    exact ⟨.badMedia, by decide, if_neg (by simp [hfail])⟩

/-- **`Release`** of an aligned range of never released minimum blocks of the pool makes
exactly the range free. -/
theorem freesUnreleased (h : AllocInv r lists) (hfirst : first % 2 ^ minBits = 0)
    (hpast : past % 2 ^ minBits = 0) (hlt : first < past)
    (hpool : past / 2 ^ minBits ≤ r.alloc.poolBlocks) : FreesUnreleased r lists first past := by
  intro hunrel
  have hrange : ∀ n < r.alloc.poolBlocks, first / 2 ^ minBits ≤ n → n < past / 2 ^ minBits →
      r.released n = false := fun n _ h₁ h₂ => hunrel n ⟨h₁, h₂⟩
  rcases h.released first past hrange with ⟨-, hbad⟩ | ⟨a, lists', heq, hinv, hblocks, hcut⟩
  · rw [minBits] at *
    omega
  · have hstart := release_poolStart (a := a) (by rw [heq])
    refine ⟨_, lists', ?_, rfl, hinv, fun n => ⟨?_, ?_⟩⟩
    · simp only [allocStep, if_pos hrange, heq, decide_true, Bool.true_and]
    · rintro ⟨b, hb, hn⟩
      rcases hcut.pieces b hb with hold | ⟨hoff, hend, -⟩
      · exact .inl ⟨b, hold, hn⟩
      · exact .inr ⟨hoff.trans hn.1, lt_of_lt_of_le hn.2 hend⟩
    · rintro (⟨b, hb, hn⟩ | ⟨h₁, h₂⟩)
      · exact ⟨b, hcut.keeps b hb, hn⟩
      · rcases hinv.rep.tiling.cover n (by simp only [hblocks]; omega) with (hu | hh) |
          ⟨b, hb | hb, hn⟩
        · have hrel := hu.2
          simp [h₁, h₂] at hrel
        · exact absurd hh (Set.notMem_empty n)
        · simp only [hstart] at hb
          exact absurd (.inl ⟨by omega, hunrel n ⟨h₁, h₂⟩⟩)
            (h.rep.tiling.avoid b (h.rep.live_mem hb) n hn)
        · exact ⟨b, hb, hn⟩

/-- **The check of `Release`.** It refuses every range that touches a free block, and makes a
range of never released minimum blocks free, exactly when no free block hides in the last
whole byte of the range. -/
theorem release_validates (h : AllocInv r lists) (hfirst : first % 2 ^ minBits = 0)
    (hpast : past % 2 ^ minBits = 0) (hlt : first < past)
    (hpool : past / 2 ^ minBits ≤ r.alloc.poolBlocks) :
    RefusesFree r lists first past ∧ FreesUnreleased r lists first past ↔
      ((∃ n, InRange first past n ∧ FreeCell lists n) →
        ∃ n, InRange first past n ∧ bitTest r.alloc.map n = false ∧
          ¬InLastByte (first / 2 ^ minBits) (past / 2 ^ minBits) n) := by
  rw [and_iff_left (h.freesUnreleased hfirst hpast hlt hpool),
    refusesFree_iff hfirst hpast hlt hpool]

end AllocInv

/-- A pool of eight pages, after `Init`. -/
def eightPages : AllocRun := allocStart (freshAllocator.init 0x100000 0x8000 true fun _ => 0).2

/-- The state after the first pages of the pool have been released. -/
theorem eightPages_release (past : ℕ) (hpast : past % 2 ^ minBits = 0) (hpos : 0 < past)
    (hpool : past / 2 ^ minBits ≤ 8) :
    ∃ t lists, allocStep eightPages (.release 0 past) = some t ∧ AllocInv t lists ∧
      FreeCell lists 0 := by
  have hinit : freshAllocator.init 0x100000 0x8000 true (fun _ => 0) = (.success, _) := rfl
  obtain ⟨t, lists, hstep, -, hinv, hfree⟩ := (AllocInv.start (by decide) hinit).freesUnreleased
    (by decide) hpast hpos hpool fun n _ => rfl
  refine ⟨t, lists, hstep, hinv, (hfree 0).mpr (.inr ⟨by decide, ?_⟩)⟩
  rw [minBits] at *
  omega

/-- A page that is free is not released again. -/
theorem release_validates_page :
    ∃ t lists, allocStep eightPages (.release 0 0x2000) = some t ∧ AllocInv t lists ∧
      FreeCell lists 0 ∧ RefusesFree t lists 0 0x1000 ∧ FreesUnreleased t lists 0 0x1000 := by
  obtain ⟨t, lists, hstep, hinv, hfree⟩ :=
    eightPages_release 0x2000 (by decide) (by decide) (by decide)
  have hblocks : (allocStep eightPages (.release 0 0x2000)).map (fun t => t.alloc.poolBlocks) =
      some 8 := by decide +kernel
  rw [hstep] at hblocks
  have hpool : t.alloc.poolBlocks = 8 := Option.some.inj hblocks
  refine ⟨t, lists, hstep, hinv, hfree, (hinv.release_validates (by decide) (by decide)
    (by decide) (by rw [hpool]; decide)).mpr fun _ => ⟨0, by decide, ?_, by decide⟩⟩
  exact hinv.bitTest_of_freeCell hfree (by rw [hpool]; decide)

/-- Eight pages that share a byte of the bit map can be released twice. -/
theorem release_twice :
    ∃ t lists, allocStep eightPages (.release 0 0x8000) = some t ∧ AllocInv t lists ∧
      ¬(RefusesFree t lists 0 0x8000 ∧ FreesUnreleased t lists 0 0x8000) := by
  obtain ⟨t, lists, hstep, hinv, hfree⟩ :=
    eightPages_release 0x8000 (by decide) (by decide) (by decide)
  refine ⟨t, lists, hstep, hinv, fun ⟨hrefuses, _⟩ => ?_⟩
  obtain ⟨e, hne, heq⟩ := hrefuses ⟨0, by decide, hfree⟩
  have hagain : (allocStep eightPages (.release 0 0x8000)).map
      (fun t => (t.alloc.release 0 0x8000).1) = some .success := by decide +kernel
  rw [hstep] at hagain
  exact hne ((congrArg Prod.fst heq).symm.trans (Option.some.inj hagain))

end DockerMacos
