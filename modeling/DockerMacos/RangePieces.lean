import Mathlib.Computability.StateTransition
import Mathlib.Data.Set.Lattice
import DockerMacos.AllocatorRun

/-!
# The Pieces of a Range

`toFree` (`AC/VMsvga2Allocator.cpp`) cuts a range of minimum blocks into pieces for the free
lists. It carries the size of a piece over to the next one: a first inner loop doubles it as
long as the larger piece fits and is on a boundary, a second one halves it until it does.

## Step by step

`VMsvga2Allocator.toFree` has these loops as recursive functions. Here they are a program that
goes step by step, with the variables of the source in 32-bit arithmetic, and writes down its
calls of `makeFree`. A run ends when no step is left, so that nothing but the program itself
bounds the loops.

## Turns

A turn of the outer loop begins with some size of the piece before. Whatever that size is, the
inner loops bring it to the largest one that may stand at the start of what is left: so a turn
cuts the largest piece, and the pieces of the turns together are the range.

## Main results

* `RangeCut.cons`: the largest piece at the start of a range, before a cut of the rest.
* `ToFreeFrame.reaches_turn`: a turn of the outer loop, from any size of the piece before.
* `toFree_pieces`: the run ends, never takes the `break`, and cuts the range.
-/

namespace DockerMacos

/-! ### Cuts of a range -/

/-- The arguments of a call of `makeFree`. -/
structure MakeFreeCall where
  firstFree : ℕ
  bitsFree : ℕ
  deriving DecidableEq

/-- The minimum blocks that a call of `makeFree` is given. -/
def MakeFreeCall.cells (c : MakeFreeCall) : Set ℕ :=
  Set.Ico c.firstFree (c.firstFree + 2 ^ c.bitsFree)

/-- The calls cut the range `[first, past)` into pieces: they are disjoint and make up the
range, and each is the largest of the listed sizes that may start where it does. -/
structure RangeCut (first past : ℕ) (calls : List MakeFreeCall) : Prop where
  disjoint : calls.Pairwise fun c d => ∀ n ∈ c.cells, n ∉ d.cells
  cover : ⋃ c ∈ calls, c.cells = Set.Ico first past
  bits_lt : ∀ c ∈ calls, c.bitsFree < numSizes
  aligned : ∀ c ∈ calls, 2 ^ c.bitsFree ∣ c.firstFree
  largest : ∀ c ∈ calls, ∀ k < numSizes, Fits c.firstFree past k → k ≤ c.bitsFree

namespace RangeCut

variable {i past u : ℕ} {calls : List MakeFreeCall}

/-- An empty range has no pieces. -/
theorem nil (h : past ≤ i) : RangeCut i past [] where
  disjoint := List.Pairwise.nil
  cover := by simp [Set.Ico_eq_empty_of_le h]
  bits_lt _ hc := absurd hc List.not_mem_nil
  aligned _ hc := absurd hc List.not_mem_nil
  largest _ hc := absurd hc List.not_mem_nil

/-- A piece lies in the range. -/
theorem cells_subset (h : RangeCut i past calls) {c : MakeFreeCall} (hc : c ∈ calls) :
    c.cells ⊆ Set.Ico i past :=
  h.cover ▸ Set.subset_biUnion_of_mem (u := fun c : MakeFreeCall => c.cells) hc

/-- The largest piece at the start of a range, and a cut of what is left of it. -/
theorem cons (hu : u < numSizes) (hfits : Fits i past u)
    (hmax : ∀ v < numSizes, Fits i past v → v ≤ u) (h : RangeCut (i + 2 ^ u) past calls) :
    RangeCut i past (⟨i, u⟩ :: calls) where
  disjoint := by
    refine List.pairwise_cons.mpr ⟨fun c hc n hn hnc => ?_, h.disjoint⟩
    exact absurd hn.2 (not_lt.mpr (h.cells_subset hc hnc).1)
  cover := by
    have hcells : MakeFreeCall.cells ⟨i, u⟩ = Set.Ico i (i + 2 ^ u) := rfl
    calc ⋃ c ∈ (⟨i, u⟩ : MakeFreeCall) :: calls, c.cells
        = Set.Ico i (i + 2 ^ u) ∪ ⋃ c ∈ calls, c.cells := by
          simp only [List.mem_cons, Set.iUnion_iUnion_eq_or_left, hcells]
      _ = Set.Ico i (i + 2 ^ u) ∪ Set.Ico (i + 2 ^ u) past := by rw [h.cover]
      _ = Set.Ico i past := Set.Ico_union_Ico_eq_Ico (Nat.le_add_right _ _) hfits.2
  bits_lt := List.forall_mem_cons.mpr ⟨hu, h.bits_lt⟩
  aligned := List.forall_mem_cons.mpr ⟨hfits.1, h.aligned⟩
  largest := List.forall_mem_cons.mpr ⟨hmax, h.largest⟩

end RangeCut

/-! ### The program -/

/-- The places in `toFree`. -/
inductive ToFreePlace
  /-- The condition of the outer loop. -/
  | test
  /-- The head of the first inner loop. -/
  | grow
  /-- The head of the second inner loop. -/
  | shrink
  /-- The end of the body, with the call of `makeFree`. -/
  | call
  /-- After the condition of the outer loop has failed. -/
  | finished
  /-- After the `break` for a negative `tryBits`. -/
  | gaveUp
  deriving DecidableEq

/-- The variables of `toFree`, the place it is at, and its calls of `makeFree` so far. -/
structure ToFreeFrame where
  place : ToFreePlace
  i : ℕ
  tryLen : ℕ
  tryBits : ℤ
  alloc : VMsvga2Allocator
  calls : List MakeFreeCall

/-- `--tryBits, tryLen >>= 1`. -/
def ToFreeFrame.smaller (f : ToFreeFrame) : ToFreeFrame :=
  { f with tryBits := f.tryBits - 1, tryLen := f.tryLen / 2 }

/-- One step of `toFree`. -/
def toFreeStep (pastBlock : ℕ) (zap : Bool) (f : ToFreeFrame) : Option ToFreeFrame :=
  match f.place with
  | .test => some { f with place := if f.i < pastBlock then .grow else .finished }
  | .grow =>
      if f.tryBits < numSizes - 1 then
        let nextLen := shl32 f.tryLen 1
        if add32 f.i nextLen > pastBlock then some { f with place := .shrink }
        else if f.i &&& sub32 nextLen 1 ≠ 0 then some { f with place := .shrink }
        else some { f with tryLen := nextLen, tryBits := f.tryBits + 1 }
      else some { f with place := .shrink }
  | .shrink =>
      if f.tryBits ≥ 0 then
        if add32 f.i f.tryLen > pastBlock then some f.smaller
        else if f.i &&& sub32 f.tryLen 1 ≠ 0 then some f.smaller
        else some { f with place := .call }
      else some { f with place := .call }
  | .call =>
      match f.tryBits with
      | .negSucc _ => some { f with place := .gaveUp }
      | .ofNat bits =>
          some { f with
            place := .test
            i := add32 f.i f.tryLen
            alloc := f.alloc.makeFree f.i bits zap
            calls := f.calls ++ [⟨f.i, bits⟩] }
  | .finished => none
  | .gaveUp => none

/-- `toFree` at its start. -/
def toFreeStart (s : VMsvga2Allocator) (firstBlock : ℕ) : ToFreeFrame where
  place := .test
  i := firstBlock
  tryLen := 1
  tryBits := 0
  alloc := s
  calls := []

/-! ### Sizes in 32 bits -/

/-- The sizes of the lists go up to `2 ^ 12` minimum blocks. -/
theorem listedSize_le {t : ℕ} (ht : t < numSizes) : 2 ^ t ≤ 2 ^ 12 :=
  Nat.pow_le_pow_right (by omega) (Nat.le_of_lt_succ ht)

/-- Doubling a size below the largest does not overflow. -/
theorem shl32_two_pow {t : ℕ} (ht : t + 1 < numSizes) : shl32 (2 ^ t) 1 = 2 ^ (t + 1) := by
  have hle := listedSize_le ht
  exact shl32_of_lt (show 2 ^ (t + 1) < 2 ^ 32 by omega)

/-- Neither does the end of a piece that starts inside the pool. -/
theorem add32_two_pow {i t : ℕ} (hi : i < 2 ^ 20) (ht : t < numSizes) :
    add32 i (2 ^ t) = i + 2 ^ t := by
  have hle := listedSize_le ht
  exact add32_of_lt (by omega)

/-- Nor does the mask of a size. -/
theorem sub32_two_pow {t : ℕ} (ht : t < numSizes) : sub32 (2 ^ t) 1 = 2 ^ t - 1 := by
  have hle := listedSize_le ht
  exact sub32_of_le Nat.one_le_two_pow (by omega)

/-! ### Runs of the loops -/

/-- A state of `toFree` in which the size is `2 ^ tryBits`. -/
def ToFreeFrame.sized (place : ToFreePlace) (i tryBits : ℕ) (alloc : VMsvga2Allocator)
    (calls : List MakeFreeCall) : ToFreeFrame :=
  ⟨place, i, 2 ^ tryBits, tryBits, alloc, calls⟩

namespace ToFreeFrame

open StateTransition VMsvga2Allocator

variable {past i t u : ℕ} {zap : Bool} {s : VMsvga2Allocator} {calls : List MakeFreeCall}

/-- The outer loop goes on before the end of the range. -/
theorem step_test (hi : i < past) :
    toFreeStep past zap (sized .test i t s calls) = some (sized .grow i t s calls) := by
  simp only [toFreeStep, sized, hi, if_true]

/-- It ends there. -/
theorem step_test_end (hi : ¬ i < past) :
    toFreeStep past zap (sized .test i t s calls) = some (sized .finished i t s calls) := by
  simp only [toFreeStep, sized, hi, if_false]

/-- A turn of the first inner loop. -/
theorem step_grow (hi : i < 2 ^ 20) (ht : t + 1 < numSizes) :
    toFreeStep past zap (sized .grow i t s calls) =
      if i + 2 ^ (t + 1) > past then some (sized .shrink i t s calls)
      else if i &&& (2 ^ (t + 1) - 1) ≠ 0 then some (sized .shrink i t s calls)
      else some (sized .grow i (t + 1) s calls) := by
  have hlt : (t : ℤ) < numSizes - 1 := by omega
  simp only [toFreeStep, sized, hlt, if_true, shl32_two_pow ht, add32_two_pow hi ht,
    sub32_two_pow ht, Nat.cast_succ]

/-- The first inner loop ends with the size that `growTry` computes. -/
theorem reaches_grow (hi : i < 2 ^ 20) (left : ℕ) (ht : t + left + 1 = numSizes) :
    Reaches (toFreeStep past zap) (sized .grow i t s calls)
      (sized .shrink i (growTry i past left t) s calls) := by
  induction left generalizing t with
  | zero =>
      refine .single ?_
      have hlt : ¬ (t : ℤ) < numSizes - 1 := by omega
      simp only [toFreeStep, sized, hlt, if_false, growTry, Option.mem_def]
  | succ left ih =>
      have hstep : toFreeStep past zap (sized .grow i t s calls) = _ :=
        step_grow hi (show t + 1 < numSizes by omega)
      rw [growTry]
      by_cases hlen : i + 2 ^ (t + 1) > past
      · rw [if_pos hlen] at hstep ⊢
        exact .single hstep
      · rw [if_neg hlen] at hstep ⊢
        by_cases hmask : i &&& (2 ^ (t + 1) - 1) ≠ 0
        · rw [if_pos hmask] at hstep ⊢
          exact .single hstep
        · rw [if_neg hmask] at hstep ⊢
          exact .head hstep (ih (by omega))

/-- A turn of the second inner loop. -/
theorem step_shrink (hi : i < 2 ^ 20) (ht : t < numSizes) :
    toFreeStep past zap (sized .shrink i t s calls) =
      if i + 2 ^ t > past then some (sized .shrink i t s calls).smaller
      else if i &&& (2 ^ t - 1) ≠ 0 then some (sized .shrink i t s calls).smaller
      else some (sized .call i t s calls) := by
  have hge : (t : ℤ) ≥ 0 := by omega
  simp only [toFreeStep, sized, hge, if_true, add32_two_pow hi ht, sub32_two_pow ht]

/-- The next smaller size. -/
theorem smaller_sized (place : ToFreePlace) :
    (sized place i (t + 1) s calls).smaller = sized place i t s calls := by
  have hlen : 2 ^ (t + 1) / 2 = 2 ^ t := by omega
  have hbits : ((t + 1 : ℕ) : ℤ) - 1 = t := by omega
  simp only [smaller, sized, hlen, hbits]

/-- The second inner loop ends with the size that `shrinkTry` computes. -/
theorem reaches_shrink (hi : i < 2 ^ 20) (ht : t < numSizes) (hu : shrinkTry i past t = some u) :
    Reaches (toFreeStep past zap) (sized .shrink i t s calls) (sized .call i u s calls) := by
  induction t with
  | zero =>
      have hstep : toFreeStep past zap (sized .shrink i 0 s calls) = _ := step_shrink hi ht
      rw [shrinkTry] at hu
      split at hu
      · cases hu
      · rename_i hlen
        cases hu
        rw [pow_zero, if_neg hlen, if_neg (by simp)] at hstep
        exact .single hstep
  | succ t ih =>
      have hstep : toFreeStep past zap (sized .shrink i (t + 1) s calls) = _ :=
        step_shrink hi ht
      rw [smaller_sized] at hstep
      rw [shrinkTry] at hu
      by_cases hlen : i + 2 ^ (t + 1) > past
      · rw [if_pos hlen] at hstep hu
        exact .head hstep (ih (by omega) hu)
      · rw [if_neg hlen] at hstep hu
        by_cases hmask : i &&& (2 ^ (t + 1) - 1) ≠ 0
        · rw [if_pos hmask] at hstep hu
          exact .head hstep (ih (by omega) hu)
        · rw [if_neg hmask] at hstep hu
          cases hu
          exact .single hstep

/-- A call of `makeFree`. -/
theorem step_call (hi : i < 2 ^ 20) (hu : u < numSizes) :
    toFreeStep past zap (sized .call i u s calls) =
      some (sized .test (i + 2 ^ u) u (s.makeFree i u zap) (calls ++ [⟨i, u⟩])) := by
  simp only [toFreeStep, sized, add32_two_pow hi hu]

/-- A turn of the outer loop frees the largest piece at `i`, whatever the size of the piece
before it. -/
theorem reaches_turn (hi : i < past) (hpast : past ≤ 2 ^ 20) (ht : t < numSizes)
    (hu : shrinkTry i past (growTry i past (numSizes - 1 - t) t) = some u) (hult : u < numSizes) :
    Reaches (toFreeStep past zap) (sized .test i t s calls)
      (sized .test (i + 2 ^ u) u (s.makeFree i u zap) (calls ++ [⟨i, u⟩])) := by
  have hlt : i < 2 ^ 20 := by omega
  have hgle := growTry_le i past (numSizes - 1 - t) t
  have hgrow : Reaches (toFreeStep past zap) (sized .grow i t s calls)
      (sized .shrink i (growTry i past (numSizes - 1 - t) t) s calls) :=
    reaches_grow hlt (numSizes - 1 - t) (by omega)
  have hshrink := hgrow.trans (reaches_shrink hlt (by omega) hu)
  exact .head (step_test hi) (hshrink.tail (step_call hlt hult))

/-- The outer loop ends with a cut of the range from `i` on. -/
theorem reaches_finished (fuel : ℕ) (hfuel : past - i ≤ fuel) (hpast : past ≤ 2 ^ 20)
    (ht : t < numSizes) :
    ∃ j v new, Reaches (toFreeStep past zap) (sized .test i t s calls)
        (sized .finished j v (toFreeLoop past zap fuel s i t) (calls ++ new)) ∧
      toFreeLoop past zap fuel s i t =
        new.foldl (fun s c => s.makeFree c.firstFree c.bitsFree zap) s ∧
      RangeCut i past new := by
  induction fuel generalizing i t s calls with
  | zero =>
      refine ⟨i, t, [], ?_, rfl, .nil (by omega)⟩
      rw [List.append_nil]
      exact .single (step_test_end (by omega))
  | succ fuel ih =>
      rw [toFreeLoop]
      by_cases hi : i < past
      · obtain ⟨u, hu, hult, hfits, hmax⟩ := shrinkTry_growTry hi ht
        have hpos := Nat.two_pow_pos u
        simp only [if_pos hi, hu]
        obtain ⟨j, v, new, hrun, hcalls, hcut⟩ :=
          @ih (i + 2 ^ u) u (s.makeFree i u zap) (calls ++ [⟨i, u⟩]) (by omega) hult
        rw [List.append_assoc] at hrun
        exact ⟨j, v, ⟨i, u⟩ :: new, (reaches_turn hi hpast ht hu hult).trans hrun, hcalls,
          hcut.cons hult hfits hmax⟩
      · rw [if_neg hi]
        refine ⟨i, t, [], ?_, rfl, .nil (by omega)⟩
        rw [List.append_nil]
        exact .single (step_test_end hi)

/-- No step leaves the end of a run, so a run that has ended there has been nowhere else. -/
theorem ne_gaveUp {f g h : ToFreeFrame} (hend : f.place = .finished)
    (hf : Reaches (toFreeStep past zap) h f) (hg : Reaches (toFreeStep past zap) h g) :
    g.place ≠ .gaveUp := by
  intro hgave
  have hstop : toFreeStep past zap f = none := by simp only [toFreeStep, hend]
  have hstop' : toFreeStep past zap g = none := by simp only [toFreeStep, hgave]
  have heq : f = g :=
    Part.mem_unique (mem_eval.mpr ⟨hf, hstop⟩) (mem_eval.mpr ⟨hg, hstop'⟩)
  rw [heq, hgave] at hend
  cases hend

end ToFreeFrame

open StateTransition ToFreeFrame

/-- **Range decomposition.** A run of `toFree` on a range inside the pool ends without the
`break`, and its calls of `makeFree` cut the range into pieces. `Init` makes no larger pool
(`init_poolBlocks_lt`). -/
theorem toFree_pieces (s : VMsvga2Allocator) (first past : ℕ) (zap : Bool)
    (hpool : s.poolBlocks < 2 ^ 20) (hpast : past ≤ s.poolBlocks) :
    ∃ f ∈ eval (toFreeStep past zap) (toFreeStart s first),
      f.place = .finished ∧ f.alloc = s.toFree first past zap ∧
      f.alloc = f.calls.foldl (fun s c => s.makeFree c.firstFree c.bitsFree zap) s ∧
      RangeCut first past f.calls ∧
      ∀ g, Reaches (toFreeStep past zap) (toFreeStart s first) g → g.place ≠ .gaveUp := by
  have hstart : toFreeStart s first = sized .test first 0 s [] := rfl
  obtain ⟨j, v, calls, hrun, hcalls, hcut⟩ :=
    @reaches_finished past first 0 zap s [] (past - first) le_rfl (by omega) (by decide)
  rw [List.nil_append, ← hstart] at hrun
  refine ⟨_, mem_eval.mpr ⟨hrun, rfl⟩, rfl, rfl, hcalls, hcut, fun g hg => ?_⟩
  exact ne_gaveUp rfl hrun hg

/-- A pool of eight minimum blocks. -/
def eightBlocks : VMsvga2Allocator := (freshAllocator.init 0x100000 0x8000 true fun _ => 0).2

/-- The pieces of the range in the comment of the source, from 1 to 7. -/
theorem toFree_pieces_one_to_seven :
    ∃ f ∈ eval (toFreeStep 7 false) (toFreeStart eightBlocks 1),
      f.place = .finished ∧ f.alloc = eightBlocks.toFree 1 7 false ∧
      f.alloc = f.calls.foldl (fun s c => s.makeFree c.firstFree c.bitsFree false) eightBlocks ∧
      RangeCut 1 7 f.calls ∧
      ∀ g, Reaches (toFreeStep 7 false) (toFreeStart eightBlocks 1) g → g.place ≠ .gaveUp :=
  toFree_pieces eightBlocks 1 7 false (by decide) (by decide)

-- the sizes that the comment gives for this range
example : ((fun f => (toFreeStep 7 false f).getD f)^[30] (toFreeStart eightBlocks 1)).calls =
    [⟨1, 0⟩, ⟨2, 1⟩, ⟨4, 1⟩, ⟨6, 0⟩] := by decide

end DockerMacos
