import Mathlib.Algebra.Group.Torsion
import Mathlib.Data.List.Basic
import Mathlib.Data.Set.Basic

/-!
# Sequences of Copies

A copy writes a set of cells, each with the content of the cell at a fixed displacement. When the
cells it reads and those it writes overlap, the outcome is not specified. This module says what is
left of the original contents after a sequence of such copies.

## Copying functions

`CopiesCells` holds of every function that copies what does not overlap and writes nothing else;
of a copy that overlaps it says only where it writes. A statement about all such functions is
one that does not depend on how the copying is done.

## When a cell is right

A cell ends with the original content of its source if the last copy that writes it does not
overlap and no copy before it has written that source (`SourceIntact`). For copies of one
displacement this is also necessary: the function `scrubbing` writes a fixed value into all that
overlaps, and once the value is in the line of cells that the copies draw on, it does not leave it
again.

## Main definitions

* `CopiesCells`: what is known of a copying function.
* `SourceIntact`: the last copy that writes a cell reads it from a cell nothing has written.

## Main results

* `foldl_of_sourceIntact`: such a cell ends with the original content of its source.
* `foldl_copy_iff`: for copies with one displacement there is no other way.
-/

namespace DockerMacos

variable {α β ι : Type*} [AddCommGroup α]

/-- A copy: the cells it writes, and how far before each of them the cell lies that it reads. -/
structure CellCopy (α : Type*) where
  dst : Set α
  shift : α

/-- A cell that the copy reads is one that it writes, and the copy moves cells. -/
def CellCopy.Overlaps (c : CellCopy α) : Prop := c.shift ≠ 0 ∧ ∃ b ∈ c.dst, b - c.shift ∈ c.dst

/-- `copy` copies the cells it is asked to, unless they overlap, and writes no others. -/
structure CopiesCells (cells : ι → CellCopy α) (copy : (α → β) → ι → α → β) : Prop where
  moves : ∀ mem i, ¬(cells i).Overlaps → ∀ b ∈ (cells i).dst,
    copy mem i b = mem (b - (cells i).shift)
  frame : ∀ mem i, ∀ b ∉ (cells i).dst, copy mem i b = mem b

/-- The last of the copies that writes `b` reads `t`, and no copy before it has written `t`. -/
def SourceIntact (cells : ι → CellCopy α) (is : List ι) (b t : α) : Prop :=
  ∃ pre i post, is = pre ++ i :: post ∧ b ∈ (cells i).dst ∧ b - (cells i).shift = t ∧
    ¬(cells i).Overlaps ∧ (∀ k ∈ post, b ∉ (cells k).dst) ∧ ∀ k ∈ pre, t ∉ (cells k).dst

/-- The last element of a list with a property. -/
theorem exists_last_of_mem {p : ι → Prop} {is : List ι} (h : ∃ i ∈ is, p i) :
    ∃ pre i post, is = pre ++ i :: post ∧ p i ∧ ∀ k ∈ post, ¬p k := by
  induction is with
  | nil => simp at h
  | cons i is ih =>
    by_cases hlater : ∃ k ∈ is, p k
    · obtain ⟨pre, k, post, rfl, hk, hpost⟩ := ih hlater
      exact ⟨i :: pre, k, post, rfl, hk, hpost⟩
    · push Not at hlater
      obtain ⟨k, hk, hp⟩ := h
      rcases List.mem_cons.mp hk with rfl | hk
      · exact ⟨[], k, is, rfl, hp, hlater⟩
      · exact absurd hp (hlater k hk)

section Copying

variable {cells : ι → CellCopy α} {copy : (α → β) → ι → α → β} {is : List ι} {b t d : α}

/-- A cell that no copy writes keeps its content. -/
theorem CopiesCells.foldl_frame (h : CopiesCells cells copy) (hb : ∀ i ∈ is, b ∉ (cells i).dst)
    (mem : α → β) : is.foldl copy mem b = mem b := by
  induction is generalizing mem with
  | nil => rfl
  | cons i is ih =>
    rw [List.foldl_cons, ih fun k hk => hb k (List.mem_cons_of_mem i hk)]
    exact h.frame mem i b (hb i List.mem_cons_self)

/-- A cell whose source is intact ends with the source's content. -/
theorem foldl_of_sourceIntact (h : CopiesCells cells copy) (hintact : SourceIntact cells is b t)
    (mem : α → β) : is.foldl copy mem b = mem t := by
  obtain ⟨pre, i, post, rfl, hb, rfl, hover, hpost, hpre⟩ := hintact
  rw [List.foldl_append, List.foldl_cons, h.foldl_frame hpost, h.moves _ i hover b hb,
    h.foldl_frame hpre]

/-- Copies that do not move cells change nothing. -/
theorem CopiesCells.foldl_of_shift_eq_zero (h : CopiesCells cells copy)
    (hzero : ∀ i ∈ is, (cells i).shift = 0) (mem : α → β) : is.foldl copy mem = mem := by
  induction is generalizing mem with
  | nil => rfl
  | cons i is ih =>
    have hi := hzero i List.mem_cons_self
    rw [List.foldl_cons, ih fun k hk => hzero k (List.mem_cons_of_mem i hk)]
    funext b
    by_cases hb : b ∈ (cells i).dst
    · rw [h.moves mem i (fun hover => hover.1 hi) b hb, hi, sub_zero]
    · exact h.frame mem i b hb

/-! ### A copying function that destroys what overlaps -/

open Classical in
/-- The copying function that writes `x` into every cell of a copy that overlaps. -/
noncomputable def scrubbing (cells : ι → CellCopy α) (x : β) (mem : α → β) (i : ι) (b : α) : β :=
  if b ∈ (cells i).dst then
    if (cells i).Overlaps then x else mem (b - (cells i).shift)
  else mem b

/-- It is a copying function: only what overlaps is spoilt. -/
theorem scrubbing_copies (cells : ι → CellCopy α) (x : β) :
    CopiesCells cells (scrubbing cells x) where
  moves mem i hover b hb := by rw [scrubbing, if_pos hb, if_neg hover]
  frame mem i b hb := by rw [scrubbing, if_neg hb]

/-- From the `n`-th cell before `t` on, in steps of the displacement, every cell holds `x`. -/
def HoldsBefore (d t : α) (x : β) (n : ℕ) (mem : α → β) : Prop :=
  ∀ k, n ≤ k → mem (t - k • d) = x

/-- The cells a copy reads them from lie one step further on. -/
theorem HoldsBefore.scrub {x : β} {n : ℕ} {mem : α → β} {i : ι} (h : HoldsBefore d t x n mem)
    (hshift : (cells i).shift = d) : HoldsBefore d t x n (scrubbing cells x mem i) := by
  intro k hk
  rw [scrubbing]
  split_ifs
  · rfl
  · rw [hshift, sub_sub, ← succ_nsmul]
    exact h (k + 1) (by omega)
  · exact h k hk

/-- The same after several copies. -/
theorem HoldsBefore.foldl {x : β} {n : ℕ} {mem : α → β} (h : HoldsBefore d t x n mem)
    (hshift : ∀ i ∈ is, (cells i).shift = d) :
    HoldsBefore d t x n (is.foldl (scrubbing cells x) mem) := by
  induction is generalizing mem with
  | nil => exact h
  | cons i is ih =>
    exact ih (h.scrub (hshift i List.mem_cons_self)) fun k hk =>
      hshift k (List.mem_cons_of_mem i hk)

/-- Once a copy has written `t`, it holds `x` as well. -/
theorem HoldsBefore.scrub_mem {x : β} {mem : α → β} {i : ι} (h : HoldsBefore d t x 1 mem)
    (hshift : (cells i).shift = d) (ht : t ∈ (cells i).dst) :
    HoldsBefore d t x 0 (scrubbing cells x mem i) := by
  intro k _
  rcases Nat.eq_zero_or_pos k with rfl | hpos
  · rw [zero_nsmul, sub_zero, scrubbing, if_pos ht]
    split_ifs
    · rfl
    · rw [hshift, ← one_nsmul d]
      exact h 1 le_rfl
  · exact h.scrub hshift k hpos

/-- A cell that some copy writes is spoilt in the end. -/
theorem foldl_scrubbing_of_mem {x : β} {mem : α → β} (h : HoldsBefore d t x 1 mem)
    (hshift : ∀ i ∈ is, (cells i).shift = d) {i : ι} (hi : i ∈ is) (ht : t ∈ (cells i).dst) :
    is.foldl (scrubbing cells x) mem t = x := by
  obtain ⟨pre, post, rfl⟩ := List.append_of_mem hi
  have hpre : HoldsBefore d t x 1 (pre.foldl (scrubbing cells x) mem) :=
    h.foldl fun k hk => hshift k (List.mem_append_left _ hk)
  have hpost : ∀ k ∈ post, (cells k).shift = d := fun k hk =>
    hshift k (List.mem_append_right _ (List.mem_cons_of_mem i hk))
  have hend := (hpre.scrub_mem (hshift i hi) ht).foldl hpost 0 le_rfl
  rwa [zero_nsmul, sub_zero, ← List.foldl_cons, ← List.foldl_append] at hend

variable [IsAddTorsionFree α]

/-- **Copies with one displacement.** A cell ends with the original content of its source under
every copying function and for all contents only if nothing moves or the source is intact. -/
theorem foldl_copy_iff [Nontrivial β] (hshift : ∀ i ∈ is, (cells i).shift = d) :
    (∀ copy : (α → β) → ι → α → β, CopiesCells cells copy → ∀ mem,
        is.foldl copy mem b = mem (b - d)) ↔ d = 0 ∨ SourceIntact cells is b (b - d) := by
  classical
  constructor
  · intro hall
    by_contra hnot
    push Not at hnot
    obtain ⟨hd, hintact⟩ := hnot
    obtain ⟨x, y, hxy⟩ := exists_pair_ne β
    -- Only the source holds `y`; what overwrites it, and what overlaps, is `x`.
    let mem : α → β := fun a => if a = b - d then y else x
    have hsource : mem (b - d) = y := if_pos rfl
    have hbefore : HoldsBefore d (b - d) x 1 mem := by
      intro k hk
      refine if_neg fun heq => ?_
      have hzero : k • d = 0 := by simpa using heq
      exact hd ((nsmul_eq_zero_iff_right (by omega)).mp hzero)
    have hend := hall _ (scrubbing_copies cells x) mem
    rw [hsource] at hend
    by_cases hwritten : ∃ i ∈ is, b ∈ (cells i).dst
    · obtain ⟨pre, i, post, rfl, hb, hpost⟩ := exists_last_of_mem hwritten
      have hi := hshift i (List.mem_append_right _ List.mem_cons_self)
      rw [List.foldl_append, List.foldl_cons, (scrubbing_copies cells x).foldl_frame hpost,
        scrubbing, if_pos hb] at hend
      split_ifs at hend with hover
      · exact hxy hend
      · rw [hi] at hend
        refine hintact ⟨pre, i, post, rfl, hb, by rw [hi], hover, hpost, fun k hk ht => ?_⟩
        rw [foldl_scrubbing_of_mem hbefore (fun l hl => hshift l (List.mem_append_left _ hl)) hk
          ht] at hend
        exact hxy hend
    · push Not at hwritten
      rw [(scrubbing_copies cells x).foldl_frame hwritten] at hend
      have hne : b ≠ b - d := fun heq => hd (sub_eq_self.mp heq.symm)
      exact hxy ((if_neg hne).symm.trans hend)
  · rintro (rfl | hintact) copy hcopy mem
    · rw [hcopy.foldl_of_shift_eq_zero hshift, sub_zero]
    · exact foldl_of_sourceIntact hcopy hintact mem

end Copying

end DockerMacos
