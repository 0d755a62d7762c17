import Mathlib.Data.List.Basic
import Mathlib.Data.List.Range
import Mathlib.Logic.Function.Iterate

/-!
# Ring Buffers

A ring is an interval `[lo, hi)` of cells of a memory `ℕ → α` in which the cell after
`hi - 1` is `lo`.

## Positions

`ringNext` is the successor of a cell and `ringAdvance` its iterate. Positions are cells of the
memory, not numbers from the start of the ring, so the lemmas have the bounds of the ring as
hypotheses. `ringDist` is the way from one position to another.

## Contents

`ringRead mem lo hi w n` is the list of the `n` cells from `w` on. A producer that writes
behind the readable cells and a consumer that takes them from the front are described
by `ringRead_add` and `ringRead_congr`: what is written behind does not change what is read in
front.

## Main results

* `ringAdvance_eq`: the closed form of `ringAdvance` for at most one lap.
* `ringAdvance_inj`: the cells of one lap are distinct.
* `ringRead_add`, `ringRead_congr`: a readable stretch splits, and depends only on its
  own cells.
-/

namespace DockerMacos

variable {α : Type*} {lo hi : ℕ}

/-- The cell after `w` in the ring `[lo, hi)`. -/
def ringNext (lo hi w : ℕ) : ℕ := if w + 1 = hi then lo else w + 1

/-- The cell `n` places after `w`. -/
def ringAdvance (lo hi w n : ℕ) : ℕ := (ringNext lo hi)^[n] w

/-- The contents of the `n` cells from `w` on. -/
def ringRead (mem : ℕ → α) (lo hi : ℕ) : ℕ → ℕ → List α
  | _, 0 => []
  | w, n + 1 => mem w :: ringRead mem lo hi (ringNext lo hi w) n

/-- The number of cells from `r` to `w`, walking forward. -/
def ringDist (lo hi r w : ℕ) : ℕ := if r ≤ w then w - r else w + (hi - lo) - r

/-! ### Positions -/

/-- The next word is one of the ring. -/
theorem ringNext_mem {w : ℕ} (hw : lo ≤ w ∧ w < hi) :
    lo ≤ ringNext lo hi w ∧ ringNext lo hi w < hi := by
  unfold ringNext
  split <;> omega

/-- No word further. -/
@[simp] theorem ringAdvance_zero (w : ℕ) : ringAdvance lo hi w 0 = w := rfl

/-- One word further. -/
@[simp] theorem ringAdvance_one (w : ℕ) : ringAdvance lo hi w 1 = ringNext lo hi w := rfl

/-- The first word, and then the others. -/
theorem ringAdvance_succ (w n : ℕ) :
    ringAdvance lo hi w (n + 1) = ringAdvance lo hi (ringNext lo hi w) n :=
  Function.iterate_succ_apply _ _ _

/-- Some words, and then some more. -/
theorem ringAdvance_add (w m n : ℕ) :
    ringAdvance lo hi w (m + n) = ringAdvance lo hi (ringAdvance lo hi w m) n := by
  rw [ringAdvance, Nat.add_comm, Function.iterate_add_apply]
  rfl

/-- **Closed form.** Within one lap the position wraps at most once. -/
theorem ringAdvance_eq {w n : ℕ} (hw : lo ≤ w ∧ w < hi) (hn : n ≤ hi - lo) :
    ringAdvance lo hi w n = if w + n < hi then w + n else w + n - (hi - lo) := by
  induction n generalizing w with
  | zero => simp [hw.2]
  | succ n ih =>
      rw [ringAdvance_succ, ih (ringNext_mem hw) (by omega)]
      unfold ringNext
      split <;> split <;> split <;> omega

/-- However far one goes, one stays in the ring. -/
theorem ringAdvance_mem {w n : ℕ} (hw : lo ≤ w ∧ w < hi) :
    lo ≤ ringAdvance lo hi w n ∧ ringAdvance lo hi w n < hi := by
  induction n generalizing w with
  | zero => exact hw
  | succ n ih =>
      rw [ringAdvance_succ]
      exact ih (ringNext_mem hw)

/-- The cells of one lap are distinct. -/
theorem ringAdvance_inj {w i j : ℕ} (hw : lo ≤ w ∧ w < hi) (hi' : i < hi - lo)
    (hj : j < hi - lo) (h : ringAdvance lo hi w i = ringAdvance lo hi w j) : i = j := by
  rw [ringAdvance_eq hw hi'.le, ringAdvance_eq hw hj.le] at h
  split at h <;> split at h <;> omega

/-- The distance is the number of steps, for fewer steps than a lap. -/
theorem ringDist_ringAdvance {w n : ℕ} (hw : lo ≤ w ∧ w < hi) (hn : n < hi - lo) :
    ringDist lo hi w (ringAdvance lo hi w n) = n := by
  rw [ringAdvance_eq hw hn.le]
  unfold ringDist
  split <;> split <;> omega

/-- After fewer steps than a lap, the start is reached again only by no step. -/
theorem ringAdvance_eq_self_iff {w n : ℕ} (hw : lo ≤ w ∧ w < hi) (hn : n < hi - lo) :
    ringAdvance lo hi w n = w ↔ n = 0 := by
  constructor
  · intro h
    exact ringAdvance_inj hw hn (by omega) (h.trans (ringAdvance_zero w).symm)
  · rintro rfl
    rfl

/-! ### Contents -/

/-- No word is read. -/
@[simp] theorem ringRead_zero (mem : ℕ → α) (w : ℕ) : ringRead mem lo hi w 0 = [] := rfl

/-- The first word is read, and then the others. -/
theorem ringRead_succ (mem : ℕ → α) (w n : ℕ) :
    ringRead mem lo hi w (n + 1) = mem w :: ringRead mem lo hi (ringNext lo hi w) n := rfl

/-- As many words as are asked for. -/
@[simp] theorem length_ringRead (mem : ℕ → α) (w n : ℕ) :
    (ringRead mem lo hi w n).length = n := by
  induction n generalizing w with
  | zero => rfl
  | succ n ih => rw [ringRead_succ, List.length_cons, ih]

/-- A readable stretch splits at every place. -/
theorem ringRead_add (mem : ℕ → α) (w m n : ℕ) :
    ringRead mem lo hi w (m + n) =
      ringRead mem lo hi w m ++ ringRead mem lo hi (ringAdvance lo hi w m) n := by
  induction m generalizing w with
  | zero => simp
  | succ m ih =>
      rw [Nat.add_right_comm, ringRead_succ, ih, ringRead_succ, ringAdvance_succ,
        List.cons_append]

/-- A stretch depends only on its own cells. -/
theorem ringRead_congr {mem mem' : ℕ → α} {w n : ℕ}
    (h : ∀ j < n, mem' (ringAdvance lo hi w j) = mem (ringAdvance lo hi w j)) :
    ringRead mem' lo hi w n = ringRead mem lo hi w n := by
  induction n generalizing w with
  | zero => rfl
  | succ n ih =>
      rw [ringRead_succ, ringRead_succ, show mem' w = mem w from h 0 (by omega)]
      rw [ih fun j hj => by
        simpa only [ringAdvance_succ] using h (j + 1) (by omega)]

/-- The cells of a stretch, listed by their distance from its start. -/
theorem ringRead_eq_map (mem : ℕ → α) (w n : ℕ) :
    ringRead mem lo hi w n = (List.range n).map fun j => mem (ringAdvance lo hi w j) := by
  induction n generalizing w with
  | zero => rfl
  | succ n ih =>
      rw [ringRead_succ, ih, List.range_succ_eq_map, List.map_cons, List.map_map]
      rfl

end DockerMacos
