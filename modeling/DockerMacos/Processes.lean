import DockerMacos.Run
import Mathlib.Logic.Function.Basic

/-!
# Processes over a Shared State

Processes that run the same kind of program next to each other and share a state. A process
is started in an initial state of its own; from then on the environment picks a process and one
of its choices at every turn, and the program says what becomes of the shared state and of the
process. So a run of the whole is an interleaving of the steps of its processes.

## Two kinds of invariants

Most of what is said about such a system is about one process and the shared state (`Each`), or
about two different processes (`Pairs`). A turn changes one process and the state: what is to be
shown is that the process keeps its own invariant, and that the change of the state is harmless
to the others. A process may also end, and is then no longer among the processes there are.

## Main definitions

* `Program`: the code of the processes.
* `Processes.step`: the step function.

## Main results

* `Processes.step_cases`: what one turn can do.
* `Each.update`, `Pairs.update`: what holds of every process, or of every two of them, after a
  turn of one.
-/

namespace DockerMacos

variable {σ π κ : Type*}

/-- The shared state, and the processes there are. -/
structure Processes (σ π : Type*) where
  shared : σ
  procs : ℕ → Option π

/-- A turn: a process is started, or takes a step of its own choice. -/
inductive Turn (π κ : Type*)
  | start (i : ℕ) (p : π)
  | next (i : ℕ) (k : κ)

/-- The code of the processes. -/
structure Program (σ π κ : Type*) where
  /-- The states in which a process starts. -/
  initial : π → Bool
  /-- What a step does to the shared state and the process, which may end; `none` where the
  choice is not open to it. -/
  next : σ → π → κ → Option (σ × Option π)

namespace Processes

/-- The step function of the processes. -/
def step (c : Program σ π κ) (w : Processes σ π) : Turn π κ → Option (Processes σ π)
  | .start i p =>
    if (w.procs i).isNone && c.initial p then
      some { w with procs := Function.update w.procs i (some p) }
    else none
  | .next i k =>
    (w.procs i).bind fun p => (c.next w.shared p k).map fun (s, p') =>
      ⟨s, Function.update w.procs i p'⟩

/-- What one turn can do. -/
theorem step_cases {c : Program σ π κ} {w t : Processes σ π} {a : Turn π κ}
    (h : w.step c a = some t) :
    (∃ i p, a = .start i p ∧ w.procs i = none ∧ c.initial p = true ∧
      t = ⟨w.shared, Function.update w.procs i (some p)⟩) ∨
    ∃ i k p s p', a = .next i k ∧ w.procs i = some p ∧ c.next w.shared p k = some (s, p') ∧
      t = ⟨s, Function.update w.procs i p'⟩ := by
  obtain ⟨i, p⟩ | ⟨i, k⟩ := a
  · simp only [step] at h
    split at h
    · next hfree =>
      simp only [Bool.and_eq_true, Option.isNone_iff_eq_none] at hfree
      exact .inl ⟨i, p, rfl, hfree.1, hfree.2, (Option.some.inj h).symm⟩
    · exact absurd h (by simp)
  · simp only [step, Option.bind_eq_some_iff, Option.map_eq_some_iff, Prod.exists] at h
    obtain ⟨p, hp, s, p', hnext, ht⟩ := h
    exact .inr ⟨i, k, p, s, p', rfl, hp, hnext, ht.symm⟩

/-- Every process, with the shared state, meets `P`. -/
def Each (P : σ → π → Prop) (w : Processes σ π) : Prop :=
  ∀ i p, w.procs i = some p → P w.shared p

/-- Every two processes meet `Q`. -/
def Pairs (Q : π → π → Prop) (w : Processes σ π) : Prop :=
  ∀ i j p q, i ≠ j → w.procs i = some p → w.procs j = some q → Q p q

variable {P : σ → π → Prop} {Q : π → π → Prop} {w : Processes σ π} {i : ℕ} {s : σ}
  {p' : Option π}

/-- The processes that stay meet `P` with the new state, and the one that changes does. -/
theorem Each.update (hother : ∀ j m, j ≠ i → w.procs j = some m → P s m)
    (hown : ∀ q, p' = some q → P s q) : Each P ⟨s, Function.update w.procs i p'⟩ := by
  intro j m hm
  by_cases hj : j = i
  · simp only [hj, Function.update_self] at hm
    exact hown m hm
  · simp only [Function.update_of_ne hj] at hm
    exact hother j m hj hm

/-- The process that changes meets `Q` with those that stay. -/
theorem Pairs.update (h : Pairs Q w)
    (hnew : ∀ j m q, j ≠ i → w.procs j = some m → p' = some q → Q q m ∧ Q m q) :
    Pairs Q ⟨s, Function.update w.procs i p'⟩ := by
  intro j l m n hjl hm hn
  by_cases hj : j = i
  · have hl : l ≠ i := fun heq => hjl (hj.trans heq.symm)
    simp only [hj, Function.update_self, Function.update_of_ne hl] at hm hn
    exact (hnew l n m hl hn hm).1
  · by_cases hl : l = i
    · simp only [hl, Function.update_self, Function.update_of_ne hj] at hm hn
      exact (hnew j m n hj hm hn).2
    · simp only [Function.update_of_ne hj, Function.update_of_ne hl] at hm hn
      exact h j l m n hjl hm hn

end Processes

end DockerMacos
