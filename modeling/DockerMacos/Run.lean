import Mathlib.Data.List.Basic

/-!
# Runs of Labelled Transition Systems

A system is given by its step function `step : σ → ι → Option σ`: in state `s` the
action `a` is refused (`none`) or leads to exactly one next state. Everything the
environment decides (a device that moves a pointer, an allocation that fails) is part
of the action, so the steps stay deterministic and executable.

## Conditions

`Run step C s as t` says that the actions `as` lead from `s` to `t` and that every
one of them, in the state in which it was taken, meets the condition `C`. A plain run
is a run under the condition `Always`. A condition is not part of the step function: it restricts
the environment and not the program.

## Evaluating

Where the condition is decidable, `guarded` refuses what it does not admit, and a fold of the
step function over a list of actions is a run.

## Main results

* `Run.invariant`: what every admissible step preserves, every run preserves.
* `Run.simulate`: runs of one system come to runs of another one, step by step.
* `Run.mono`: a run under a condition is a run under every weaker one.
* `run_of_foldlM`, `run_of_guarded`: evaluating the step function gives a run.
-/

namespace DockerMacos

variable {σ ι : Type*}

/-- A **run**: the actions of the list, taken in order, all of them admitted by the
condition `C` in the state in which they are taken. -/
inductive Run (step : σ → ι → Option σ) (C : σ → ι → Prop) : σ → List ι → σ → Prop
  | nil (s : σ) : Run step C s [] s
  | cons {s t u : σ} {a : ι} {as : List ι} :
      C s a → step s a = some t → Run step C t as u → Run step C s (a :: as) u

/-- The condition that admits every step. -/
abbrev Always : σ → ι → Prop := fun _ _ => True

section Rules

variable {step : σ → ι → Option σ} {C D : σ → ι → Prop} {I : σ → Prop}

/-- **The invariant rule.** A predicate preserved by every admissible step is preserved
by every run. -/
theorem Run.invariant (hI : ∀ s a t, I s → C s a → step s a = some t → I t)
    {s t : σ} {as : List ι} (h : Run step C s as t) (hs : I s) : I t := by
  induction h with
  | nil => exact hs
  | cons hC hstep _ ih => exact ih (hI _ _ _ hs hC hstep)

/-- Weakening the condition keeps the run. -/
theorem Run.mono (hCD : ∀ s a, C s a → D s a) {s t : σ} {as : List ι}
    (h : Run step C s as t) : Run step D s as t := by
  induction h with
  | nil => exact Run.nil _
  | cons hC hstep _ ih => exact Run.cons (hCD _ _ hC) hstep ih

/-- Runs compose. -/
theorem Run.append {s t u : σ} {as bs : List ι} (h : Run step C s as t)
    (h' : Run step C t bs u) : Run step C s (as ++ bs) u := by
  induction h with
  | nil => exact h'
  | cons hC hstep _ ih => exact Run.cons hC hstep (ih h')

/-- **Forward simulation.** Where every admissible step comes, through `f`, to a run of another
system, so does every run. -/
theorem Run.simulate {τ κ : Type*} {step' : τ → κ → Option τ} {E : τ → κ → Prop} {f : σ → τ}
    (hI : ∀ s a t, I s → C s a → step s a = some t → I t)
    (hsim : ∀ s a t, I s → C s a → step s a = some t → ∃ bs, Run step' E (f s) bs (f t))
    {s t : σ} {as : List ι} (h : Run step C s as t) (hs : I s) :
    ∃ bs, Run step' E (f s) bs (f t) := by
  induction h with
  | nil => exact ⟨[], Run.nil _⟩
  | cons hC hstep _ ih =>
      obtain ⟨bs, hfirst⟩ := hsim _ _ _ hs hC hstep
      obtain ⟨cs, hrest⟩ := ih (hI _ _ _ hs hC hstep)
      exact ⟨bs ++ cs, hfirst.append hrest⟩

/-- A single admissible step is a run. -/
theorem Run.single {s t : σ} {a : ι} (hC : C s a) (h : step s a = some t) :
    Run step C s [a] t :=
  Run.cons hC h (Run.nil t)

/-- Evaluating the step function on a list of actions gives a plain run. -/
theorem run_of_foldlM {s t : σ} {as : List ι} (h : as.foldlM step s = some t) :
    Run step Always s as t := by
  induction as generalizing s with
  | nil =>
      simp only [List.foldlM_nil, Option.pure_def, Option.some.injEq] at h
      exact h ▸ Run.nil s
  | cons a as ih =>
      simp only [List.foldlM_cons, Option.bind_eq_bind, Option.bind_eq_some_iff] at h
      obtain ⟨u, hu, hrest⟩ := h
      exact Run.cons trivial hu (ih hrest)

/-- The step function, refusing what the condition does not admit. -/
def guarded (step : σ → ι → Option σ) (C : σ → ι → Prop) [∀ s a, Decidable (C s a)] (s : σ)
    (a : ι) : Option σ :=
  if C s a then step s a else none

/-- Evaluating the guarded step function gives a run under its condition. -/
theorem run_of_guarded [∀ s a, Decidable (C s a)] {s t : σ} {as : List ι}
    (h : as.foldlM (guarded step C) s = some t) : Run step C s as t := by
  induction as generalizing s with
  | nil =>
      simp only [List.foldlM_nil, Option.pure_def, Option.some.injEq] at h
      exact h ▸ Run.nil s
  | cons a as ih =>
      simp only [List.foldlM_cons, Option.bind_eq_bind, Option.bind_eq_some_iff] at h
      obtain ⟨u, hu, hrest⟩ := h
      rw [guarded] at hu
      split at hu
      · rename_i hC
        exact Run.cons hC hu (ih hrest)
      · cases hu

end Rules

end DockerMacos
