import Mathlib.Algebra.GroupWithZero.Nat
import Mathlib.Data.List.Basic
import Mathlib.Data.Nat.Notation

/-!
# Triples for Programs That May Wait

A program on a state `σ` is a value of `StateT σ Option`. The result `none` means that it has
not come to an end: it waits for something that the environment has not done. What the
environment has in store for the program is part of the state, and `credit` counts how often
it will let the program go on.

## Budgets

A triple has the usual postcondition for a run that ends, and a budget of credits: a run that
ends takes no more credits than the budget, and a run that waits has found fewer. A program
whose environment is willing often enough therefore ends.

## What no environment can give

Some programs ask for what no environment can give them. The budget of a triple is therefore
promised under a proposition `fits` only, which says that the program asks for nothing of the
kind. The postcondition does not depend on it: what has ended has ended.

## Main results

* `Triple.bind`, `Triple.bindBool`: a program after another, and a program that branches on
  the answer of another.
* `Triple.forM`: a loop over a list keeps its invariant.
* `Triple.ends`: enough credits bring a program to its end.
-/

namespace DockerMacos

/-- A state that says how often its environment lets a program go on. -/
class Credit (σ : Type) where
  credit : σ → ℕ

variable {σ α β : Type} [Credit σ]

open Credit

/-- **Triples.** From a state with `P`, a run of `m` that ends has `Q` of its result and of the
state it ends in; and under `fits` it has taken at most `n` credits, and a run that waits had
fewer. -/
structure Triple (fits : Prop) (n : ℕ) (P : σ → Prop) (m : StateT σ Option α)
    (Q : α → σ → Prop) : Prop where
  post : ∀ s a t, P s → m.run s = some (a, t) → Q a t
  spent : fits → ∀ s a t, P s → m.run s = some (a, t) → credit s ≤ credit t + n
  waits : fits → ∀ s, P s → m.run s = none → credit s < n

namespace Triple

variable {P A B : σ → Prop} {Q : α → σ → Prop} {R : β → σ → Prop} {m : StateT σ Option α}
variable {fits fits' fits'' : Prop} {k n : ℕ}

/-- A program that never waits and takes no credits. -/
theorem ofStep {f : σ → α × σ} (hm : ∀ s, m.run s = some (f s))
    (hcredit : ∀ s, P s → credit (f s).2 = credit s) (h : ∀ s, P s → Q (f s).1 (f s).2) :
    Triple fits n P m Q where
  post s a t hs hrun := by
    have heq : f s = (a, t) := Option.some.inj ((hm s).symm.trans hrun)
    have hpost := h s hs
    rwa [heq] at hpost
  spent _ s a t hs hrun := by
    have heq : f s = (a, t) := Option.some.inj ((hm s).symm.trans hrun)
    have ht : credit t = credit s := by rw [← hcredit s hs, heq]
    omega
  waits _ s hs hrun := by cases (hm s).symm.trans hrun

/-- A value without a program. -/
theorem pure {a : α} (h : ∀ s, P s → Q a s) : Triple fits n P (pure a) Q :=
  ofStep (f := fun s => (a, s)) (fun _ => rfl) (fun _ _ => rfl) h

/-- A change of the state that leaves the credits alone. -/
theorem modify {f : σ → σ} {R : Unit → σ → Prop} (hcredit : ∀ s, P s → credit (f s) = credit s)
    (h : ∀ s, P s → R () (f s)) : Triple fits n P (modify f) R :=
  ofStep (f := fun s => ((), f s)) (fun _ => rfl) hcredit h

/-- A look at the state. -/
theorem get {R : σ → σ → Prop} (h : ∀ s, P s → R s s) : Triple fits n P (get (σ := σ)) R :=
  ofStep (f := fun s => (s, s)) (fun _ => rfl) (fun _ _ => rfl) h

/-- A larger budget is enough, too, and so is one that is promised less often. -/
theorem weaken (hm : Triple fits k P m Q) (hfits : fits' → fits) (hle : k ≤ n) :
    Triple fits' n P m Q where
  post := hm.post
  spent h s a t hs hrun :=
    Nat.le_trans (hm.spent (hfits h) s a t hs hrun) (Nat.add_le_add_left hle _)
  waits h s hs hrun := Nat.lt_of_lt_of_le (hm.waits (hfits h) s hs hrun) hle

/-- A program after another. The budgets add up, and the whole asks for nothing impossible if
neither part does. -/
theorem bind {f : α → StateT σ Option β} (hm : Triple fits k P m Q)
    (hf : ∀ a, Triple fits' n (Q a) (f a) R) (hfits : fits'' → fits ∧ fits') :
    Triple fits'' (k + n) P (m >>= f) R where
  post s b t hs hrun := by
    rw [StateT.run_bind, Option.bind_eq_bind, Option.bind_eq_some_iff] at hrun
    obtain ⟨⟨a, u⟩, hu, hrun⟩ := hrun
    exact (hf a).post u b t (hm.post s a u hs hu) hrun
  spent h s b t hs hrun := by
    rw [StateT.run_bind, Option.bind_eq_bind, Option.bind_eq_some_iff] at hrun
    obtain ⟨⟨a, u⟩, hu, hrun⟩ := hrun
    have hfirst := hm.spent (hfits h).1 s a u hs hu
    have hsecond := (hf a).spent (hfits h).2 u b t (hm.post s a u hs hu) hrun
    omega
  waits h s hs hrun := by
    rw [StateT.run_bind, Option.bind_eq_bind, Option.bind_eq_none_iff] at hrun
    cases hu : m.run s with
    | none =>
        have hfirst := hm.waits (hfits h).1 s hs hu
        omega
    | some p =>
        obtain ⟨a, u⟩ := p
        have hfirst := hm.spent (hfits h).1 s a u hs hu
        have hsecond := (hf a).waits (hfits h).2 u (hm.post s a u hs hu) (hrun (a, u) hu)
        omega

/-- A program that goes on according to the answer of another. -/
theorem bindBool {m : StateT σ Option Bool} {yes no : StateT σ Option β}
    (hm : Triple fits k P m fun ok s => if ok then A s else B s) (hyes : Triple fits' n A yes R)
    (hno : Triple fits' n B no R) (hfits : fits'' → fits ∧ fits') :
    Triple fits'' (k + n) P (m >>= fun ok => if ok then yes else no) R := by
  refine hm.bind (fun ok => ?_) hfits
  cases ok with
  | true => exact hyes
  | false => exact hno

/-- A branch. -/
theorem ite {c : Prop} [Decidable c] {yes no : StateT σ Option α}
    (hyes : c → Triple fits n P yes Q) (hno : ¬c → Triple fits n P no Q) :
    Triple fits n P (if c then yes else no) Q := by
  split
  · exact hyes ‹_›
  · exact hno ‹_›

/-- A loop over a list keeps its invariant. Its budget is that of all its turns. -/
theorem forM {ι : Type} {f : ι → StateT σ Option Unit} {P : σ → Prop} {fits : ι → Prop}
    {n : ι → ℕ} (hf : ∀ i, Triple (fits i) (n i) P (f i) fun _ => P) (l : List ι) :
    Triple (∀ i ∈ l, fits i) (l.map n).sum P (l.forM f) fun _ => P := by
  induction l with
  | nil => exact pure fun _ hs => hs
  | cons i l ih =>
      rw [List.map_cons, List.sum_cons]
      exact (hf i).bind (fun _ => ih) List.forall_mem_cons.mp

/-- Enough credits bring a program that asks for nothing impossible to its end. -/
theorem ends (hm : Triple fits n P m Q) (hfits : fits) {s : σ} (hs : P s)
    (hcredit : n ≤ credit s) : ∃ a t, m.run s = some (a, t) ∧ Q a t := by
  cases hrun : m.run s with
  | none => exact absurd (hm.waits hfits s hs hrun) (Nat.not_lt.mpr hcredit)
  | some p => exact ⟨p.1, p.2, rfl, hm.post s p.1 p.2 hs hrun⟩

end Triple

end DockerMacos
