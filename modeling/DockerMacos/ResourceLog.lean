import DockerMacos.Run
import Mathlib.Data.Multiset.AddSub

/-!
# Logs of Resources

A program acquires resources, uses them and releases them. A log of what it has done is in
order when it uses and releases only what it holds at that time, and it is settled when, on
top of that, nothing is held at its end. If no resource is acquired twice, that is to say that
each is released exactly once, and not used afterwards.

## What is held

`holdings` goes through a log and gives what is held at its end, as a multiset: a resource that
is counted may be acquired several times. There is no result if the log is out of order, so that
a statement about what is held says at once that nothing has been used without being held.

## Logs of runs

A log may also be kept beside the runs of a system: `logAlong` puts together what each action
does in the state in which it is taken. If the state tells what is held, it is enough to look at
single steps.

## Main results

* `holdings_append`: a log is followed piece by piece.
* `Run.holdings`: what is held along a run, from what each step does.
* `settled_iff_releasedOnce`: a settled log releases each resource once.
-/

namespace DockerMacos

/-- What is done with a resource. -/
inductive ResourceUse (ρ : Type*)
  | acquire (r : ρ)
  | release (r : ρ)
  | use (r : ρ)
  deriving DecidableEq

variable {ρ : Type*} [DecidableEq ρ]

/-- What is held after one entry of the log, unless the entry is out of order. -/
def ResourceUse.next (held : Multiset ρ) : ResourceUse ρ → Option (Multiset ρ)
  | .acquire r => some (r ::ₘ held)
  | .release r => if r ∈ held then some (held.erase r) else none
  | .use r => if r ∈ held then some held else none

/-- What is held after a log, unless the log is out of order. -/
def holdings (log : List (ResourceUse ρ)) : Option (Multiset ρ) :=
  log.foldlM ResourceUse.next 0

/-- The log is in order, and nothing is held at its end. -/
def Settled (log : List (ResourceUse ρ)) : Prop := holdings log = some 0

instance (log : List (ResourceUse ρ)) : Decidable (Settled log) :=
  inferInstanceAs (Decidable (_ = _))

/-- The log is in order, and releases each resource that it acquires exactly once. -/
structure ReleasedOnce (log : List (ResourceUse ρ)) : Prop where
  order : (holdings log).isSome = true
  once : ∀ r, .acquire r ∈ log → log.count (.release r) = 1

section Rules

variable {held : Multiset ρ} {r : ρ} {log more : List (ResourceUse ρ)}

/-- To obtain a resource is always possible. -/
@[simp]
theorem next_acquire : (ResourceUse.acquire r).next held = some (r ::ₘ held) := rfl

/-- What is held can be released. -/
@[simp]
theorem next_release : (ResourceUse.release r).next (r ::ₘ held) = some held := by
  rw [ResourceUse.next, if_pos (Multiset.mem_cons_self r held), Multiset.erase_cons_head]

/-- What is held can be used. -/
@[simp]
theorem next_use : (ResourceUse.use r).next (r ::ₘ held) = some (r ::ₘ held) :=
  if_pos (Multiset.mem_cons_self r held)

/-- What is not held cannot be released. -/
theorem next_release_of_notMem (h : r ∉ held) : (ResourceUse.release r).next held = none :=
  if_neg h

/-- What is held can be used any number of times. -/
@[simp]
theorem foldlM_use (n : ℕ) :
    (List.replicate n (ResourceUse.use r)).foldlM ResourceUse.next (r ::ₘ held) =
      some (r ::ₘ held) := by
  induction n with
  | zero => rfl
  | succ n ih => rw [List.replicate_succ, List.foldlM_cons, next_use, Option.bind_eq_bind,
      Option.bind_some, ih]

/-- What is held after a log and more of it. -/
theorem holdings_append :
    holdings (log ++ more) = (holdings log).bind (more.foldlM ResourceUse.next) :=
  List.foldlM_append

/-- A log in order goes on from what is held. -/
theorem holdings_append_of (h : holdings log = some held) :
    holdings (log ++ more) = more.foldlM ResourceUse.next held := by
  rw [holdings_append, h]
  rfl

/-- Acquired is what is held and what has been released. -/
theorem count_foldlM {held' : Multiset ρ} (h : log.foldlM ResourceUse.next held = some held') :
    held'.count r + log.count (.release r) = held.count r + log.count (.acquire r) := by
  induction log generalizing held with
  | nil =>
    obtain rfl := Option.some.inj h
    rfl
  | cons a log ih =>
    obtain ⟨mid, hmid, hrest⟩ := Option.bind_eq_some_iff.mp h
    have hih := ih hrest
    cases a with
    | acquire q =>
      obtain rfl := Option.some.inj hmid
      by_cases hq : q = r
      · subst hq
        simp only [List.count_cons, Multiset.count_cons_self] at hih ⊢
        simp only [beq_iff_eq, reduceCtorEq, if_false, if_true]
        omega
      · rw [Multiset.count_cons_of_ne (Ne.symm hq)] at hih
        rw [List.count_cons_of_ne (by simp), List.count_cons_of_ne (by simpa using hq)]
        exact hih
    | release q =>
      rw [ResourceUse.next] at hmid
      split at hmid
      · next hheld =>
        obtain rfl := Option.some.inj hmid
        by_cases hq : q = r
        · subst hq
          have hpos := Multiset.count_pos.mpr hheld
          rw [Multiset.count_erase_self] at hih
          rw [List.count_cons_self, List.count_cons_of_ne (by simp)]
          omega
        · rw [Multiset.count_erase_of_ne (Ne.symm hq)] at hih
          rw [List.count_cons_of_ne (by simpa using hq), List.count_cons_of_ne (by simp)]
          exact hih
      · cases hmid
    | use q =>
      rw [ResourceUse.next] at hmid
      split at hmid
      · obtain rfl := Option.some.inj hmid
        rw [List.count_cons_of_ne (by simp), List.count_cons_of_ne (by simp)]
        exact hih
      · cases hmid

/-- What is held has been acquired. -/
theorem acquire_mem_of_held (h : holdings log = some held) (hr : r ∈ held) :
    .acquire r ∈ log := by
  have hcount := count_foldlM (r := r) h
  have hpos := Multiset.count_pos.mpr hr
  rw [Multiset.count_zero] at hcount
  exact List.count_pos_iff.mp (by omega)

/-- In a log that acquires no resource twice, nothing is left exactly when each is released
once. -/
theorem settled_iff_releasedOnce (h : ∀ r, log.count (.acquire r) ≤ 1) :
    Settled log ↔ ReleasedOnce log := by
  constructor
  · intro hsettled
    refine ⟨by rw [Settled] at hsettled; rw [hsettled]; rfl, fun r hr => ?_⟩
    have hcount := count_foldlM (r := r) hsettled
    have hpos := List.count_pos_iff.mpr hr
    have hone := h r
    simp only [Multiset.count_zero] at hcount
    omega
  · rintro ⟨horder, honce⟩
    obtain ⟨held, hheld⟩ := Option.isSome_iff_exists.mp horder
    rw [Settled, hheld, Option.some_inj]
    refine Multiset.eq_zero_of_forall_notMem fun r hr => ?_
    have hcount := count_foldlM (r := r) hheld
    have hpos := Multiset.count_pos.mpr hr
    have hreleased := honce r (acquire_mem_of_held hheld hr)
    have hone := h r
    rw [Multiset.count_zero] at hcount
    omega

end Rules

/-! ### Pointers -/

/-- What is held when a pointer has a resource, on top of the rest. -/
def heldBy (pointer : Option ρ) (rest : Multiset ρ) : Multiset ρ :=
  pointer.elim rest (· ::ₘ rest)

/-- A pointer gives up what it has. -/
theorem release_heldBy (pointer : Option ρ) (rest : Multiset ρ) :
    (pointer.toList.map ResourceUse.release).foldlM ResourceUse.next (heldBy pointer rest) =
      some rest := by
  cases pointer with
  | none => rfl
  | some r =>
      change ((ResourceUse.release r).next (r ::ₘ rest)).bind some = _
      rw [next_release]
      rfl

/-- What a pointer has can be used. -/
theorem use_heldBy (pointer : Option ρ) (rest : Multiset ρ) :
    (pointer.toList.map ResourceUse.use).foldlM ResourceUse.next (heldBy pointer rest) =
      some (heldBy pointer rest) := by
  cases pointer with
  | none => rfl
  | some r =>
      change ((ResourceUse.use r).next (r ::ₘ rest)).bind some = _
      rw [next_use]
      rfl

/-! ### Logs of runs -/

section Runs

variable {σ ι : Type*} {step : σ → ι → Option σ} {uses : σ → ι → List (ResourceUse ρ)}

/-- The log of a run, from what each action does in the state in which it is taken. -/
def logAlong (step : σ → ι → Option σ) (uses : σ → ι → List (ResourceUse ρ)) :
    σ → List ι → List (ResourceUse ρ)
  | _, [] => []
  | s, a :: as => uses s a ++ ((step s a).elim [] fun t => logAlong step uses t as)

/-- **What is held along a run**, where the state tells what is held and every step keeps to
it. -/
theorem Run.holdings {C : σ → ι → Prop} {I : σ → Multiset ρ → Prop}
    (hI : ∀ s a t held, I s held → C s a → step s a = some t →
      ∃ held', (uses s a).foldlM ResourceUse.next held = some held' ∧ I t held')
    {s t : σ} {as : List ι} {held : Multiset ρ} (h : Run step C s as t) (hs : I s held) :
    ∃ held', (logAlong step uses s as).foldlM ResourceUse.next held = some held' ∧ I t held' := by
  induction h generalizing held with
  | nil => exact ⟨held, rfl, hs⟩
  | cons hC hstep _ ih =>
      obtain ⟨mid, hmid, hI'⟩ := hI _ _ _ _ hs hC hstep
      obtain ⟨held', hheld, hend⟩ := ih hI'
      refine ⟨held', ?_, hend⟩
      rw [logAlong, hstep, Option.elim_some, List.foldlM_append, hmid]
      exact hheld

end Runs

end DockerMacos
