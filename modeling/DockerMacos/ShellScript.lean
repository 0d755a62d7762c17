import Mathlib.Data.Nat.Notation
import Mathlib.Logic.Basic

/-!
# Shell Scripts That May Stop Early

The body of a shell function, as a function from the state before it to the way it ends. What a
script does is a list of commands, and the next one is run unless something says otherwise. What
says otherwise are three things that a reader of the script does not see at the command.

## How a script stops

Under `set -e` a command that fails ends the whole script, unless the command is a condition or
stands in front of `||`. So a bare command (`plain`) has a second way on, past all the code
below it, and a command that is looked after (`handled`, `captured`) has not. Where the caller
is itself a condition, `set -e` is not in effect, in the function and in all that it calls: the
flag `errexit` is an argument of every construct, and belongs to the call.

An arithmetic error is another matter (`arithmetic`): the shell gives up the command it is in,
with all the functions that it has called, whether or not `set -e` is in effect. No way out that
the functions have for a failure is taken then.

A loop that tries a command a number of times (`retry`) can end in four ways: a try succeeds, the
tries run out, a try fails and ends the script, or it fails and the loop goes on.

## Rules

`Ends Q m s` says that `m`, from the state `s`, comes to an end with `Q`. For each construct a
rule says what that takes, for a `Q` that an early stop does not have. There are two rules for a
command with a way out, as the way out has `Q` or not: in the first case the rule has an
implication, in the second a conjunction.

`Relates R m` says that `R` relates every state to the end that `m` comes to from there. It needs
no case for the commands' outcomes, and so is how a frame (`Keeps`) is carried through a script.

## Main results

* `ends_plain_iff`, `ends_arithmetic_iff`: commands that nobody looks after.
* `ends_handled_iff`, `not_ends_handled`: commands with a way out of their own.
* `ends_retry_iff`, `not_ends_retry`: a command that is tried a number of times.
-/

namespace DockerMacos

variable {σ α : Type*}

/-- The ways in which a function ends. -/
inductive Ending
  | returned (status : ℕ)
  /-- The script has exited. -/
  | exited
  /-- The shell has given up the command that the function is a part of. -/
  | discarded
  deriving DecidableEq

/-- The end of a function. -/
structure Finish (σ : Type*) where
  state : σ
  ending : Ending

/-- The rest of a function. -/
abbrev Shell (σ : Type*) := σ → Finish σ

namespace Shell

/-- The function returns, after a last change of the state. -/
def leave (f : σ → σ) (status : ℕ) : Shell σ := fun s => ⟨f s, .returned status⟩

/-- A change of the state. -/
def change (f : σ → σ) (next : Shell σ) : Shell σ := fun s => next (f s)

/-- A command on its own. -/
def plain (errexit ok : Bool) (next : Shell σ) : Shell σ := fun s =>
  if errexit && !ok then ⟨s, .exited⟩ else next s

/-- A command whose failure is looked after. -/
def handled (ok : Bool) (fail next : Shell σ) : Shell σ := fun s =>
  if ok then next s else fail s

/-- A value that may be missing, which is looked after. -/
def captured (x : Option α) (fail : Shell σ) (next : α → Shell σ) : Shell σ :=
  match x with
  | none => fail
  | some a => next a

/-- An arithmetic expansion. -/
def arithmetic (x : Option α) (next : α → Shell σ) : Shell σ := fun s =>
  match x with
  | none => ⟨s, .discarded⟩
  | some a => next a s

/-- What one try can give. -/
inductive Try
  | success
  | again
  /-- The command fails. -/
  | failed
  deriving DecidableEq

/-- A command on its own, tried again until it gives what is asked for. -/
def retry (errexit : Bool) (tries : ℕ → Try) (fail next : Shell σ) : ℕ → ℕ → Shell σ
  | 0, _ => fail
  | n + 1, i =>
      match tries i with
      | .success => next
      | .again => retry errexit tries fail next n (i + 1)
      | .failed => plain errexit false (retry errexit tries fail next n (i + 1))

/-! ### Rules -/

/-- The script comes to an end with `Q`. -/
def Ends (Q : Finish σ → Prop) (m : Shell σ) (s : σ) : Prop := Q (m s)

variable {Q : Finish σ → Prop} {errexit ok : Bool} {fail next : Shell σ} {s : σ}

/-- A change of the state ends as what comes after it, from the changed state. -/
theorem ends_change_iff {f : σ → σ} : Ends Q (change f next) s ↔ Ends Q next (f s) := Iff.rfl

/-- A bare command must succeed under `set -e`, and what comes after it must end well. -/
theorem ends_plain_iff (hs : ¬Q ⟨s, .exited⟩) :
    Ends Q (plain errexit ok next) s ↔ (errexit = true → ok = true) ∧ Ends Q next s := by
  rw [Ends, plain]
  split
  · next h =>
    simp only [Bool.and_eq_true, Bool.not_eq_true'] at h
    simp [hs, h.1, h.2]
  · next h =>
    simp only [Bool.and_eq_true, Bool.not_eq_true', not_and, Bool.not_eq_false] at h
    exact ⟨fun hnext => ⟨h, hnext⟩, And.right⟩

/-- Where the way out ends well, what comes after must do so only if the command succeeds. -/
theorem ends_handled_iff (hfail : Ends Q fail s) :
    Ends Q (handled ok fail next) s ↔ (ok = true → Ends Q next s) := by
  cases ok with
  | false => exact ⟨fun _ h => absurd h Bool.false_ne_true, fun _ => hfail⟩
  | true => exact ⟨fun h _ => h, fun h => h rfl⟩

/-- Where the way out does not end well, the command must succeed. -/
theorem not_ends_handled (hfail : ¬Ends Q fail s) :
    Ends Q (handled ok fail next) s ↔ ok = true ∧ Ends Q next s := by
  cases ok with
  | false => exact ⟨fun h => absurd h hfail, fun h => absurd h.1 Bool.false_ne_true⟩
  | true => exact ⟨fun h => ⟨rfl, h⟩, And.right⟩

/-- A missing value is as good as a failure that is looked after. -/
theorem ends_captured_iff {x : Option α} {next : α → Shell σ} (hfail : Ends Q fail s) :
    Ends Q (captured x fail next) s ↔ ∀ a, x = some a → Ends Q (next a) s := by
  cases x with
  | none => exact ⟨fun _ _ h => absurd h (by simp), fun _ => hfail⟩
  | some a => exact ⟨fun h b hb => Option.some.inj hb ▸ h, fun h => h a rfl⟩

/-- Where the way out does not end well, there must be a value. -/
theorem not_ends_captured {x : Option α} {next : α → Shell σ} (hfail : ¬Ends Q fail s) :
    Ends Q (captured x fail next) s ↔ ∃ a, x = some a ∧ Ends Q (next a) s := by
  cases x with
  | none => exact ⟨fun h => absurd h hfail, fun ⟨_, h, _⟩ => absurd h (by simp)⟩
  | some a => exact ⟨fun h => ⟨a, rfl, h⟩, fun ⟨b, hb, h⟩ => Option.some.inj hb ▸ h⟩

/-- An expansion without a value ends the function, whatever the caller is. -/
theorem ends_arithmetic_iff {x : Option α} {next : α → Shell σ} (hs : ¬Q ⟨s, .discarded⟩) :
    Ends Q (arithmetic x next) s ↔ ∃ a, x = some a ∧ Ends Q (next a) s := by
  cases x with
  | none => exact ⟨fun h => absurd h hs, fun ⟨_, h, _⟩ => absurd h (by simp)⟩
  | some a => exact ⟨fun h => ⟨a, rfl, h⟩, fun ⟨b, hb, h⟩ => Option.some.inj hb ▸ h⟩

/-! ### Relations -/

/-- `R` holds of every state and of the end that the script comes to from there. -/
def Relates (R : σ → Finish σ → Prop) (m : Shell σ) : Prop := ∀ s, R s (m s)

/-- The part `f` of the state is the same at the end. -/
def Keeps (f : σ → α) (s : σ) (e : Finish σ) : Prop := f e.state = f s

section Relates

variable {R : σ → Finish σ → Prop}

/-- `R` after a change of the state that it does not see. -/
theorem Relates.change {g : σ → σ} (h : ∀ s e, R (g s) e → R s e) (hnext : Relates R next) :
    Relates R (change g next) := fun s => h s _ (hnext (g s))

/-- `R` after a bare command, and where the script exits. -/
theorem Relates.plain (h : ∀ s, R s ⟨s, .exited⟩) (hnext : Relates R next) :
    Relates R (plain errexit ok next) := by
  intro s
  rw [Shell.plain]
  split
  · exact h s
  · exact hnext s

/-- `R` after a command that is looked after, and on its way out. -/
theorem Relates.handled (hfail : Relates R fail) (hnext : Relates R next) :
    Relates R (handled ok fail next) := by
  intro s
  cases ok with
  | false => exact hfail s
  | true => exact hnext s

/-- `R` after a value that may be missing, whatever the value. -/
theorem Relates.captured {x : Option α} {next : α → Shell σ} (hfail : Relates R fail)
    (hnext : ∀ a, Relates R (next a)) : Relates R (captured x fail next) := by
  cases x with
  | none => exact hfail
  | some a => exact hnext a

/-- `R` after an expansion, and where the shell gives up the command. -/
theorem Relates.arithmetic {x : Option α} {next : α → Shell σ} (h : ∀ s, R s ⟨s, .discarded⟩)
    (hnext : ∀ a, Relates R (next a)) : Relates R (arithmetic x next) := by
  cases x with
  | none => exact h
  | some a => exact hnext a

/-- `R` after tries, which end in success, in the way out or in an exit. -/
theorem Relates.retry {tries : ℕ → Try} (h : ∀ s, R s ⟨s, .exited⟩) (hfail : Relates R fail)
    (hnext : Relates R next) (n i : ℕ) : Relates R (retry errexit tries fail next n i) := by
  induction n generalizing i with
  | zero => exact hfail
  | succ n ih =>
    rw [Shell.retry]
    split
    · exact hnext
    · exact ih (i + 1)
    · exact (ih (i + 1)).plain h

end Relates

/-! ### Tries -/

/-- One of the `n` tries from `i` on succeeds, and under `set -e` none before it fails. -/
def Succeeds (errexit : Bool) (tries : ℕ → Try) (n i : ℕ) : Prop :=
  ∃ k < n, tries (i + k) = .success ∧ (errexit = true → ∀ j < k, tries (i + j) ≠ .failed)

/-- Before a try that fails there is one that succeeds. -/
def Kept (tries : ℕ → Try) (n i : ℕ) : Prop :=
  ∀ k < n, tries (i + k) = .failed → ∃ j < k, tries (i + j) = .success

variable {tries : ℕ → Try}

/-- The first try succeeds, or does not end the script and a later one does. -/
theorem succeeds_succ_iff {n i : ℕ} :
    Succeeds errexit tries (n + 1) i ↔
      tries i = .success ∨
        ((errexit = true → tries i ≠ .failed) ∧ Succeeds errexit tries n (i + 1)) := by
  constructor
  · rintro ⟨k, hk, hsuccess, hbefore⟩
    cases k with
    | zero => exact .inl hsuccess
    | succ k =>
      refine .inr ⟨fun he => hbefore he 0 k.succ_pos, k, Nat.lt_of_succ_lt_succ hk, ?_,
        fun he j hj => ?_⟩
      · rw [Nat.add_right_comm, Nat.add_assoc]
        exact hsuccess
      · rw [Nat.add_right_comm, Nat.add_assoc]
        exact hbefore he (j + 1) (Nat.succ_lt_succ hj)
  · rintro (hsuccess | ⟨hfirst, k, hk, hsuccess, hbefore⟩)
    · exact ⟨0, n.succ_pos, hsuccess, fun _ j hj => absurd hj j.not_lt_zero⟩
    · rw [Nat.add_right_comm, Nat.add_assoc] at hsuccess
      refine ⟨k + 1, Nat.succ_lt_succ hk, hsuccess, fun he j hj => ?_⟩
      cases j with
      | zero => exact hfirst he
      | succ j =>
        have hlater := hbefore he j (Nat.lt_of_succ_lt_succ hj)
        rwa [Nat.add_right_comm, Nat.add_assoc] at hlater

/-- The first try succeeds, or does not fail and the later ones are kept. -/
theorem kept_succ_iff {n i : ℕ} :
    Kept tries (n + 1) i ↔
      tries i = .success ∨ (tries i ≠ .failed ∧ Kept tries n (i + 1)) := by
  constructor
  · intro h
    by_cases hsuccess : tries i = .success
    · exact .inl hsuccess
    · refine .inr ⟨fun hfailed => ?_, fun k hk hfailed => ?_⟩
      · obtain ⟨j, hj, -⟩ := h 0 n.succ_pos hfailed
        exact absurd hj j.not_lt_zero
      · rw [Nat.add_right_comm, Nat.add_assoc] at hfailed
        obtain ⟨j, hj, hfound⟩ := h (k + 1) (Nat.succ_lt_succ hk) hfailed
        cases j with
        | zero => exact absurd hfound hsuccess
        | succ j =>
          refine ⟨j, Nat.lt_of_succ_lt_succ hj, ?_⟩
          rw [Nat.add_right_comm, Nat.add_assoc]
          exact hfound
  · rintro (hsuccess | ⟨hfirst, hlater⟩) k hk hfailed
    · cases k with
      | zero => exact absurd (hsuccess.symm.trans hfailed) (by decide)
      | succ k => exact ⟨0, k.succ_pos, hsuccess⟩
    · cases k with
      | zero => exact absurd hfailed hfirst
      | succ k =>
        have hk' := Nat.lt_of_succ_lt_succ hk
        obtain ⟨j, hj, hfound⟩ := hlater k hk' (by rwa [Nat.add_right_comm, Nat.add_assoc])
        rw [Nat.add_right_comm, Nat.add_assoc] at hfound
        exact ⟨j + 1, Nat.succ_lt_succ hj, hfound⟩

/-- Where the way out ends well: no try ends the script, and after a success all is well. -/
theorem ends_retry_iff (hs : ¬Q ⟨s, .exited⟩) (hfail : Ends Q fail s) (n i : ℕ) :
    Ends Q (retry errexit tries fail next n i) s ↔
      (errexit = true → Kept tries n i) ∧ (Succeeds errexit tries n i → Ends Q next s) := by
  induction n generalizing i with
  | zero =>
    refine ⟨fun _ => ⟨fun _ k hk => absurd hk k.not_lt_zero, ?_⟩, fun _ => hfail⟩
    rintro ⟨k, hk, -⟩
    exact absurd hk k.not_lt_zero
  | succ n ih =>
    rw [retry, kept_succ_iff, succeeds_succ_iff]
    cases htry : tries i with
    | success => simp
    | again => simp [ih]
    | failed =>
      rw [ends_plain_iff hs, ih]
      cases errexit <;> simp

/-- Where the way out does not end well: a try succeeds, and then all is well. -/
theorem not_ends_retry (hs : ¬Q ⟨s, .exited⟩) (hfail : ¬Ends Q fail s) (n i : ℕ) :
    Ends Q (retry errexit tries fail next n i) s ↔
      Succeeds errexit tries n i ∧ Ends Q next s := by
  induction n generalizing i with
  | zero =>
    refine ⟨fun h => absurd h hfail, ?_⟩
    rintro ⟨⟨k, hk, -⟩, -⟩
    exact absurd hk k.not_lt_zero
  | succ n ih =>
    rw [retry, succeeds_succ_iff]
    cases htry : tries i with
    | success => simp
    | again => simp [ih]
    | failed =>
      rw [ends_plain_iff hs, ih]
      cases errexit <;> simp

end Shell

end DockerMacos
