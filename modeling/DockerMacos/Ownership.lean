import Mathlib.Data.Set.Insert
import Mathlib.Logic.Function.Basic

/-!
# Ownership of Resources

Resources (blocks, ids, pages) of which some are in use, and owners of which each has at most
one resource. Two things are kept apart: that what an owner has is in use and its own
(`Held`), and that nothing is in use without an owner (`NoLeak`). A failure on the way from
one resource to another can break the second and leaves the first alone.

## The setting

Owners and resources are of any types. `used` is the set of the resources in use, as some
allocator records it, and `owns` tells what an owner has, as the owner records it; the two are
kept by different parts of a program. A step acquires a resource for an owner without one,
releases the one that an owner has, or exchanges it for another.

## Main results

* `Held.acquire`, `Held.release`, `Held.exchange`: the steps of an owner.
* `NoLeak.acquire`, `NoLeak.release`, `NoLeak.exchange`: the same without a leak.
* `NoLeak.eq_empty`: without a leak, what no owner has is not in use.
* `Held.mem_iff_existsUnique`: without a leak, in use is to have exactly one owner.
-/

namespace DockerMacos

variable {κ ρ : Type*}

/-- What an owner has is in use, and no other owner has it. -/
structure Held (used : Set ρ) (owns : κ → Option ρ) : Prop where
  mem : ∀ {k r}, owns k = some r → r ∈ used
  unique : ∀ {k l r}, owns k = some r → owns l = some r → k = l

/-- Nothing is in use without an owner. -/
def NoLeak (used : Set ρ) (owns : κ → Option ρ) : Prop := ∀ r ∈ used, ∃ k, owns k = some r

variable {used : Set ρ} {owns : κ → Option ρ} {k : κ} {r q : ρ}

/-- Without a leak, the resources in use are those with an owner. -/
theorem Held.mem_iff (h : Held used owns) (hn : NoLeak used owns) :
    r ∈ used ↔ ∃ k, owns k = some r := by
  refine ⟨hn r, ?_⟩
  rintro ⟨k, hk⟩
  exact h.mem hk

/-- They are those with exactly one owner. -/
theorem Held.mem_iff_existsUnique (h : Held used owns) (hn : NoLeak used owns) :
    r ∈ used ↔ ∃! k, owns k = some r := by
  rw [h.mem_iff hn]
  refine ⟨?_, ExistsUnique.exists⟩
  rintro ⟨k, hk⟩
  exact ⟨k, hk, fun l hl => h.unique hl hk⟩

/-- Where no owner has anything, nothing is in use. -/
theorem NoLeak.eq_empty (h : NoLeak used owns) (hnone : ∀ k, owns k = none) : used = ∅ := by
  refine Set.eq_empty_of_forall_notMem fun r hr => ?_
  obtain ⟨k, hk⟩ := h r hr
  rw [hnone k] at hk
  cases hk

variable [DecidableEq κ]

/-- An owner gives up what it has; whether it stays in use does not matter. -/
theorem Held.forget (h : Held used owns) : Held used (Function.update owns k none) := by
  refine ⟨fun {l r} hl => ?_, fun {l m r} hl hm => ?_⟩
  · by_cases hlk : l = k
    · rw [hlk, Function.update_self] at hl
      cases hl
    · rw [Function.update_of_ne hlk] at hl
      exact h.mem hl
  · by_cases hlk : l = k
    · rw [hlk, Function.update_self] at hl
      cases hl
    · by_cases hmk : m = k
      · rw [hmk, Function.update_self] at hm
        cases hm
      · rw [Function.update_of_ne hlk] at hl
        rw [Function.update_of_ne hmk] at hm
        exact h.unique hl hm

/-- An owner takes a resource that was not in use. -/
theorem Held.acquire (h : Held used owns) (hr : r ∉ used) :
    Held (insert r used) (Function.update owns k (some r)) := by
  have hother : ∀ {l q}, l ≠ k → Function.update owns k (some r) l = some q →
      owns l = some q ∧ q ≠ r := by
    intro l q hlk hl
    rw [Function.update_of_ne hlk] at hl
    exact ⟨hl, fun hqr => hr (hqr ▸ h.mem hl)⟩
  have hself : ∀ {q}, Function.update owns k (some r) k = some q → q = r := by
    intro q hq
    rw [Function.update_self] at hq
    exact (Option.some.inj hq).symm
  refine ⟨fun {l q} hl => ?_, fun {l m q} hl hm => ?_⟩
  · by_cases hlk : l = k
    · subst hlk
      exact Or.inl (hself hl)
    · exact Or.inr (h.mem (hother hlk hl).1)
  · by_cases hlk : l = k
    · subst hlk
      by_contra hne
      exact (hother (Ne.symm hne) hm).2 (hself hl)
    · by_cases hmk : m = k
      · subst hmk
        exact absurd (hself hm) (hother hlk hl).2
      · exact h.unique (hother hlk hl).1 (hother hmk hm).1

/-- An owner gives its resource back. -/
theorem Held.release (h : Held used owns) (hk : owns k = some r) :
    Held (used \ {r}) (Function.update owns k none) := by
  have hforget := h.forget (k := k)
  refine ⟨fun {l q} hl => ⟨hforget.mem hl, ?_⟩, hforget.unique⟩
  rintro rfl
  by_cases hlk : l = k
  · rw [hlk, Function.update_self] at hl
    cases hl
  · rw [Function.update_of_ne hlk] at hl
    exact hlk (h.unique hl hk)

/-- An owner gives its resource back for another, perhaps the same one. -/
theorem Held.exchange (h : Held used owns) (hk : owns k = some r) (hq : q ∉ used \ {r}) :
    Held (insert q (used \ {r})) (Function.update owns k (some q)) := by
  have hstep := (h.release hk).acquire (k := k) hq
  rwa [Function.update_idem] at hstep

/-- An owner without a resource takes one. -/
theorem NoLeak.acquire (hn : NoLeak used owns) (hk : owns k = none) :
    NoLeak (insert r used) (Function.update owns k (some r)) := by
  rintro q (rfl | hq)
  · exact ⟨k, Function.update_self ..⟩
  · obtain ⟨l, hl⟩ := hn q hq
    have hlk : l ≠ k := fun hlk => by
      rw [hlk, hk] at hl
      cases hl
    exact ⟨l, by rw [Function.update_of_ne hlk, hl]⟩

/-- An owner gives its resource back. -/
theorem NoLeak.release (hn : NoLeak used owns) (hk : owns k = some r) :
    NoLeak (used \ {r}) (Function.update owns k none) := by
  rintro q ⟨hq, hqr⟩
  obtain ⟨l, hl⟩ := hn q hq
  have hlk : l ≠ k := fun hlk => by
    rw [hlk, hk] at hl
    exact hqr (Option.some.inj hl).symm
  exact ⟨l, by rw [Function.update_of_ne hlk, hl]⟩

/-- An owner gives its resource back for another. -/
theorem NoLeak.exchange (hn : NoLeak used owns) (hk : owns k = some r) :
    NoLeak (insert q (used \ {r})) (Function.update owns k (some q)) := by
  have hstep := (hn.release hk).acquire (k := k) (r := q) (Function.update_self ..)
  rwa [Function.update_idem] at hstep

end DockerMacos
