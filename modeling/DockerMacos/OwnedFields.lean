import DockerMacos.ResourceLog
import Mathlib.Algebra.BigOperators.Group.Finset.Basic
import Mathlib.Data.Fintype.Basic

/-!
# Fields that Own Resources

An object keeps what it has obtained in its fields: a field is null or has one resource. A
field that is assigned loses what it had, a field that is dropped releases it, and what is
handed on leaves the object. `Tidy` says that the fields have what the log of the object holds,
and which of them may have something; there is one rule for each operation.

## Reading a method

A method that obtains and releases is a sequence of these operations. Its proof starts with the
list of the fields that may have something, and each rule says what the list is afterwards: a
fetch adds its field to the list, a drop takes it off. A method that ends with the empty list
has released everything.

## Main results

* `Tidy.fetch`, `Tidy.drop`, `Tidy.touch`, `Tidy.handOn`: the operations.
* `Tidy.releasedOnce`: with empty fields, everything has been released exactly once.
-/

namespace DockerMacos

/-- The fields of an object, what it has handed on, and what it has done so far. -/
structure OwnedFields (φ : Type*) where
  field : φ → Option ℕ
  handed : Multiset ℕ
  next : ℕ
  log : List (ResourceUse ℕ)

namespace OwnedFields

variable {φ : Type*}

/-- A new object. -/
def new : OwnedFields φ where
  field := fun _ => none
  handed := 0
  next := 0
  log := []

/-- A field is used, if it is not null. -/
def touch (d : OwnedFields φ) (f : φ) : OwnedFields φ :=
  { d with log := d.log ++ (d.field f).toList.map .use }

section Operations

variable [DecidableEq φ]

/-- A field is set to null. -/
def clear (d : OwnedFields φ) (f : φ) : OwnedFields φ :=
  { d with field := Function.update d.field f none }

/-- A field is assigned what a call returns: a new resource, or null when it fails. -/
def fetch (d : OwnedFields φ) (f : φ) (ok : Bool) : OwnedFields φ :=
  if ok then
    { d with
      field := Function.update d.field f (some d.next)
      next := d.next + 1
      log := d.log ++ [.acquire d.next] }
  else d.clear f

/-- A field is released, if it is not null, and set to null. -/
def drop (d : OwnedFields φ) (f : φ) : OwnedFields φ :=
  { d with
    field := Function.update d.field f none
    log := d.log ++ (d.field f).toList.map .release }

/-- What a field has is handed on. -/
def handOn (d : OwnedFields φ) (f : φ) : OwnedFields φ :=
  { d with
    field := Function.update d.field f none
    handed := (d.field f).toList + d.handed }

end Operations

variable {d : OwnedFields φ} {s : List φ}

/-- To use a field does not change it. -/
@[simp] theorem touch_field (f : φ) : (d.touch f).field = d.field := rfl

/-- Nor does it hand anything on. -/
@[simp] theorem touch_handed (f : φ) : (d.touch f).handed = d.handed := rfl

/-! ### The invariant -/

section Tidy

variable [Fintype φ]

/-- The fields have what the log holds, but for what has been handed on; the fields outside the
list are null. -/
structure Tidy (d : OwnedFields φ) (s : List φ) : Prop where
  held : holdings d.log = some (d.handed + ∑ f, heldBy (d.field f) 0)
  /-- Every resource is obtained once. -/
  once : ∀ r, d.log.count (.acquire r) ≤ if r < d.next then 1 else 0
  null : ∀ f, f ∉ s → d.field f = none

/-- A new object has nothing. -/
theorem tidy_new : Tidy (new : OwnedFields φ) [] where
  held := by
    change some 0 = some (0 + ∑ _f : φ, (0 : Multiset ℕ))
    rw [Finset.sum_const_zero, add_zero]
  once r := Nat.zero_le _
  null _ _ := rfl

namespace Tidy

/-- Entries that obtain nothing obtain nothing twice. -/
theorem once_append (h : Tidy d s) {more : List (ResourceUse ℕ)}
    (hmore : ∀ r, .acquire r ∉ more) (r : ℕ) :
    (d.log ++ more).count (.acquire r) ≤ if r < d.next then 1 else 0 := by
  rw [List.count_append, List.count_eq_zero_of_not_mem (hmore r), Nat.add_zero]
  exact h.once r

/-- A field that may have nothing may have something. -/
theorem mono (h : Tidy d s) {t : List φ} (hst : ∀ f ∈ s, f ∈ t) : Tidy d t :=
  ⟨h.held, h.once, fun f hf => h.null f fun hs => hf (hst f hs)⟩

/-- With empty fields, what is held has been handed on. -/
theorem held_of_empty (h : Tidy d []) : holdings d.log = some d.handed := by
  have hzero : ∑ f, heldBy (d.field f) 0 = 0 :=
    Finset.sum_eq_zero fun f _ => by rw [h.null f List.not_mem_nil]; rfl
  rw [h.held, hzero, add_zero]

/-- With empty fields, what has been handed on has not been released, and the rest has been
released once. -/
theorem released (h : Tidy d []) {r : ℕ} (hr : .acquire r ∈ d.log) :
    d.log.count (.release r) = if r ∈ d.handed then 0 else 1 := by
  have hcount := count_foldlM (r := r) h.held_of_empty
  have hone : d.log.count (.acquire r) ≤ 1 := (h.once r).trans (by split <;> omega)
  have hpos := List.count_pos_iff.mpr hr
  rw [Multiset.count_zero] at hcount
  split
  · rename_i hmem
    have := Multiset.count_pos.mpr hmem
    omega
  · rename_i hmem
    rw [Multiset.count_eq_zero_of_notMem hmem] at hcount
    omega

/-- **Released exactly once**: with empty fields, and nothing handed on. -/
theorem releasedOnce (h : Tidy d []) (hhanded : d.handed = 0) : ReleasedOnce d.log := by
  refine (settled_iff_releasedOnce fun r => (h.once r).trans ?_).mp ?_
  · split <;> omega
  · rw [Settled, h.held_of_empty, hhanded]

end Tidy

end Tidy

/-! ### The operations -/

variable [DecidableEq φ]

section Fields

variable (f : φ)

/-- To set a field to null hands nothing on. -/
@[simp] theorem clear_handed : (d.clear f).handed = d.handed := rfl

/-- The field is null. -/
@[simp] theorem clear_field : (d.clear f).field = Function.update d.field f none := rfl

/-- The field that is released is null. -/
@[simp] theorem drop_field : (d.drop f).field = Function.update d.field f none := rfl

/-- What is released is not handed on. -/
@[simp] theorem drop_handed : (d.drop f).handed = d.handed := rfl

/-- Nor is what a call returns. -/
@[simp] theorem fetch_handed (ok : Bool) : (d.fetch f ok).handed = d.handed := by
  cases ok <;> rfl

/-- The field has something when the call succeeds. -/
theorem fetch_isSome (ok : Bool) : ((d.fetch f ok).field f).isSome = ok := by
  cases ok with
  | false => exact congrArg Option.isSome (Function.update_self f none d.field)
  | true => exact congrArg Option.isSome (Function.update_self f (some d.next) d.field)

/-- The other fields stay. -/
theorem fetch_field_of_ne {g : φ} (hg : g ≠ f) (ok : Bool) :
    (d.fetch f ok).field g = d.field g := by
  cases ok with
  | false => exact Function.update_of_ne hg _ _
  | true => exact Function.update_of_ne hg _ _

/-- The other fields stay when one is released. -/
theorem drop_field_of_ne {g : φ} (hg : g ≠ f) : (d.drop f).field g = d.field g :=
  Function.update_of_ne hg _ _

/-- The other fields stay when one is handed on. -/
theorem handOn_field_of_ne {g : φ} (hg : g ≠ f) : (d.handOn f).field g = d.field g :=
  Function.update_of_ne hg _ _

end Fields

omit [DecidableEq φ] in
/-- A field that is not null. -/
theorem isSome_of_not_isNone {f : φ} (h : ¬(d.field f).isNone = true) :
    (d.field f).isSome = true :=
  Option.isSome_iff_ne_none.mpr fun hnone => h (by rw [hnone]; rfl)

/-- A field that is null stays so. -/
theorem clear_of_none {f : φ} (h : d.field f = none) : d.clear f = d := by
  rw [clear, ← h, Function.update_eq_self]

variable [Fintype φ]

/-- What is held, with one field apart. -/
theorem sum_field (field : φ → Option ℕ) (f : φ) (rest : Multiset ℕ) :
    rest + ∑ g, heldBy (field g) 0 =
      heldBy (field f) (rest + ∑ g ∈ Finset.univ.erase f, heldBy (field g) 0) := by
  rw [← Finset.add_sum_erase _ _ (Finset.mem_univ f)]
  cases field f with
  | none => exact congrArg (rest + ·) (zero_add _)
  | some r =>
      change rest + ({r} + _) = {r} + (rest + _)
      rw [add_left_comm]

/-- What is held after one field has been replaced. -/
theorem sum_update (field : φ → Option ℕ) (f : φ) (pointer : Option ℕ) (rest : Multiset ℕ) :
    rest + ∑ g, heldBy (Function.update field f pointer g) 0 =
      heldBy pointer (rest + ∑ g ∈ Finset.univ.erase f, heldBy (field g) 0) := by
  rw [sum_field _ f, Function.update_self]
  refine congrArg _ (congrArg (rest + ·) (Finset.sum_congr rfl fun g hg => ?_))
  rw [Function.update_of_ne (Finset.ne_of_mem_erase hg)]

namespace Tidy

/-- The fields other than one that is set to null. -/
theorem null_update (h : Tidy d s) (f g : φ) (hg : g ∉ s.filter (· ≠ f)) :
    Function.update d.field f none g = none := by
  by_cases hgf : g = f
  · rw [hgf, Function.update_self]
  · rw [Function.update_of_ne hgf]
    refine h.null g fun hs => hg ?_
    rw [List.mem_filter]
    exact ⟨hs, by simpa using hgf⟩

/-- A field that turns out to be null. -/
theorem of_isNone (h : Tidy d s) {f : φ} (hf : (d.field f).isNone = true) :
    Tidy d (s.filter (· ≠ f)) := by
  refine ⟨h.held, h.once, fun g hg => ?_⟩
  rw [← h.null_update f g hg]
  by_cases hgf : g = f
  · rw [hgf, Function.update_self]
    exact Option.isNone_iff_eq_none.mp hf
  · rw [Function.update_of_ne hgf]

/-- A field that is null is set to null. -/
theorem clear (h : Tidy d s) (f : φ) (hf : f ∉ s) : Tidy (d.clear f) s := by
  rw [clear_of_none (h.null f hf)]
  exact h

/-- A field that is null is assigned. -/
theorem fetch (h : Tidy d s) (f : φ) (hf : f ∉ s) (ok : Bool) :
    Tidy (d.fetch f ok) (f :: s) := by
  have hnull := h.null f hf
  cases ok with
  | false =>
      rw [OwnedFields.fetch, if_neg Bool.false_ne_true, clear_of_none hnull]
      exact h.mono fun g hg => List.mem_cons_of_mem f hg
  | true =>
      refine ⟨?_, fun r => ?_, fun g hg => ?_⟩
      · change holdings (d.log ++ [.acquire d.next]) = some (d.handed +
          ∑ g, heldBy (Function.update d.field f (some d.next) g) 0)
        have hsum := sum_field d.field f d.handed
        rw [hnull] at hsum
        rw [holdings_append_of h.held, sum_update, hsum]
        rfl
      · change (d.log ++ [ResourceUse.acquire d.next]).count (ResourceUse.acquire r) ≤
          if r < d.next + 1 then 1 else 0
        have honce := h.once r
        rw [List.count_append, List.count_singleton]
        by_cases hr : d.next = r
        · subst hr
          rw [if_neg (lt_irrefl _)] at honce
          rw [if_pos (Nat.lt_succ_self _)]
          simp only [beq_self_eq_true, if_true]
          omega
        · have hne : (ResourceUse.acquire d.next == ResourceUse.acquire r) = false := by
            simpa using hr
          rw [hne, if_neg Bool.false_ne_true, Nat.add_zero]
          refine honce.trans ?_
          split <;> split <;> omega
      · rw [List.mem_cons, not_or] at hg
        change Function.update d.field f (some d.next) g = none
        rw [Function.update_of_ne hg.1]
        exact h.null g hg.2

/-- A field is dropped. -/
theorem drop (h : Tidy d s) (f : φ) : Tidy (d.drop f) (s.filter (· ≠ f)) := by
  refine ⟨?_, h.once_append fun r hr => ?_, h.null_update f⟩
  · change holdings (d.log ++ (d.field f).toList.map .release) = some (d.handed +
      ∑ g, heldBy (Function.update d.field f none g) 0)
    rw [holdings_append_of h.held, sum_field d.field f, release_heldBy, sum_update]
    rfl
  · simp only [List.mem_map] at hr
    obtain ⟨_, _, ⟨⟩⟩ := hr

/-- A field is used. -/
theorem touch (h : Tidy d s) (f : φ) : Tidy (d.touch f) s := by
  refine ⟨?_, h.once_append fun r hr => ?_, h.null⟩
  · change holdings (d.log ++ (d.field f).toList.map .use) = some (d.handed +
      ∑ g, heldBy (d.field g) 0)
    rw [holdings_append_of h.held, sum_field d.field f, use_heldBy]
  · simp only [List.mem_map] at hr
    obtain ⟨_, _, ⟨⟩⟩ := hr

/-- What a field has is handed on. -/
theorem handOn (h : Tidy d s) (f : φ) : Tidy (d.handOn f) (s.filter (· ≠ f)) := by
  refine ⟨?_, h.once, h.null_update f⟩
  change holdings d.log = some (((d.field f).toList : Multiset ℕ) + d.handed +
    ∑ g, heldBy (Function.update d.field f none g) 0)
  rw [h.held, sum_update, sum_field d.field f]
  cases d.field f with
  | none =>
      change some (d.handed + _) = some (0 + d.handed + _)
      rw [zero_add]
  | some r =>
      change some ({r} + (d.handed + _)) = some ({r} + d.handed + _)
      rw [add_assoc]

end Tidy

end OwnedFields

end DockerMacos
