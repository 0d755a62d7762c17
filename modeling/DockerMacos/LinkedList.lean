import Mathlib.Data.List.Basic
import Mathlib.Data.List.Nodup

/-!
# Doubly Linked Lists

A doubly linked list is held in two link functions `prv` and `nxt` on nodes and a head
pointer. `Linked prv nxt null p h l` says that from the head `h` on, with `p` before it,
the links run through exactly the nodes of `l` and end in `null`.

## Links and lists

The functions are total and the nodes of any type, so several lists may be held in the same
links. An update of the links at other nodes leaves a list as it is (`Linked.congr`). Nothing is
assumed about the nodes of a list being different: that follows from the back links.

## Main results

* `Linked.push`: a new node in front.
* `Linked.unlink`: a node taken out of the middle.
* `Linked.split`: what the links of a node say about the list.
* `Linked.nodup`: a list whose back links are right has no cycle.
-/

namespace DockerMacos

variable {α : Type*}

/-- From `h` on the links run through the nodes of the list; `p` is before `h`. -/
def Linked (prv nxt : α → α) (null : α) : α → α → List α → Prop
  | _, h, [] => h = null
  | p, h, x :: l => h = x ∧ x ≠ null ∧ prv x = p ∧ Linked prv nxt null x (nxt x) l

namespace Linked

variable {prv nxt prv' nxt' : α → α} {null p h x : α} {l l₁ l₂ : List α}

/-- An empty list begins with the end mark. -/
@[simp] theorem nil_iff : Linked prv nxt null p h [] ↔ h = null := Iff.rfl

/-- A list begins with its first element, which points on and back. -/
@[simp] theorem cons_iff : Linked prv nxt null p h (x :: l) ↔
    h = x ∧ x ≠ null ∧ prv x = p ∧ Linked prv nxt null x (nxt x) l := Iff.rfl

/-- A list depends only on the links of its own nodes. -/
theorem congr (hl : Linked prv nxt null p h l) (hp : ∀ y ∈ l, prv' y = prv y)
    (hn : ∀ y ∈ l, nxt' y = nxt y) : Linked prv' nxt' null p h l := by
  induction l generalizing p h with
  | nil => exact hl
  | cons x l ih =>
      obtain ⟨rfl, hne, hprv, hrest⟩ := hl
      refine ⟨rfl, hne, (hp h List.mem_cons_self).trans hprv, ?_⟩
      rw [hn h List.mem_cons_self]
      exact ih hrest (fun y hy => hp y (List.mem_cons_of_mem _ hy))
        fun y hy => hn y (List.mem_cons_of_mem _ hy)

/-- The head pointer. -/
theorem head_eq (hl : Linked prv nxt null p h l) : h = l.head?.getD null := by
  cases l with
  | nil => exact hl
  | cons x l => exact hl.1

/-- The end mark is no element. -/
theorem ne_null (hl : Linked prv nxt null p h l) : ∀ y ∈ l, y ≠ null := by
  induction l generalizing p h with
  | nil => simp
  | cons x l ih =>
      obtain ⟨-, hne, -, hrest⟩ := hl
      intro y hy
      rcases List.mem_cons.mp hy with rfl | hy
      · exact hne
      · exact ih hrest y hy

/-- The links of a node lead to its neighbours. -/
theorem split (hl : Linked prv nxt null p h (l₁ ++ x :: l₂)) :
    prv x = l₁.getLast?.getD p ∧ nxt x = l₂.head?.getD null := by
  induction l₁ generalizing p h with
  | nil => exact ⟨hl.2.2.1, hl.2.2.2.head_eq⟩
  | cons a l₁ ih =>
      obtain ⟨hprv, hnxt⟩ := ih hl.2.2.2
      refine ⟨hprv.trans ?_, hnxt⟩
      cases l₁ <;> simp [List.getLast?_cons]

/-- The nodes next to a node point back to it. -/
theorem back (hl : Linked prv nxt null p h (l₁ ++ x :: l₂)) :
    (∀ y, l₂.head? = some y → prv y = x) ∧ ∀ y, l₁.getLast? = some y → nxt y = x := by
  induction l₁ generalizing p h with
  | nil =>
      refine ⟨fun y hy => ?_, by simp⟩
      cases l₂ with
      | nil => simp at hy
      | cons z l₂ =>
          obtain rfl : z = y := by simpa using hy
          exact hl.2.2.2.2.2.1
  | cons a l₁ ih =>
      obtain ⟨hnext, hlast⟩ := ih hl.2.2.2
      refine ⟨hnext, fun y hy => ?_⟩
      cases l₁ with
      | nil =>
          obtain rfl : a = y := by simpa using hy
          exact hl.2.2.2.1
      | cons b l₁ =>
          refine hlast y ?_
          simpa [List.getLast?_cons] using hy

/-- **No cycle.** The back links alone keep a list from running into itself: a node that
comes up again would have the same node before it both times. -/
theorem nodup (hl : Linked prv nxt null p h l) (hp : p ∉ l) : l.Nodup := by
  induction l generalizing p h with
  | nil => exact List.nodup_nil
  | cons x l ih =>
      obtain ⟨rfl, hne, hprv, hrest⟩ := hl
      have hx : h ∉ l := by
        intro hmem
        obtain ⟨l₁, l₂, rfl⟩ := List.append_of_mem hmem
        have hback := (hrest.split).1
        rw [hprv] at hback
        cases hlast : l₁.getLast? with
        | none =>
            rw [hlast, Option.getD_none] at hback
            exact hp (hback ▸ List.mem_cons_self)
        | some y =>
            rw [hlast, Option.getD_some] at hback
            have hy := List.mem_of_getLast? hlast
            exact hp (hback ▸ by simp [hy])
      exact List.nodup_cons.mpr ⟨hx, ih hrest hx⟩

/-- A new node in front: it points at the old head, and the old head back at it. -/
theorem push (hl : Linked prv nxt null p h l) (hx : x ≠ null) (hpx : prv' x = p)
    (hnx : nxt' x = h) (hhead : ∀ y, l.head? = some y → prv' y = x)
    (hp : ∀ y ∈ l, l.head? ≠ some y → prv' y = prv y) (hn : ∀ y ∈ l, nxt' y = nxt y)
    (hnodup : l.Nodup) : Linked prv' nxt' null p x (x :: l) := by
  refine ⟨rfl, hx, hpx, ?_⟩
  rw [hnx]
  cases l with
  | nil => exact hl
  | cons a l =>
      obtain ⟨rfl, hne, -, hrest⟩ := hl
      refine ⟨rfl, hne, hhead h rfl, ?_⟩
      rw [hn h List.mem_cons_self]
      refine hrest.congr (fun y hy => ?_) fun y hy => hn y (List.mem_cons_of_mem _ hy)
      refine hp y (List.mem_cons_of_mem _ hy) fun heq => ?_
      obtain rfl : h = y := by simpa using heq
      exact (List.nodup_cons.mp hnodup).1 hy

/-- **Unlinking.** A node leaves the list when its neighbours are linked past it. -/
theorem unlink (hl : Linked prv nxt null p h (l₁ ++ x :: l₂))
    (hnodup : (l₁ ++ x :: l₂).Nodup)
    (hnext : ∀ y, l₂.head? = some y → prv' y = prv x)
    (hlast : ∀ y, l₁.getLast? = some y → nxt' y = nxt x)
    (hp : ∀ y ∈ l₁ ++ l₂, l₂.head? ≠ some y → prv' y = prv y)
    (hn : ∀ y ∈ l₁ ++ l₂, l₁.getLast? ≠ some y → nxt' y = nxt y) :
    Linked prv' nxt' null p (if l₁ = [] then nxt x else h) (l₁ ++ l₂) := by
  induction l₁ generalizing p h with
  | nil =>
      obtain ⟨rfl, -, hpx, hrest⟩ := hl
      rw [List.nil_append, if_pos rfl]
      cases l₂ with
      | nil => exact hrest
      | cons b l₂ =>
          obtain ⟨hb, hne, -, hrest⟩ := hrest
          refine ⟨hb, hne, (hnext b rfl).trans hpx, ?_⟩
          rw [hn b (by simp) (by simp)]
          refine hrest.congr (fun y hy => hp y (by simp [hy]) fun heq => ?_) fun y hy =>
            hn y (by simp [hy]) (by simp)
          obtain rfl : b = y := by simpa using heq
          simp_all
  | cons a l₁ ih =>
      obtain ⟨rfl, hne, hprv, hrest⟩ := hl
      rw [if_neg (by simp)]
      have hnodup' := (List.nodup_cons.mp hnodup).2
      have hfresh := (List.nodup_cons.mp hnodup).1
      refine ⟨rfl, hne, ?_, ?_⟩
      · refine (hp h (by simp) fun heq => hfresh ?_).trans hprv
        simp [List.mem_of_mem_head? heq]
      · have hh : nxt' h = if l₁ = [] then nxt x else nxt h := by
          cases l₁ with
          | nil => simpa using hlast h (by simp)
          | cons b l₁ =>
              rw [if_neg (by simp)]
              refine hn h (by simp) fun heq => hfresh ?_
              rw [List.getLast?_cons_cons] at heq
              exact List.mem_append_left _ (List.mem_of_getLast? heq)
        rw [hh]
        refine ih hrest hnodup' (fun y hy => ?_) (fun y hy hyl => hp y (by simp [hy]) hyl)
          fun y hy hyl => hn y (by simp [hy]) fun heq => hyl ?_
        · cases l₁ with
          | nil => simp at hy
          | cons b l₁ => exact hlast y (by rwa [List.getLast?_cons_cons])
        · cases l₁ with
          | nil =>
              obtain rfl : h = y := by simpa using heq
              exact absurd (List.mem_append_right _ (List.mem_cons_of_mem _ hy)) hfresh
          | cons b l₁ => rwa [List.getLast?_cons_cons] at heq

end Linked

end DockerMacos
