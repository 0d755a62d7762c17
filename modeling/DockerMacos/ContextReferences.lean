import DockerMacos.GraphicsPlugin
import DockerMacos.ResourceLog
import Mathlib.Data.Multiset.Count
import Mathlib.Data.Set.Card

/-!
# References of 2D Contexts

A 2D context (`AC/UC/VMsvga22DContext.cpp`) retains the surface that it is set to and releases
it when it is set to something else and when it is closed; `CopyRegion` retains its source for
the time of the copy. The surface may be closed by its client in between. This module keeps the
log of these references beside the runs of the system.

## The log

`contextReferences` tells what a call takes, needs and gives up, in the order in which the
source does it. A call that is passed on to the surface needs the context's reference to it;
the calls of the surface's own client need none, as the client holds its surface by another
means. The log is written here and not in the driver, and nothing of the model reads it.

## What is held

`Holding` compares the log with the contexts: what is held is what the contexts have, each
surface as often as there are contexts set to it. Only finitely many contexts have one.

## Main results

* `Holding.step`: a step keeps to what is held.
* `context_references`: a context uses a surface only while a reference to it is held, and what
  is held is what the contexts have.
* `closed_not_retained`: no context takes a reference to a closed surface.
-/

namespace DockerMacos

namespace World

/-! ### What a call does with references -/

/-- A call is passed on to the surface of the context. -/
def passes (w : World) (c : ℕ) : List (ResourceUse ℕ) := (w.target c).toList.map .use

/-- The references to surfaces that a call of context `c` takes, needs and gives up. -/
def contextReferences (w : World) (c : ℕ) : ContextOp → List (ResourceUse ℕ)
  | .setSurface structOut surfaceId hasId _ _ _ found _ =>
      if !structOut then []
      else (w.contexts c).surfaceClient.toList.map .release ++
        if hasId && (w.contexts c).provider then
          match found with
          | none => []
          | some i => if w.answers (surfaceId % 2 ^ 32) i then [.acquire i, .use i] else []
        else []
  | .swapSurface => w.passes c
  | .scaleSurface .. => w.passes c
  | .lockMemory argsOk .. => if argsOk then w.passes c else []
  | .unlockMemory => w.passes c
  | .copyRegion sourceId found region regionSize _ _ =>
      if region.all (regionSize < ·.size) || !(w.contexts c).provider then []
      else if (w.contexts c).targetIsCGSSurface && (w.contexts c).surfaceClient.isNone then []
      else if sourceId % 2 ^ 32 ≠ 0 then
        match found with
        | none => []
        | some j =>
            if w.answers (sourceId % 2 ^ 32) j then
              .acquire j :: (w.passes c ++ [.use j, .release j])
            else []
      else w.passes c
  | .close => (w.contexts c).surfaceClient.toList.map .release

/-- The references that an action takes, needs and gives up. The client of a surface needs
none. -/
def references (w : World) : Action → List (ResourceUse ℕ)
  | .context c op => w.contextReferences c op
  | _ => []

/-! ### The contexts after a call -/

variable {w w' : World} {c i : ℕ} {ret : IOReturn} {out : Option Outcome}

/-- `set_surface` sets the context to the surface that it retains, and to none otherwise. -/
theorem setSurface_contexts {surfaceId : ℕ} {hasId uyvy yuy2 bgra : Bool} {found : Option ℕ}
    {env : Surface.Start3DEnv}
    (h : w.setSurface c surfaceId hasId uyvy yuy2 bgra found env = .ok w' ret out) :
    ∃ x, w'.contexts = Function.update w.contexts c x ∧
      x.surfaceClient = if hasId && (w.contexts c).provider then
        found.filter (w.answers (surfaceId % 2 ^ 32)) else none := by
  rw [setSurface] at h
  dsimp only at h
  cases hasId with
  | false =>
      cases h
      exact ⟨_, rfl, rfl⟩
  | true =>
      cases hprovider : (w.contexts c).provider with
      | false =>
          rw [hprovider] at h
          cases h
          exact ⟨_, rfl, rfl⟩
      | true =>
          rw [hprovider] at h
          cases found with
          | none =>
              cases h
              exact ⟨_, rfl, rfl⟩
          | some i =>
              simp only [Bool.not_true, Bool.false_eq_true, if_false] at h
              split at h
              · rename_i hanswers
                refine ⟨_, (call_contexts h).trans rfl, ?_⟩
                simp only [Bool.and_self, if_true, Option.filter_some, hanswers]
              · cases h

end World

/-! ### What is held -/

namespace World

variable {w w' : World} {c i : ℕ} {rest : Multiset ℕ} {ret : IOReturn} {out : Option Outcome}

/-- What is passed on needs what the context has. -/
theorem passes_held (w : World) (c : ℕ) (rest : Multiset ℕ) (more : List (ResourceUse ℕ)) :
    (w.passes c ++ more).foldlM ResourceUse.next (heldBy (w.contexts c).surfaceClient rest) =
      more.foldlM ResourceUse.next (heldBy (w.contexts c).surfaceClient rest) := by
  rw [passes, target]
  split
  · cases hclient : (w.contexts c).surfaceClient with
    | none => rfl
    | some i =>
        change ((ResourceUse.use i).next (i ::ₘ rest)).bind _ = _
        rw [next_use]
        rfl
  · rfl

/-- The same while another reference is held. -/
theorem passes_held_cons (w : World) (c j : ℕ) (rest : Multiset ℕ)
    (more : List (ResourceUse ℕ)) :
    (w.passes c ++ more).foldlM ResourceUse.next
        (j ::ₘ heldBy (w.contexts c).surfaceClient rest) =
      more.foldlM ResourceUse.next (j ::ₘ heldBy (w.contexts c).surfaceClient rest) := by
  have hswap : j ::ₘ heldBy (w.contexts c).surfaceClient rest =
      heldBy (w.contexts c).surfaceClient (j ::ₘ rest) := by
    cases (w.contexts c).surfaceClient with
    | none => rfl
    | some i => exact Multiset.cons_swap j i rest
  rw [hswap, passes_held]

/-- The context gives up what it had for what it has, and needs nothing else. -/
theorem contextCall_held {op : ContextOp} (rest : Multiset ℕ)
    (h : w.contextCall c op = .ok w' ret out) :
    (w.contextReferences c op).foldlM ResourceUse.next
        (heldBy (w.contexts c).surfaceClient rest) =
      some (heldBy (w'.contexts c).surfaceClient rest) := by
  have hsame : w'.contexts = w.contexts → (w.passes c).foldlM ResourceUse.next
        (heldBy (w.contexts c).surfaceClient rest) =
      some (heldBy (w'.contexts c).surfaceClient rest) := by
    intro heq
    have hpass := w.passes_held c rest []
    rw [List.append_nil] at hpass
    rw [hpass, heq]
    rfl
  cases op with
  | setSurface structOut surfaceId hasId uyvy yuy2 bgra found env =>
      cases structOut with
      | false =>
          cases h
          rfl
      | true =>
          obtain ⟨x, hx, hclient⟩ := setSurface_contexts h
          simp only [contextReferences, Bool.not_true, Bool.false_eq_true, if_false]
          rw [hx, Function.update_self, hclient, List.foldlM_append, release_heldBy]
          change List.foldlM ResourceUse.next rest _ = _
          split
          · cases found with
            | none => rfl
            | some i =>
                dsimp only
                rw [Option.filter_some]
                split
                · change ((ResourceUse.use i).next (i ::ₘ rest)).bind _ = _
                  rw [next_use]
                  rfl
                · rfl
          · rfl
  | swapSurface => exact hsame (passOn_contexts h)
  | scaleSurface fixedSource width height => exact hsame (passOn_contexts h)
  | lockMemory argsOk env trick =>
      cases argsOk with
      | false =>
          cases h
          rfl
      | true => exact hsame (passOn_contexts h)
  | unlockMemory => exact hsame (passOn_contexts h)
  | copyRegion sourceId found region regionSize env copied =>
      have heq := copyRegion_contexts h
      have hpass := hsame heq
      simp only [contextReferences]
      split
      · rw [heq]
        rfl
      split
      · rw [heq]
        rfl
      split
      · cases found with
        | none =>
            rw [heq]
            rfl
        | some j =>
            dsimp only
            split
            · change List.foldlM ResourceUse.next (j ::ₘ _) (w.passes c ++ _) = _
              rw [passes_held_cons, heq]
              change ((ResourceUse.use j).next _).bind _ = _
              rw [next_use]
              change ((ResourceUse.release j).next _).bind _ = _
              rw [next_release]
              rfl
            · rw [heq]
              rfl
      · exact hpass
  | close =>
      cases h
      rw [contextReferences, release_heldBy]
      change _ = some (heldBy (Function.update w.contexts c _ c).surfaceClient rest)
      rw [Function.update_self]
      rfl

/-- What the contexts of a finite set have. -/
def holders (w : World) (s : Finset ℕ) : Multiset ℕ :=
  ∑ c ∈ s, heldBy (w.contexts c).surfaceClient 0

/-- One more context adds what it has. -/
theorem holders_insert {s : Finset ℕ} (hc : c ∉ s) :
    w.holders (insert c s) = heldBy (w.contexts c).surfaceClient (w.holders s) := by
  rw [holders, Finset.sum_insert hc]
  cases (w.contexts c).surfaceClient with
  | none => exact zero_add _
  | some i => exact Multiset.singleton_add i _

/-- Contexts that stay have what they had. -/
theorem holders_congr {s : Finset ℕ} (h : ∀ d ∈ s, w'.contexts d = w.contexts d) :
    w'.holders s = w.holders s :=
  Finset.sum_congr rfl fun d hd => by rw [h d hd]

/-- What is held is what the contexts have; all but finitely many have none. -/
def Holding (w : World) (held : Multiset ℕ) : Prop :=
  ∃ s : Finset ℕ, (∀ d, d ∉ s → (w.contexts d).surfaceClient = none) ∧ held = w.holders s

/-- Each reference is held once for each context that has it. -/
theorem Holding.count {held : Multiset ℕ} (h : w.Holding held) (i : ℕ) :
    held.count i = {c | (w.contexts c).surfaceClient = some i}.ncard := by
  obtain ⟨s, hnone, rfl⟩ := h
  have hone : ∀ c, (heldBy (w.contexts c).surfaceClient 0).count i =
      if (w.contexts c).surfaceClient = some i then 1 else 0 := by
    intro c
    cases (w.contexts c).surfaceClient with
    | none => rfl
    | some j =>
        change Multiset.count i {j} = _
        rw [Multiset.count_singleton]
        simp only [Option.some.injEq, eq_comm]
  have hset : {c | (w.contexts c).surfaceClient = some i} =
      ((s.filter fun c => (w.contexts c).surfaceClient = some i : Finset ℕ) : Set ℕ) := by
    ext c
    simp only [Set.mem_ofPred_eq, Finset.coe_filter, iff_and_self]
    intro hc
    by_contra hmem
    rw [hnone c hmem] at hc
    cases hc
  rw [holders, Multiset.count_sum', Finset.sum_congr rfl fun c _ => hone c, hset,
    Set.ncard_coe_finset, Finset.card_filter]

/-- Only the calls of contexts change the contexts and need references. -/
theorem step_references {act : Action} (hstep : w.step act = some w') :
    (∃ c op ret out, act = .context c op ∧ w.contextCall c op = .ok w' ret out) ∨
      w.references act = [] ∧ w'.contexts = w.contexts := by
  cases act with
  | start i screenInfo env =>
      exact .inr ⟨rfl, funext fun d => step_contexts (by rintro _ ⟨⟩) hstep⟩
  | client i op => exact .inr ⟨rfl, funext fun d => step_contexts (by rintro _ ⟨⟩) hstep⟩
  | context c op =>
      rw [World.step] at hstep
      split at hstep
      · rename_i v ret out hresult
        cases hstep
        exact .inl ⟨c, op, ret, out, rfl, hresult⟩
      · cases hstep
  | write ptr k v => exact .inr ⟨rfl, funext fun d => step_contexts (by rintro _ ⟨⟩) hstep⟩

/-- **A step** of the system keeps to what is held. -/
theorem Holding.step {held : Multiset ℕ} {act : Action} (h : w.Holding held)
    (hstep : w.step act = some w') :
    ∃ held', (w.references act).foldlM ResourceUse.next held = some held' ∧
      w'.Holding held' := by
  obtain ⟨s, hnone, rfl⟩ := h
  rcases step_references hstep with ⟨c, op, ret, out, rfl, hresult⟩ | ⟨hreferences, heq⟩
  · obtain ⟨x, hx⟩ := contextCall_contexts hresult
    have hlog := contextCall_held (w.holders (s.erase c)) hresult
    have hbefore : heldBy (w.contexts c).surfaceClient (w.holders (s.erase c)) =
        w.holders s := by
      by_cases hc : c ∈ s
      · rw [← holders_insert (Finset.notMem_erase c s), Finset.insert_erase hc]
      · rw [hnone c hc, Finset.erase_eq_of_notMem hc]
        rfl
    have hothers : w'.holders (s.erase c) = w.holders (s.erase c) := by
      refine holders_congr fun d hd => ?_
      rw [hx, Function.update_of_ne (Finset.ne_of_mem_erase hd)]
    rw [hbefore, ← hothers, ← holders_insert (Finset.notMem_erase c s)] at hlog
    refine ⟨_, hlog, _, fun d hd => ?_, rfl⟩
    rw [Finset.mem_insert, not_or] at hd
    rw [hx, Function.update_of_ne hd.1]
    exact hnone d fun hmem => hd.2 (Finset.mem_erase_of_ne_of_mem hd.1 hmem)
  · rw [hreferences]
    refine ⟨_, rfl, s, fun d hd => heq ▸ hnone d hd, (holders_congr fun d _ => ?_).symm⟩
    rw [heq]

end World

/-! ### Runs -/

/-- The log of the references to surfaces along a run. -/
def World.referenceLog (w : World) (as : List Action) : List (ResourceUse ℕ) :=
  logAlong World.step World.references w as

/-- **References of contexts**, in every run of any number of clients and contexts: a context
calls a surface only while a reference to it is held, whoever has closed the surface since, a
reference is released only where it was taken, and what is held at the end is what the contexts
have. So nothing is held once no context has a surface. -/
theorem context_references {a : Accel} {as : List Action} {w : World}
    (h : Run World.step Always (.start a) as w) :
    (∃ held, holdings ((World.start a).referenceLog as) = some held ∧
      ∀ i, held.count i = {c | (w.contexts c).surfaceClient = some i}.ncard) ∧
    ((∀ c, (w.contexts c).surfaceClient = none) →
      Settled ((World.start a).referenceLog as)) := by
  have hstart : (World.start a).Holding 0 := ⟨∅, fun _ _ => rfl, rfl⟩
  obtain ⟨held, hlog, hheld⟩ := h.holdings (I := World.Holding)
    (fun _ _ _ _ hw _ hstep => hw.step hstep) hstart
  refine ⟨⟨held, hlog, hheld.count⟩, fun hnone => ?_⟩
  rw [Settled, World.referenceLog, holdings, hlog, Option.some_inj]
  refine Multiset.eq_zero_of_forall_notMem fun i hi => ?_
  have hpos := Multiset.count_pos.mpr hi
  rw [hheld.count] at hpos
  simp only [hnone, reduceCtorEq, Set.ofPred_false, Set.ncard_empty, lt_irrefl] at hpos

/-- The context is set to a surface that is closed. -/
theorem context_references_closed : ∃ w, Run World.step Always smallWorld closedSession w ∧
    (w.contexts 0).surfaceClient = some 0 ∧
    (∃ held, holdings (smallWorld.referenceLog closedSession) = some held ∧
      ∀ i, held.count i = {c | (w.contexts c).surfaceClient = some i}.ncard) ∧
    ((∀ c, (w.contexts c).surfaceClient = none) →
      Settled (smallWorld.referenceLog closedSession)) := by
  have heval : (closedSession.foldlM World.step smallWorld).map
      (fun w => (w.contexts 0).surfaceClient) = some (some 0) := by decide +kernel
  obtain ⟨w, hfold, hclient⟩ := Option.map_eq_some_iff.mp heval
  exact ⟨w, run_of_foldlM hfold, hclient, context_references (run_of_foldlM hfold)⟩

/-! ### Closed surfaces -/

namespace World

/-- The surface has been started and closed. -/
def Gone (w : World) (i : ℕ) : Prop := w.started i = true ∧ (w.surfaces i).provider = false

variable {w w' : World} {i : ℕ} {act : Action}

/-- A closed surface stays closed. -/
theorem Gone.step (h : w.Gone i) (hstep : w.step act = some w') : w'.Gone i := by
  obtain ⟨hstarted, hprovider⟩ := h
  obtain ⟨out, hmoved⟩ := step_moved hstep
  cases hmoved with
  | @called _ j op o x hcalled happly =>
      refine ⟨hstarted, ?_⟩
      change (Function.update w.surfaces j o.surface i).provider = false
      by_cases hij : i = j
      · subst hij
        rw [Function.update_self]
        refine (Surface.apply_change happly).memory_rule
          (I := fun _ s => s.provider = false) hprovider ?_ ?_ ?_
        · intro a b s t hs hsteady
          exact hsteady.provider.trans hs
        · intro u env ok b t _ _ hu halloc
          obtain ⟨-, backing, rfl⟩ := Surface.allocBacking_kept halloc
          exact hu
        · intro a s _
          rfl
      · rw [Function.update_of_ne hij]
        exact hprovider
  | @started j screenInfo env o hfresh haddr hstart =>
      have hij : i ≠ j := by
        rintro rfl
        rw [hstarted] at hfresh
        cases hfresh
      refine ⟨?_, ?_⟩
      · change Function.update w.started j true i = true
        rw [Function.update_of_ne hij]
        exact hstarted
      · change (Function.update w.surfaces j o.surface i).provider = false
        rw [Function.update_of_ne hij]
        exact hprovider
  | wrote hwrite => exact ⟨hstarted, hprovider⟩
  | stayed x hcalled => exact ⟨hstarted, hprovider⟩

/-- A reference is taken to a surface that answers only. -/
theorem acquire_answers {c : ℕ} {op : ContextOp} (h : .acquire i ∈ w.contextReferences c op) :
    ∃ id, w.answers id i = true := by
  have hpass : .acquire i ∉ w.passes c := by
    simp only [passes, List.mem_map, Option.mem_toList, not_exists, not_and]
    rintro _ _ ⟨⟩
  have hrelease : ∀ client : Option ℕ,
      ResourceUse.acquire i ∉ client.toList.map ResourceUse.release := by
    intro client
    simp only [List.mem_map, Option.mem_toList, not_exists, not_and]
    rintro _ _ ⟨⟩
  cases op with
  | setSurface structOut surfaceId hasId uyvy yuy2 bgra found env =>
      simp only [contextReferences] at h
      split at h
      · cases h
      rw [List.mem_append] at h
      rcases h with h | h
      · exact absurd h (hrelease _)
      split at h
      · cases found with
        | none => cases h
        | some j =>
            dsimp only at h
            split at h
            · rename_i hanswers
              obtain rfl : i = j := by simpa using h
              exact ⟨_, hanswers⟩
            · cases h
      · cases h
  | swapSurface => exact absurd h hpass
  | scaleSurface fixedSource width height => exact absurd h hpass
  | lockMemory argsOk env trick =>
      simp only [contextReferences] at h
      split at h
      · exact absurd h hpass
      · cases h
  | unlockMemory => exact absurd h hpass
  | copyRegion sourceId found region regionSize env copied =>
      simp only [contextReferences] at h
      split at h
      · cases h
      split at h
      · cases h
      split at h
      · cases found with
        | none => cases h
        | some j =>
            dsimp only at h
            split at h
            · rename_i hanswers
              obtain rfl : i = j := by simpa [hpass] using h
              exact ⟨_, hanswers⟩
            · cases h
      · exact absurd h hpass
  | close => exact absurd h (hrelease _)

/-- A context gets a surface that answers only. -/
theorem client_answers {c d : ℕ} {op : ContextOp} {ret : IOReturn} {out : Option Outcome}
    (h : w.contextCall c op = .ok w' ret out) (hd : (w'.contexts d).surfaceClient = some i) :
    (w.contexts d).surfaceClient = some i ∨ ∃ id, w.answers id i = true := by
  obtain ⟨x, hx⟩ := contextCall_contexts h
  by_cases hdc : d = c
  · subst hdc
    cases op with
    | setSurface structOut surfaceId hasId uyvy yuy2 bgra found env =>
        cases structOut with
        | false =>
            cases h
            exact .inl hd
        | true =>
            obtain ⟨y, hy, hclient⟩ := setSurface_contexts h
            rw [hy, Function.update_self, hclient] at hd
            split at hd
            · exact .inr ⟨_, (Option.filter_eq_some_iff.mp hd).2⟩
            · cases hd
    | swapSurface => exact .inl (passOn_contexts h ▸ hd)
    | scaleSurface fixedSource width height => exact .inl (passOn_contexts h ▸ hd)
    | lockMemory argsOk env trick =>
        cases argsOk with
        | false =>
            cases h
            exact .inl hd
        | true => exact .inl (passOn_contexts h ▸ hd)
    | unlockMemory => exact .inl (passOn_contexts h ▸ hd)
    | copyRegion sourceId found region regionSize env copied =>
        exact .inl (copyRegion_contexts h ▸ hd)
    | close =>
        cases h
        change (Function.update w.contexts d _ d).surfaceClient = some i at hd
        rw [Function.update_self] at hd
        cases hd
  · rw [hx, Function.update_of_ne hdc] at hd
    exact .inl hd

/-- A closed surface does not answer. -/
theorem Gone.not_answers (h : w.Gone i) (id : ℕ) : w.answers id i ≠ true := by
  rw [answers, h.2]
  exact Bool.false_ne_true

/-- No action takes a reference to a closed surface, and no context is set to it. -/
theorem Gone.references (h : w.Gone i) (hstep : w.step act = some w') :
    .acquire i ∉ w.references act ∧ ∀ c, (w'.contexts c).surfaceClient = some i →
      (w.contexts c).surfaceClient = some i := by
  rcases step_references hstep with ⟨c, op, ret, out, rfl, hresult⟩ | ⟨hreferences, heq⟩
  · refine ⟨fun hmem => ?_, fun d hd => ?_⟩
    · obtain ⟨id, hid⟩ := acquire_answers hmem
      exact h.not_answers id hid
    · refine (client_answers hresult hd).resolve_right ?_
      rintro ⟨id, hid⟩
      exact h.not_answers id hid
  · rw [hreferences, heq]
    exact ⟨List.not_mem_nil, fun _ hd => hd⟩

end World

/-- **A closed surface gets no new references**: once a surface has been closed, no context
takes a reference to it any more, and the contexts that have it are among those that had it
when it was closed. -/
theorem closed_not_retained {w w' : World} {as : List Action} {i : ℕ} (hgone : w.Gone i)
    (h : Run World.step Always w as w') :
    .acquire i ∉ w.referenceLog as ∧ ∀ c, (w'.contexts c).surfaceClient = some i →
      (w.contexts c).surfaceClient = some i := by
  induction h with
  | nil => exact ⟨List.not_mem_nil, fun _ hc => hc⟩
  | cons _ hstep _ ih =>
      obtain ⟨hnew, hkeep⟩ := hgone.references hstep
      obtain ⟨hrest, hkeep'⟩ := ih (hgone.step hstep)
      refine ⟨?_, fun c hc => hkeep c (hkeep' c hc)⟩
      rw [World.referenceLog, logAlong, hstep, List.mem_append, not_or]
      exact ⟨hnew, hrest⟩

/-- The context that has the closed surface swaps it and is closed. -/
theorem closed_not_retained_session : ∃ w w', w.Gone 0 ∧
    (w.contexts 0).surfaceClient = some 0 ∧
    Run World.step Always w [.context 0 .swapSurface, .context 0 .close] w' ∧
    .acquire 0 ∉ w.referenceLog [.context 0 .swapSurface, .context 0 .close] ∧
    ∀ c, (w'.contexts c).surfaceClient = some 0 → (w.contexts c).surfaceClient = some 0 := by
  have heval : (closedSession.foldlM World.step smallWorld).map (fun w =>
      (w.started 0, (w.surfaces 0).provider, (w.contexts 0).surfaceClient,
        ([.context 0 .swapSurface, .context 0 .close].foldlM World.step w).isSome)) =
      some (true, false, some 0, true) := by decide +kernel
  obtain ⟨w, hfold, hend⟩ := Option.map_eq_some_iff.mp heval
  obtain ⟨hstarted, hend⟩ := Prod.mk.inj hend
  obtain ⟨hprovider, hend⟩ := Prod.mk.inj hend
  obtain ⟨hclient, hmore⟩ := Prod.mk.inj hend
  obtain ⟨w', hfold'⟩ := Option.isSome_iff_exists.mp hmore
  have hrun := run_of_foldlM hfold'
  exact ⟨w, w', ⟨hstarted, hprovider⟩, hclient, hrun,
    closed_not_retained ⟨hstarted, hprovider⟩ hrun⟩

end DockerMacos
