import DockerMacos.SurfaceChanges

/-!
# What an Action Changes

An action of the system calls at most one surface. `called` says which one and with what call,
for the calls that a 2D context passes on as for those of a surface's own client, and
`step_moved` says that nothing else happens.

## From calls to actions

What is shown of every call of a surface (`Surface.Change`) is brought to the actions here, once:
an invariant of the surfaces and the accelerator needs a case for a call, one for the start of a
surface and one for a write to VRAM, whatever clients and contexts there are.

## Frames

An action that calls one surface leaves the others as they are, except for what all of them share
in the accelerator. So a run of actions that are confined to other surfaces keeps a surface.

## Main results

* `step_moved`: an action calls a surface, starts one, writes to VRAM, or leaves the
  accelerator and the surfaces alone.
* `step_frame`, `run_frame`: actions that are confined to a surface leave the others alone.
* `memory_rule`: the rule for what holds of the memory of the surfaces in every state.
-/

namespace DockerMacos

/-! ### Calls of surfaces -/

namespace World

/-- The surface that a context passes its calls on to. -/
def target (w : World) (c : ℕ) : Option ℕ :=
  if (w.contexts c).targetIsCGSSurface then (w.contexts c).surfaceClient else none

/-- The call of a surface that a call of context `c` comes to. -/
def contextCalled (w : World) (c : ℕ) : ContextOp → Option (ℕ × SurfaceOp)
  | .setSurface structOut surfaceId hasId uyvy yuy2 bgra found env =>
      if structOut && hasId && (w.contexts c).provider then
        found.bind fun i =>
          if w.answers (surfaceId % 2 ^ 32) i then
            some (i, .contextSetSurface (setSurfaceFormats uyvy yuy2 bgra).1
              (setSurfaceFormats uyvy yuy2 bgra).2 env)
          else none
      else none
  | .swapSurface => (w.target c).map (·, .flushVideo)
  | .scaleSurface fixedSource width height =>
      (w.target c).map (·, .contextScale fixedSource width height)
  | .lockMemory argsOk env trick =>
      if argsOk then (w.target c).map (·, .contextLock argsOk env trick) else none
  | .unlockMemory => (w.target c).map (·, .contextUnlock)
  | .copyRegion sourceId found region regionSize env copied =>
      if region.all (regionSize < ·.size) || !(w.contexts c).provider then none
      else if sourceId % 2 ^ 32 ≠ 0 then
        found.bind fun j =>
          if w.answers (sourceId % 2 ^ 32) j then
            (w.target c).map (·, .copySurface (w.surfaces j) region regionSize env copied)
          else none
      else (w.target c).map (·, .copyFramebuffer region regionSize env copied)
  | .close => none

/-- The call of a surface that an action comes to. -/
def called (w : World) : Action → Option (ℕ × SurfaceOp)
  | .client i op => if w.started i && op.ofClient then some (i, op) else none
  | .context c op => w.contextCalled c op
  | _ => none

/-- What a call passed on comes to. -/
theorem passOn_cases (w : World) (c : ℕ) (op : SurfaceOp) :
    (∃ i, w.target c = some i ∧ w.passOn c op = w.call i op) ∨
      w.target c = none ∧ ∃ ret, w.passOn c op = .ok w ret none := by
  rw [passOn, target]
  cases (w.contexts c).targetIsCGSSurface with
  | false => exact .inr ⟨rfl, .unsupported, rfl⟩
  | true =>
      cases (w.contexts c).surfaceClient with
      | none => exact .inr ⟨rfl, .notReady, rfl⟩
      | some i => exact .inl ⟨i, rfl, rfl⟩

/-- What is passed on calls the surface of the context, or changes nothing. -/
theorem passOn_called (w : World) (c : ℕ) (op : SurfaceOp) :
    (∃ i sop x, (w.target c).map (·, op) = some (i, sop) ∧
      w.passOn c op = { w with contexts := x }.call i sop) ∨
      (w.target c).map (·, op) = none ∧ (w.passOn c op = .refused ∨
        ∃ x ret, w.passOn c op = .ok { w with contexts := x } ret none) := by
  rcases w.passOn_cases c op with ⟨i, htarget, hcall⟩ | ⟨htarget, ret, hcall⟩
  · rw [htarget]
    exact .inl ⟨i, op, w.contexts, rfl, hcall⟩
  · rw [htarget]
    exact .inr ⟨rfl, .inr ⟨w.contexts, ret, hcall⟩⟩

/-- What a copy into the surface of a context comes to. -/
theorem copyRegion_cases (w : World) (c sourceId : ℕ) (found : Option ℕ)
    (region : Option IOAccelDeviceRegion) (regionSize : ℕ) (env : BackingEnv)
    (copied : IOReturn) :
    (∃ i sop x, w.contextCalled c (.copyRegion sourceId found region regionSize env copied) =
        some (i, sop) ∧
      w.copyRegion c sourceId found region regionSize env copied =
        { w with contexts := x }.call i sop) ∨
      w.contextCalled c (.copyRegion sourceId found region regionSize env copied) = none ∧
        (w.copyRegion c sourceId found region regionSize env copied = .refused ∨
          ∃ x ret, w.copyRegion c sourceId found region regionSize env copied =
            .ok { w with contexts := x } ret none) := by
  simp only [contextCalled, copyRegion]
  by_cases hargs : (region.all (regionSize < ·.size) || !(w.contexts c).provider) = true
  · rw [if_pos hargs]
    refine .inr ⟨rfl, .inr ?_⟩
    split
    · exact ⟨w.contexts, _, rfl⟩
    · rename_i hregion
      rw [Bool.eq_false_of_not_eq_true hregion, Bool.false_or] at hargs
      rw [if_pos hargs]
      exact ⟨w.contexts, _, rfl⟩
  rw [if_neg hargs]
  rw [Bool.or_eq_true, not_or] at hargs
  obtain ⟨hregion, hprovider⟩ := hargs
  rw [if_neg hregion, if_neg hprovider]
  cases hcgs : (w.contexts c).targetIsCGSSurface with
  | false =>
      -- only a framebuffer to copy to
      have htarget : w.target c = none := by simp [target, hcgs]
      refine .inr ⟨?_, ?_⟩
      · split
        · cases found <;> simp [htarget]
        · simp [htarget]
      · split
        · exact .inr ⟨w.contexts, _, rfl⟩
        · split
          · split
            · exact .inr ⟨w.contexts, _, rfl⟩
            · split
              · exact .inl rfl
              · exact .inr ⟨w.contexts, _, rfl⟩
          · exact .inr ⟨w.contexts, _, rfl⟩
  | true =>
      cases hclient : (w.contexts c).surfaceClient with
      | none =>
          have htarget : w.target c = none := by simp [target, hclient]
          refine .inr ⟨?_, .inr ⟨w.contexts, .notReady, rfl⟩⟩
          split
          · cases found <;> simp [htarget]
          · simp [htarget]
      | some i =>
          have hopen : ¬ (true && (some i).isNone) = true := by simp
          rw [if_neg hopen]
          by_cases hid : sourceId % 2 ^ 32 ≠ 0
          · rw [if_pos hid, if_pos hid]
            cases found with
            | none => exact .inr ⟨rfl, .inr ⟨w.contexts, _, rfl⟩⟩
            | some j =>
                by_cases hanswers : w.answers (sourceId % 2 ^ 32) j = true
                · dsimp only [Option.bind_some]
                  rw [if_pos hanswers, if_neg (by rw [hanswers]; decide), if_pos rfl]
                  exact w.passOn_called c _
                · exact .inr ⟨if_neg hanswers, .inl (if_pos (by
                    rw [Bool.eq_false_of_not_eq_true hanswers]; rfl))⟩
          · rw [if_neg hid, if_neg hid, if_neg (by decide)]
            exact w.passOn_called c _

/-- What a call of a context comes to. -/
theorem contextCall_cases (w : World) (c : ℕ) (op : ContextOp) :
    (∃ i sop x, w.contextCalled c op = some (i, sop) ∧
      w.contextCall c op = { w with contexts := x }.call i sop) ∨
      w.contextCalled c op = none ∧ (w.contextCall c op = .refused ∨
        ∃ x ret, w.contextCall c op = .ok { w with contexts := x } ret none) := by
  cases op with
  | setSurface structOut surfaceId hasId uyvy yuy2 bgra found env =>
      simp only [contextCall, contextCalled, setSurface]
      cases structOut with
      | false => exact .inr ⟨rfl, .inr ⟨w.contexts, .badArgument, rfl⟩⟩
      | true =>
          cases hasId with
          | false => exact .inr ⟨rfl, .inr ⟨_, .success, rfl⟩⟩
          | true =>
              cases hprovider : (w.contexts c).provider with
              | false => exact .inr ⟨rfl, .inr ⟨_, .notReady, rfl⟩⟩
              | true =>
                  cases found with
                  | none => exact .inr ⟨rfl, .inr ⟨_, .notFound, rfl⟩⟩
                  | some i =>
                      by_cases hanswers : w.answers (surfaceId % 2 ^ 32) i = true
                      · exact .inl ⟨i, _, (w.setContext c ⟨true, some i, true,
                          (w.contexts c).framebufferIndex⟩).contexts, if_pos hanswers,
                          if_pos hanswers⟩
                      · exact .inr ⟨if_neg hanswers, .inl (if_neg hanswers)⟩
  | swapSurface => exact w.passOn_called c _
  | scaleSurface fixedSource width height => exact w.passOn_called c _
  | lockMemory argsOk env trick =>
      cases argsOk with
      | false => exact .inr ⟨rfl, .inr ⟨w.contexts, .badArgument, rfl⟩⟩
      | true => exact w.passOn_called c _
  | unlockMemory => exact w.passOn_called c _
  | copyRegion sourceId found region regionSize env copied =>
      exact w.copyRegion_cases c sourceId found region regionSize env copied
  | close => exact .inr ⟨rfl, .inr ⟨_, .success, rfl⟩⟩

/-! ### Steps -/

/-- What an action that leads to a new state does, with the outcome of the call. -/
inductive Moved (w : World) : Action → World → Option Outcome → Prop
  /-- A surface is called. -/
  | called {act : Action} {i : ℕ} {op : SurfaceOp} {o : Outcome} (x : ℕ → Context2D) :
      w.called act = some (i, op) → (w.surfaces i).apply w.accel op = some o →
      Moved w act { w.afterCall i o with contexts := x } (some o)
  /-- A surface is started. -/
  | started {i : ℕ} {screenInfo : ScreenInfo} {env : Surface.Start3DEnv} {o : Outcome} :
      w.started i = false → screenInfo.clientAddr = w.accel.vram.alloc.poolStart →
      (w.surfaces i).start w.accel screenInfo env = some o →
      Moved w (.start i screenInfo env)
        { w.afterCall i o with started := Function.update w.started i true } (some o)
  /-- A client writes to VRAM. -/
  | wrote {ptr k v : ℕ} {vram : AllocRun} : allocStep w.accel.vram (.write ptr k v) = some vram →
      Moved w (.write ptr k v) { w with accel := { w.accel with vram := vram } } none
  /-- Only a context changes. -/
  | stayed {act : Action} (x : ℕ → Context2D) : w.called act = none →
      Moved w act { w with contexts := x } none

/-- A call of a surface crashes or leads to a new state. -/
theorem call_moved {w w' : World} {act : Action} {i : ℕ} {op : SurfaceOp} {ret : IOReturn}
    {out : Option Outcome} (x : ℕ → Context2D) (hcalled : w.called act = some (i, op))
    (h : { w with contexts := x }.call i op = .ok w' ret out) : Moved w act w' out := by
  rw [call] at h
  split at h
  · cases h
  · rename_i o happly
    cases h
    exact .called x hcalled happly

/-- An action that leads to a new state is one of these. -/
theorem result_moved {w w' : World} {act : Action} {ret : IOReturn} {out : Option Outcome}
    (h : w.result act = .ok w' ret out) : Moved w act w' out := by
  cases act with
  | start i screenInfo env =>
      rw [result] at h
      dsimp only at h
      split at h
      · cases h
      rename_i hstarted
      split at h
      · cases h
      rename_i haddr
      split at h
      · cases h
      · rename_i o hstart
        cases h
        exact .started (Bool.eq_false_of_not_eq_true hstarted) (not_not.mp haddr) hstart
  | client i op =>
      rw [result] at h
      split at h
      · rename_i hmay
        exact call_moved w.contexts (if_pos hmay) h
      · cases h
  | context c op =>
      rcases w.contextCall_cases c op with ⟨i, sop, x, hcalled, heq⟩ |
        ⟨hcalled, heq | ⟨x, ret', heq⟩⟩
      · exact call_moved x hcalled (heq.symm.trans h)
      · cases heq.symm.trans h
      · cases heq.symm.trans h
        exact .stayed x hcalled
  | write ptr k v =>
      rw [result] at h
      dsimp only at h
      split at h
      · cases h
      · rename_i vram hwrite
        cases h
        exact .wrote hwrite

/-- **A step** calls a surface, starts one, writes to VRAM, or leaves the accelerator and the
surfaces alone. -/
theorem step_moved {w w' : World} {act : Action} (h : w.step act = some w') :
    ∃ out, Moved w act w' out := by
  rw [step] at h
  split at h
  · rename_i heq
    cases h
    exact ⟨_, result_moved heq⟩
  · cases h

/-- The action starts surface `i`, calls it, or touches no surface at all. -/
def confined (w : World) (i : ℕ) : Action → Bool
  | .start j _ _ => j == i
  | act => (w.called act).all (·.1 == i)

/-- An action that is confined to a surface leaves the others alone. -/
theorem step_frame {w w' : World} {act : Action} {i j : ℕ} (h : w.step act = some w')
    (hact : w.confined i act = true) (hj : j ≠ i) : w'.surfaces j = w.surfaces j := by
  obtain ⟨out, hmoved⟩ := step_moved h
  cases hmoved with
  | @called _ k op o x hcalled happly =>
      have hk : k = i := by
        cases act with
        | start => cases hcalled
        | client => simpa only [confined, hcalled, Option.all_some, beq_iff_eq] using hact
        | context => simpa only [confined, hcalled, Option.all_some, beq_iff_eq] using hact
        | write => cases hcalled
      subst hk
      exact Function.update_of_ne hj _ _
  | @started k screenInfo env o hstarted haddr hstart =>
      obtain rfl : k = i := by simpa only [confined, beq_iff_eq] using hact
      exact Function.update_of_ne hj _ _
  | wrote hwrite => rfl
  | stayed x hcalled => rfl

/-- A run whose actions are confined to a surface leaves the others alone. -/
theorem run_frame {C : World → Action → Prop} {w w' : World} {as : List Action} {i j : ℕ}
    (h : Run step C w as w') (hC : ∀ w act, C w act → w.confined i act = true) (hj : j ≠ i) :
    w'.surfaces j = w.surfaces j := by
  induction h with
  | nil => rfl
  | cons hact hstep _ ih => exact ih.trans (step_frame hstep (hC _ _ hact) hj)

/-- The rule for what holds of every surface by itself. -/
theorem local_rule {w w' : World} {act : Action} {P : Surface → Prop} (h : w.step act = some w')
    (hw : ∀ i, P (w.surfaces i))
    (hcall : ∀ {i : ℕ} {op : SurfaceOp} {o : Outcome}, w.called act = some (i, op) →
      P (w.surfaces i) → (w.surfaces i).apply w.accel op = some o → P o.surface)
    (hstart : ∀ {i : ℕ} {screenInfo : ScreenInfo} {env : Surface.Start3DEnv} {o : Outcome},
      P (w.surfaces i) → (w.surfaces i).start w.accel screenInfo env = some o → P o.surface) :
    ∀ i, P (w'.surfaces i) := by
  have hupdate : ∀ {i : ℕ} {t : Surface}, P t → ∀ j, P (Function.update w.surfaces i t j) := by
    intro i t ht j
    by_cases hj : j = i
    · rw [hj, Function.update_self]
      exact ht
    · rw [Function.update_of_ne hj]
      exact hw j
  obtain ⟨out, hmoved⟩ := step_moved h
  cases hmoved with
  | @called _ i op o x hcalled happly => exact hupdate (hcall hcalled (hw i) happly)
  | @started i screenInfo env o hstarted haddr hstart' => exact hupdate (hstart (hw i) hstart')
  | wrote hwrite => exact hw
  | stayed x hcalled => exact hw

/-- **The rule of the memory** for a step: what holds while the memory of a surface stays, after
it has been obtained or released and after a start, holds after every step. -/
theorem memory_rule {w w' : World} {act : Action} {J : Accel → (ℕ → Surface) → Prop}
    (h : w.step act = some w') (hw : J w.accel w.surfaces)
    (hsteady : ∀ {i : ℕ} {a b : Accel} {s t : Surface}, J a (Function.update w.surfaces i s) →
      Surface.Steady a s b t → J b (Function.update w.surfaces i t))
    (halloc : ∀ {i : ℕ} {op : SurfaceOp} {u : Surface} {env : BackingEnv} {ok : Bool}
      {b : Accel} {t : Surface}, w.called act = some (i, op) →
      (w.surfaces i).memoryCall op = some env → Surface.Relocked (w.surfaces i) u →
      J w.accel (Function.update w.surfaces i u) →
      u.allocBacking w.accel env = some (ok, b, t) → J b (Function.update w.surfaces i t))
    (hclose : ∀ {i : ℕ} {a : Accel} {s : Surface}, J a (Function.update w.surfaces i s) →
      J (s.releaseBacking a).1
        (Function.update w.surfaces i { (s.releaseBacking a).2 with provider := false }))
    (hstart : ∀ {i : ℕ} {a : Accel} {s : Surface} {screenInfo : ScreenInfo},
      J a (Function.update w.surfaces i s) → screenInfo.clientAddr = a.vram.alloc.poolStart →
      J a (Function.update w.surfaces i { s with provider := true, screenInfo := screenInfo }))
    (hwrite : ∀ {ptr k v : ℕ} {vram : AllocRun},
      allocStep w.accel.vram (.write ptr k v) = some vram →
      J { w.accel with vram := vram } w.surfaces) : J w'.accel w'.surfaces := by
  have hself : ∀ i, J w.accel (Function.update w.surfaces i (w.surfaces i)) := by
    intro i
    rw [Function.update_eq_self]
    exact hw
  obtain ⟨out, hmoved⟩ := step_moved h
  cases hmoved with
  | @called _ i op o x hcalled happly =>
      exact (Surface.apply_change happly).memory_rule
        (I := fun a s => J a (Function.update w.surfaces i s)) (hself i) hsteady
        (halloc hcalled) hclose
  | @started i screenInfo env o hstarted haddr hstart' =>
      obtain ⟨htest, hquiet⟩ := Surface.start_tested hstart'
      have hopen := hstart (hself i) haddr
      exact hsteady (hsteady hopen (hquiet.steady _)) (htest.steady o.surface)
  | wrote hwrite' => exact hwrite hwrite'
  | stayed x hcalled => exact hw

end World

end DockerMacos
