import DockerMacos.IOReturn
import DockerMacos.ResourceLog
import DockerMacos.Run

/-!
# Starting and Stopping the Plugin

`vmStart` (`GA/VMsvga2GA.cpp`) obtains the accelerator and opens a 2D context on it, and puts
both into the instance before it has read its configuration. If that fails it closes and
releases them, but leaves them in the instance; `vmStop` closes and releases whatever the
instance has. A second `vmStart` puts new handles over the ones that are there.

## Handles

Handles are numbered in the order in which they are handed out, so that none comes twice, and
the log of the process has what is done with each. What `vmStart` meets on its way, a missing
service or a call that fails, is part of the call.

## Balance

A sequence of calls is settled if a stop behind it would leave nothing open, nothing closed
twice and nothing used after its close. That it is settled after each of its calls is decided by
its starts alone (`StartsClean`).

## Main results

* `stop_settled_iff`: when a stop right after a start leaves nothing behind.
* `start_stop_balance`: the sequences of calls after each of which a stop does.
-/

namespace DockerMacos

/-- An `io_service_t` of an accelerator or an `io_connect_t`, in the order in which they have
been handed out. -/
inductive IOHandle
  | accelerator (n : ℕ)
  | connection (n : ℕ)
  deriving DecidableEq

/-- The place of a handle in that order. -/
def IOHandle.index : IOHandle → ℕ
  | .accelerator n => n
  | .connection n => n

/-- The part of `GAType` that starting and stopping touches. -/
structure GAInstance where
  context : Option IOHandle
  accelerator : Option IOHandle
  framebufferIndex : ℕ
  configVal1 : ℕ
  configVal2 : ℕ

/-- The instance, the variables of the plugin, and what it has done with its handles. -/
structure GAProcess where
  me : GAInstance
  /-- Whether `this_ga` is set. -/
  thisGa : Bool
  thisGaCtx : Option IOHandle
  logLevel : ℤ
  nextHandle : ℕ
  log : List (ResourceUse IOHandle)

/-- What `vmStart` meets: whether there is a service, and what its calls return. -/
structure StartEnv where
  service : Bool
  /-- `IOAccelFindAccelerator`, and the framebuffer index that it finds. -/
  find : IOReturn × ℕ
  /-- `IOServiceOpen` -/
  opened : IOReturn
  /-- `kIOVM2DGetConfig`, and its two numbers. -/
  getConfig : IOReturn × ℕ × ℤ
  /-- `kIOVM2DReadConfigs`, and its result. -/
  readConfigs : IOReturn × ℕ

namespace GAProcess

/-- The plugin after it has been loaded and has allocated its instance. -/
def loaded (logLevel : ℤ) : GAProcess where
  me := ⟨none, none, 0, 0, 0⟩
  thisGa := false
  thisGaCtx := none
  logLevel := logLevel
  nextHandle := 0
  log := []

/-- Something is done with a handle. -/
def note (p : GAProcess) (u : ResourceUse IOHandle) : GAProcess := { p with log := p.log ++ [u] }

/-- `vmReset`. -/
def vmReset (p : GAProcess) : IOReturn := if p.me.context.isNone then .notReady else .success

/-- The end of `vmStart` (`good_exit`). -/
def goodExit (p : GAProcess) (rc : IOReturn) : IOReturn × GAProcess :=
  (rc, { p with thisGa := true, thisGaCtx := p.me.context })

/-- The cleanup of `vmStart`. -/
def cleanup (p : GAProcess) (context accelerator : Option IOHandle) (rc : IOReturn) :
    IOReturn × GAProcess :=
  let p := match context with
    | some c => p.note (.release c)
    | none => p
  let p := match accelerator with
    | some a => p.note (.release a)
    | none => p
  p.goodExit rc

/-- `vmStart` from the open connection on. -/
def configure (p : GAProcess) (e : StartEnv) (context accelerator : IOHandle) :
    IOReturn × GAProcess :=
  let p := p.note (.use context)
  let p := { p with me := { p.me with configVal1 := e.getConfig.2.1 } }
  if e.getConfig.1 ≠ .success then p.cleanup (some context) (some accelerator) e.getConfig.1
  else
    let p := { p with
      logLevel := if e.getConfig.2.2 ≥ 0 then e.getConfig.2.2 else p.logLevel }
    let p := p.note (.use context)
    if e.readConfigs.1 ≠ .success then
      p.cleanup (some context) (some accelerator) e.readConfigs.1
    else
      let p := { p with me := { p.me with configVal2 := e.readConfigs.2 } }
      let rc := p.vmReset
      if rc ≠ .success then p.cleanup (some context) (some accelerator) rc
      else (p.note (.use context)).goodExit rc -- `useAccelUpdates`

/-- The accelerator has been found. -/
def found (p : GAProcess) (framebufferIndex : ℕ) : GAProcess :=
  { p.note (.acquire (.accelerator p.nextHandle)) with
    me := { p.me with framebufferIndex := framebufferIndex }
    nextHandle := p.nextHandle + 1 }

/-- The connection has been opened, and the instance has both handles. -/
def connected (p : GAProcess) (accelerator : IOHandle) : GAProcess :=
  { p.note (.acquire (.connection p.nextHandle)) with
    me := { p.me with
      accelerator := some accelerator
      context := some (.connection p.nextHandle) }
    nextHandle := p.nextHandle + 1 }

/-- `vmStart`. -/
def vmStart (p : GAProcess) (e : StartEnv) : IOReturn × GAProcess :=
  if !e.service then (.badArgument, p)
  else if e.find.1 ≠ .success then (e.find.1, p)
  else
    let accelerator := IOHandle.accelerator p.nextHandle
    let p := p.found e.find.2
    if e.opened ≠ .success then p.cleanup none (some accelerator) e.opened
    else
      let context := IOHandle.connection p.nextHandle
      (p.connected accelerator).configure e context accelerator

/-- `vmStop`; `vmFlush` does nothing. -/
def vmStop (p : GAProcess) : IOReturn × GAProcess :=
  let p := { p with thisGa := false, thisGaCtx := none }
  match p.me.accelerator with
  | none => (.success, p)
  | some accelerator =>
      let p := match p.me.context with
        | some context => p.note (.release context)
        | none => p
      let p := p.note (.release accelerator)
      (.success, { p with me := { p.me with accelerator := none, context := none } })

end GAProcess

/-- The calls. -/
inductive StartStop
  | start (e : StartEnv)
  | stop

/-- One call. -/
def GAProcess.call (p : GAProcess) : StartStop → GAProcess
  | .start e => (p.vmStart e).2
  | .stop => p.vmStop.2

/-- The plugin after some calls. -/
def GAProcess.calls (p : GAProcess) (cs : List StartStop) : GAProcess := cs.foldl GAProcess.call p

/-- `vmStart` comes to open a connection. -/
def StartEnv.Opens (e : StartEnv) : Prop :=
  e.service = true ∧ e.find.1 = .success ∧ e.opened = .success

/-- The configuration can be read. -/
def StartEnv.Configures (e : StartEnv) : Prop :=
  e.getConfig.1 = .success ∧ e.readConfigs.1 = .success

instance (e : StartEnv) : Decidable e.Opens := inferInstanceAs (Decidable (_ ∧ _))

instance (e : StartEnv) : Decidable e.Configures := inferInstanceAs (Decidable (_ ∧ _))

/-- A start that opens a connection comes to an instance without handles, and goes through. -/
def StartsClean (p : GAProcess) : StartStop → Prop
  | .start e => e.Opens → p.me.accelerator = none ∧ e.Configures
  | .stop => True

namespace GAProcess

variable {p : GAProcess} {e : StartEnv}

/-! ### What the calls do with handles -/

/-- What happens to the handles of the instance, and to the log. -/
structure Effect (p q : GAProcess) (context accelerator : Option IOHandle) (nextHandle : ℕ)
    (log : List (ResourceUse IOHandle)) : Prop where
  context : q.me.context = context
  accelerator : q.me.accelerator = accelerator
  nextHandle : q.nextHandle = nextHandle
  log : q.log = p.log ++ log

/-- A start that does not come to open a connection leaves the instance its handles. -/
theorem vmStart_early (h : ¬ e.Opens) :
    Effect p (p.vmStart e).2 p.me.context p.me.accelerator p.nextHandle [] ∨
      Effect p (p.vmStart e).2 p.me.context p.me.accelerator (p.nextHandle + 1)
        [.acquire (.accelerator p.nextHandle), .release (.accelerator p.nextHandle)] := by
  rw [vmStart]
  by_cases hservice : e.service = true
  · by_cases hfind : e.find.1 = .success
    · have hopen : e.opened ≠ .success := fun hopen => h ⟨hservice, hfind, hopen⟩
      rw [if_neg (by simpa using hservice), if_neg (by simpa using hfind)]
      refine .inr ?_
      simp only [if_pos hopen, cleanup, goodExit, found, note]
      exact ⟨rfl, rfl, rfl, by rw [List.append_assoc]; rfl⟩
    · rw [if_neg (by simpa using hservice), if_pos hfind]
      exact .inl ⟨rfl, rfl, rfl, (List.append_nil _).symm⟩
  · rw [if_pos (by simpa using hservice)]
    exact .inl ⟨rfl, rfl, rfl, (List.append_nil _).symm⟩

/-- Reading the configuration uses the connection, and closes it on a failure. -/
theorem configure_cases (e : StartEnv) {context : IOHandle} (accelerator : IOHandle)
    (hcontext : p.me.context = some context) :
    (e.Configures ∧ Effect p (p.configure e context accelerator).2 p.me.context
      p.me.accelerator p.nextHandle (List.replicate 3 (.use context))) ∨
    (¬ e.Configures ∧ ∃ n, Effect p (p.configure e context accelerator).2 p.me.context
      p.me.accelerator p.nextHandle
      (List.replicate n (.use context) ++ [.release context, .release accelerator])) := by
  rw [configure]
  by_cases hget : e.getConfig.1 = .success
  · by_cases hread : e.readConfigs.1 = .success
    · refine .inl ⟨⟨hget, hread⟩, ?_⟩
      simp only [hget, hread, ne_eq, not_true_eq_false, if_false, vmReset, note, hcontext,
        Option.isNone_some, Bool.false_eq_true, goodExit]
      exact ⟨rfl, rfl, rfl, by simp only [List.append_assoc]; rfl⟩
    · refine .inr ⟨fun h => hread h.2, 2, ?_⟩
      simp only [hget, hread, ne_eq, not_true_eq_false, not_false_eq_true, if_false, if_true,
        cleanup, note, goodExit]
      exact ⟨rfl, rfl, rfl, by simp only [List.append_assoc]; rfl⟩
  · refine .inr ⟨fun h => hget h.1, 1, ?_⟩
    simp only [hget, ne_eq, not_false_eq_true, if_true, cleanup, note, goodExit]
    exact ⟨rfl, rfl, rfl, by simp only [List.append_assoc]; rfl⟩

/-- What a start that opens a connection has acquired. -/
def acquired (p : GAProcess) : List (ResourceUse IOHandle) :=
  [.acquire (.accelerator p.nextHandle), .acquire (.connection (p.nextHandle + 1))]

/-- A start that opens a connection puts the new handles into the instance, whether it goes
through or not. -/
theorem vmStart_opens (h : e.Opens) : ∃ log,
    Effect p (p.vmStart e).2 (some (.connection (p.nextHandle + 1)))
      (some (.accelerator p.nextHandle)) (p.nextHandle + 2) (p.acquired ++ log) ∧
    ((e.Configures ∧ log = List.replicate 3 (.use (.connection (p.nextHandle + 1)))) ∨
      (¬ e.Configures ∧ ∃ n, log = List.replicate n (.use (.connection (p.nextHandle + 1))) ++
        [.release (.connection (p.nextHandle + 1)), .release (.accelerator p.nextHandle)])) := by
  obtain ⟨hservice, hfind, hopen⟩ := h
  rw [vmStart, if_neg (by simp [hservice]), if_neg (by simp [hfind])]
  simp only [hopen, ne_eq, not_true_eq_false, if_false]
  have hlog : ((p.found e.find.2).connected (.accelerator p.nextHandle)).log =
      p.log ++ p.acquired := by
    simp only [connected, found, note, acquired, List.append_assoc]
    rfl
  rcases configure_cases (p := (p.found e.find.2).connected (.accelerator p.nextHandle)) e
    (.accelerator p.nextHandle) rfl with ⟨hconf, heff⟩ | ⟨hconf, n, heff⟩
  · refine ⟨_, ⟨heff.context, heff.accelerator, heff.nextHandle, ?_⟩, .inl ⟨hconf, rfl⟩⟩
    rw [heff.log, hlog, List.append_assoc]
    rfl
  · refine ⟨_, ⟨heff.context, heff.accelerator, heff.nextHandle, ?_⟩, .inr ⟨hconf, n, rfl⟩⟩
    rw [heff.log, hlog, List.append_assoc]
    rfl

/-- A stop closes and releases the handles of the instance. -/
theorem vmStop_effect {context accelerator : IOHandle} (hcontext : p.me.context = some context)
    (haccelerator : p.me.accelerator = some accelerator) :
    Effect p p.vmStop.2 none none p.nextHandle [.release context, .release accelerator] := by
  simp only [vmStop, hcontext, haccelerator, note]
  exact ⟨rfl, rfl, rfl, by rw [List.append_assoc]; rfl⟩

/-- A stop without handles does nothing with them. -/
theorem vmStop_idle (hcontext : p.me.context = none) (haccelerator : p.me.accelerator = none) :
    Effect p p.vmStop.2 none none p.nextHandle [] := by
  simp only [vmStop, haccelerator]
  exact ⟨hcontext, haccelerator, rfl, (List.append_nil _).symm⟩

/-! ### The invariant -/

/-- The log is in order, and what is held is what the instance has: nothing, or a connection and
an accelerator. -/
inductive Tidy (p : GAProcess) : Prop
  | idle (context : p.me.context = none) (accelerator : p.me.accelerator = none)
      (holds : holdings p.log = some 0)
  | active {c a : IOHandle} (context : p.me.context = some c)
      (accelerator : p.me.accelerator = some a) (holds : holdings p.log = some (c ::ₘ {a}))

/-- Handles are handed out in order, and so no handle twice. -/
structure Numbered (p : GAProcess) : Prop where
  lt : ∀ r, .acquire r ∈ p.log → r.index < p.nextHandle
  once : ∀ r, p.log.count (.acquire r) ≤ 1

/-- Entries that acquire no handle keep the numbering. -/
theorem Numbered.append {q : GAProcess} {log : List (ResourceUse IOHandle)} (h : Numbered p)
    (hnext : p.nextHandle ≤ q.nextHandle) (hlog : q.log = p.log ++ log)
    (hnew : ∀ r, .acquire r ∈ log → p.nextHandle ≤ r.index ∧ r.index < q.nextHandle)
    (honce : ∀ r, log.count (.acquire r) ≤ 1) : Numbered q := by
  refine ⟨fun r hr => ?_, fun r => ?_⟩
  · rw [hlog, List.mem_append] at hr
    rcases hr with hr | hr
    · exact (h.lt r hr).trans_le hnext
    · exact (hnew r hr).2
  · rw [hlog, List.count_append]
    by_cases hr : ResourceUse.acquire r ∈ log
    · have hold : ResourceUse.acquire r ∉ p.log := fun hmem => by
        have := h.lt r hmem
        have := (hnew r hr).1
        omega
      rw [List.count_eq_zero_of_not_mem hold]
      have := honce r
      omega
    · rw [List.count_eq_zero_of_not_mem hr]
      exact h.once r

/-- Uses and releases acquire nothing. -/
theorem count_acquire_opens {log : List (ResourceUse IOHandle)} {c a : IOHandle} {n : ℕ}
    (h : log = List.replicate n (.use c) ∨
      log = List.replicate n (.use c) ++ [.release c, .release a]) (r : IOHandle) :
    .acquire r ∉ log := by
  rcases h with rfl | rfl <;> simp [List.mem_replicate]

/-- Entries that acquire nothing keep the numbering. -/
theorem Numbered.append_none {q : GAProcess} (h : Numbered p)
    (log : List (ResourceUse IOHandle)) (hnext : p.nextHandle ≤ q.nextHandle)
    (hlog : q.log = p.log ++ log) (hnone : ∀ r, .acquire r ∉ log) : Numbered q :=
  h.append hnext hlog (fun r hr => absurd hr (hnone r))
    fun r => (List.count_eq_zero_of_not_mem (hnone r)).le.trans (Nat.zero_le 1)

/-- A stop acquires nothing. -/
theorem Numbered.vmStop (h : Numbered p) : Numbered p.vmStop.2 := by
  rw [GAProcess.vmStop]
  split
  · exact ⟨h.lt, h.once⟩
  · split
    · exact h.append_none [_, _] le_rfl (List.append_assoc ..) (by simp)
    · exact h.append_none [_] le_rfl rfl (by simp)

/-- A start acquires the next handles. -/
theorem Numbered.vmStart (h : Numbered p) (e : StartEnv) : Numbered (p.vmStart e).2 := by
  by_cases hopen : e.Opens
  · obtain ⟨log, heff, hways⟩ := vmStart_opens (p := p) hopen
    have hnone : ∀ r, .acquire r ∉ log := by
      rcases hways with ⟨-, rfl⟩ | ⟨-, n, rfl⟩
      · exact count_acquire_opens (a := .accelerator 0) (.inl rfl)
      · exact count_acquire_opens (.inr rfl)
    have hcount : ∀ r, p.acquired.count (.acquire r) ≤ 1 := fun r =>
      List.nodup_iff_count_le_one.mp (by simp [acquired]) _
    refine h.append (by rw [heff.nextHandle]; omega) heff.log (fun r hr => ?_) fun r => ?_
    · rw [heff.nextHandle]
      simp only [List.mem_append, hnone, or_false, acquired, List.mem_cons, List.not_mem_nil,
        ResourceUse.acquire.injEq] at hr
      rcases hr with rfl | rfl <;> simp only [IOHandle.index] <;> omega
    · rw [List.count_append, List.count_eq_zero_of_not_mem (hnone r)]
      exact hcount r
  · rcases vmStart_early (p := p) hopen with heff | heff
    · exact h.append_none _ heff.nextHandle.ge heff.log (by simp)
    · refine h.append (by rw [heff.nextHandle]; omega) heff.log (fun r hr => ?_) fun r => ?_
      · rw [heff.nextHandle]
        simp only [List.mem_cons, ResourceUse.acquire.injEq, reduceCtorEq, List.not_mem_nil,
          or_false] at hr
        subst hr
        simp only [IOHandle.index]
        omega
      · exact List.nodup_iff_count_le_one.mp (by simp) _

/-- Every call keeps the numbering. -/
theorem Numbered.call (h : Numbered p) (c : StartStop) : Numbered (p.call c) := by
  cases c with
  | start e => exact h.vmStart e
  | stop => exact h.vmStop

/-! ### Balance -/

/-- Only a stop with nothing in hand, or with a connection and an accelerator, is ever made
on a tidy instance; it leaves nothing held. -/
theorem Tidy.vmStop (h : Tidy p) : Tidy p.vmStop.2 ∧ Settled p.vmStop.2.log := by
  cases h with
  | idle hcontext hacc hholds =>
    have heff := vmStop_idle hcontext hacc
    have hsettled : holdings p.vmStop.2.log = some 0 := by
      rw [heff.log, List.append_nil, hholds]
    exact ⟨.idle heff.context heff.accelerator hsettled, hsettled⟩
  | active hcontext hacc hholds =>
    have heff := vmStop_effect hcontext hacc
    have hsettled : holdings p.vmStop.2.log = some 0 := by
      rw [heff.log, holdings_append_of hholds]
      simp [← Multiset.cons_zero]
    exact ⟨.idle heff.context heff.accelerator hsettled, hsettled⟩

/-- A start that does not come to open a connection leaves everything held as it was. -/
theorem Tidy.vmStart_early (h : Tidy p) (hopen : ¬ e.Opens) : Tidy (p.vmStart e).2 := by
  have hkeeps : ∃ next log, Effect p (p.vmStart e).2 p.me.context p.me.accelerator next log ∧
      ∀ held : Multiset IOHandle, log.foldlM ResourceUse.next held = some held := by
    rcases GAProcess.vmStart_early (p := p) hopen with heff | heff
    · exact ⟨_, _, heff, fun held => rfl⟩
    · exact ⟨_, _, heff, fun held => by simp⟩
  obtain ⟨next, log, heff, hkeeps⟩ := hkeeps
  cases h with
  | idle hcontext hacc hholds =>
    refine .idle (heff.context.trans hcontext) (heff.accelerator.trans hacc) ?_
    rw [heff.log, holdings_append_of hholds, hkeeps]
  | active hcontext hacc hholds =>
    refine .active (heff.context.trans hcontext) (heff.accelerator.trans hacc) ?_
    rw [heff.log, holdings_append_of hholds, hkeeps]

/-- What is held after a start that opens a connection. -/
theorem vmStart_holdings {held : Multiset IOHandle} (hholds : holdings p.log = some held)
    (hopen : e.Opens) :
    holdings (p.vmStart e).2.log = some (if e.Configures then
      .connection (p.nextHandle + 1) ::ₘ .accelerator p.nextHandle ::ₘ held else held) := by
  obtain ⟨log, heff, hways⟩ := vmStart_opens (p := p) hopen
  rw [heff.log, holdings_append_of hholds, List.foldlM_append]
  rcases hways with ⟨hconf, rfl⟩ | ⟨hconf, n, rfl⟩
  · rw [if_pos hconf]
    simp [acquired]
  · rw [if_neg hconf]
    simp [acquired, List.foldlM_append]

/-- A clean start leaves the instance with what it holds. -/
theorem Tidy.start (h : Tidy p) (hclean : StartsClean p (.start e)) : Tidy (p.vmStart e).2 := by
  by_cases hopen : e.Opens
  · obtain ⟨hnone, hconf⟩ := hclean hopen
    obtain ⟨log, heff, -⟩ := vmStart_opens (p := p) hopen
    cases h with
    | idle _ _ hholds =>
      refine .active heff.context heff.accelerator ?_
      rw [vmStart_holdings hholds hopen, if_pos hconf]
      rfl
    | active _ hacc _ =>
      rw [hnone] at hacc
      cases hacc
  · exact h.vmStart_early hopen

/-- **A stop after a start** on a tidy instance leaves nothing behind exactly when the start was
clean. -/
theorem stop_settled_iff (h : Tidy p) (hnum : Numbered p) :
    Settled (p.vmStart e).2.vmStop.2.log ↔ StartsClean p (.start e) := by
  constructor
  · intro hsettled hopen
    obtain ⟨log, heff, -⟩ := vmStart_opens (p := p) hopen
    obtain ⟨held, hholds, hidle⟩ : ∃ held, holdings p.log = some held ∧
        (held = 0 → p.me.accelerator = none) := by
      cases h with
      | idle _ hacc hholds => exact ⟨0, hholds, fun _ => hacc⟩
      | active _ _ hholds => exact ⟨_, hholds, fun hzero => absurd hzero (Multiset.cons_ne_zero)⟩
    have hstart := vmStart_holdings hholds hopen
    have hstop := vmStop_effect heff.context heff.accelerator
    rw [Settled, hstop.log, holdings_append_of hstart] at hsettled
    split at hsettled
    · next hconf =>
      refine ⟨hidle ?_, hconf⟩
      simpa using hsettled
    · -- the new connection has been closed, and is closed again
      exfalso
      have hnot : IOHandle.connection (p.nextHandle + 1) ∉ held := fun hmem => by
        have := hnum.lt _ (acquire_mem_of_held hholds hmem)
        simp only [IOHandle.index] at this
        omega
      rw [List.foldlM_cons, next_release_of_notMem hnot] at hsettled
      cases hsettled
  · exact fun hclean => (h.start hclean).vmStop.2

/-- A clean call keeps the instance tidy. -/
theorem Tidy.call (h : Tidy p) {c : StartStop} (hclean : StartsClean p c) : Tidy (p.call c) := by
  cases c with
  | start e => exact h.start hclean
  | stop => exact h.vmStop.1

/-- The calls as a transition system. -/
def step (p : GAProcess) (c : StartStop) : Option GAProcess := some (p.call c)

/-- From a tidy instance, a stop after any of the calls leaves nothing behind exactly when all
starts are clean. -/
theorem Tidy.calls_settled_iff (h : Tidy p) (hnum : Numbered p) (cs : List StartStop) :
    (∃ q, Run step StartsClean p cs q) ↔
      ∀ ds, ds <+: cs → Settled (p.calls (ds ++ [.stop])).log := by
  induction cs generalizing p with
  | nil =>
    refine iff_of_true ⟨p, .nil p⟩ fun ds hds => ?_
    rw [List.prefix_nil.mp hds]
    exact h.vmStop.2
  | cons c cs ih =>
    constructor
    · rintro ⟨q, hrun⟩ ds hds
      cases hrun with
      | cons hclean hstep hrest =>
        obtain rfl := Option.some.inj hstep
        cases ds with
        | nil => exact h.vmStop.2
        | cons d ds =>
          obtain ⟨rfl, htail⟩ := List.cons_prefix_cons.mp hds
          exact (ih (h.call hclean) (hnum.call d)).mp ⟨q, hrest⟩ ds htail
    · intro hall
      have hclean : StartsClean p c := by
        cases c with
        | stop => trivial
        | start e => exact (stop_settled_iff h hnum).mp (hall [.start e] (List.prefix_append _ _))
      obtain ⟨q, hrun⟩ := (ih (h.call hclean) (hnum.call c)).mpr fun ds hds =>
        hall (c :: ds) (List.cons_prefix_cons.mpr ⟨rfl, hds⟩)
      exact ⟨q, .cons hclean rfl hrun⟩

/-- Several calls keep the numbering. -/
theorem Numbered.calls (h : Numbered p) (cs : List StartStop) : Numbered (p.calls cs) := by
  induction cs generalizing p with
  | nil => exact h
  | cons c cs ih => exact ih (h.call c)

/-- A plugin that has been loaded has obtained nothing. -/
theorem loaded_numbered (logLevel : ℤ) : Numbered (loaded logLevel) :=
  ⟨fun r hr => absurd hr List.not_mem_nil, fun r => by simp [loaded]⟩

/-- **Starting and stopping.** After each of the calls of a sequence a stop would leave every
connection closed once, every accelerator released once and no connection used after it was
closed, exactly when no start that opens a connection fails afterwards or finds handles in
the instance. -/
theorem start_stop_balance (logLevel : ℤ) (cs : List StartStop) :
    (∃ p, Run step StartsClean (loaded logLevel) cs p) ↔
      ∀ ds, ds <+: cs → ReleasedOnce ((loaded logLevel).calls (ds ++ [.stop])).log := by
  rw [Tidy.calls_settled_iff (.idle rfl rfl rfl) (loaded_numbered logLevel)]
  refine forall₂_congr fun ds _ => settled_iff_releasedOnce ?_
  exact ((loaded_numbered logLevel).calls _).once

/-- A start whose configuration cannot be read. -/
def brokenStart : StartEnv where
  service := true
  find := (.success, 0)
  opened := .success
  getConfig := (.success, 0, 0)
  readConfigs := (.notReady, 0)

/-- The stop after it closes the connection a second time, and a second start before the stop
leaves the first connection open. -/
theorem not_releasedOnce :
    ¬ ReleasedOnce ((loaded 1).calls [.start brokenStart, .stop]).log ∧
      ¬ ReleasedOnce ((loaded 1).calls
        [.start { brokenStart with readConfigs := (.success, 0) },
          .start { brokenStart with readConfigs := (.success, 0) }, .stop]).log :=
  ⟨fun h => absurd (h.once (.connection 1) (by decide)) (by decide),
    fun h => absurd (h.once (.connection 1) (by decide)) (by decide)⟩

end GAProcess

end DockerMacos
