import DockerMacos.HeldLocks

/-!
# The Graphics Plugin

The plugin through which programs reach the 2D context (`GA/VMsvga2GA.cpp`). A program
describes its surfaces in an `IOBlitSurface` each, and the plugin keeps a `SurfaceInfo` behind
it with the id of the CGS surface. The context has one current surface, though, and the calls
for a lock, an unlock and a swap do not say which surface they are for.

## The plugin and the kernel

A call of the plugin makes one call of the kernel or none, and fails where that fails; `refuse`
is a call that comes to none. The kernel side is the context of `World`, which any number of
other clients use as well.

## The destination

The model notes in `destination` for which surface of the program a CGS surface has been made
the current one last, and which one that was. The source keeps no such note: it is what the
programs go by when they call `vmLockSurface` for one of their surfaces.

## Main results

* `Plugin.Inv.step`: the current surface is the one that has been noted.
* `surface_calls_act_on_destination`: what the calls act on after any run in which the kernel
  calls succeed.
-/

namespace DockerMacos

/-- The pixel formats that `vmSetSurface` tells apart. -/
inductive BlitFormat
  | twoVuy
  | uyvy422
  | yuvs
  | bgra32
  | other
  deriving DecidableEq

/-- The bits of `vmSetSurface` for UYVY, YUY2 and BGRA. -/
def BlitFormat.bits : BlitFormat → Bool × Bool × Bool
  | .twoVuy => (true, false, false)
  | .uyvy422 => (true, false, false)
  | .yuvs => (false, true, false)
  | .bgra32 => (false, false, true)
  | .other => (false, false, false)

structure SurfaceInfo where
  /-- The image that `d0` points to. -/
  d0 : Option ℕ
  addr : ℕ
  cgsSurfaceID : ℕ
  deriving DecidableEq

/-- `IOBlitSurface` -/
structure BlitSurface where
  interfaceRef : Option SurfaceInfo
  pixelFormat : BlitFormat
  width : ℤ
  height : ℤ
  rowBytes : ℕ
  accessFlags : ℕ
  deriving DecidableEq

/-- `GAType` -/
structure GAType where
  /-- The 2D context that is open. -/
  context : Option ℕ
  framebufferIndex : ℕ
  configVal2 : ℕ
  /-- `_surface` -/
  surface : Option ℕ
  deriving DecidableEq

/-- The plugin, the surfaces of its program and the accelerator. -/
structure Plugin where
  ga : GAType
  blits : ℕ → BlitSurface
  world : World
  destination : Option (ℕ × ℕ)

/-- What a call of the plugin comes to. -/
structure PluginOutcome where
  ret : IOReturn
  plugin : Plugin
  /-- What the kernel calls have returned. -/
  kernel : List IOReturn
  /-- `*address` -/
  address : Option ℕ := none

namespace Plugin

def setRef (p : Plugin) (s : ℕ) (si : Option SurfaceInfo) : Plugin :=
  { p with blits := Function.update p.blits s { p.blits s with interfaceRef := si } }

/-- `IOConnectCallMethod`. `swap_surface` does not pass on what its surface returns. -/
def kernelCall (p : Plugin) (c : ℕ) (op : ContextOp) :
    Option (IOReturn × Option Outcome × Plugin) :=
  match p.world.contextCall c op, op with
  | .ok w _ (some o), .swapSurface => some (.success, some o, { p with world := w })
  | .ok w ret o, _ => some (ret, o, { p with world := w })
  | _, _ => none

/-- A call that comes to no kernel call. -/
def refuse (p : Plugin) (ret : IOReturn) : PluginOutcome := ⟨ret, p, [], none⟩

/-- `vmSetSurface`, with the bit for a surface or without. The plugin passes a structure for the
answer of `set_surface`, and the configuration that it reads last is there. -/
def vmSetSurface (p : Plugin) (isSurface : Bool) (surface found : Option ℕ)
    (env : Surface.Start3DEnv) : Option PluginOutcome :=
  match p.ga.context with
  | none => some (p.refuse .notReady)
  | some c =>
    if isSurface then
      surface.bind fun s =>
        match (p.blits s).interfaceRef with
        | none => some (p.refuse .notReady)
        | some si =>
          let (uyvy, yuy2, bgra) := (p.blits s).pixelFormat.bits
          (p.kernelCall c (.setSurface true si.cgsSurfaceID true uyvy yuy2 bgra found env)).map
            fun (rc, _, p) =>
              if rc ≠ .success then ⟨rc, p, [rc], none⟩
              else
                ⟨.success,
                  { p with
                    ga := { p.ga with surface := if si.cgsSurfaceID = 0 then none else some s }
                    destination := found.map (s, ·) },
                  [rc, .success], none⟩
    else
      (p.kernelCall c (.setSurface true p.ga.framebufferIndex false false false false none env)).map
        fun (rc, _, p) =>
          if rc ≠ .success then ⟨rc, p, [rc], none⟩
          else ⟨.success, { p with ga := { p.ga with surface := none } }, [rc, .success], none⟩

/-- `vmSetDestination` -/
def vmSetDestination (p : Plugin) (surfaceDestination : Bool) (surface found : Option ℕ)
    (env : Surface.Start3DEnv) : Option PluginOutcome :=
  p.vmSetSurface surfaceDestination surface found env

/-- What a fixed source may measure. -/
def maxSize (p : Plugin) : ℤ × ℤ :=
  if p.ga.configVal2 ≤ 79 then (2046, 2047) else (4096, 4096)

/-- `vmAllocateSurface`; `malloced` says whether there is memory for the `SurfaceInfo`. -/
def vmAllocateSurface (p : Plugin) (fixedSource hasCGSSurface : Bool) (s cgsSurfaceID : ℕ)
    (malloced : Bool) (found : Option ℕ) (env : Surface.Start3DEnv) : Option PluginOutcome :=
  match p.ga.context with
  | none => some (p.refuse .notReady)
  | some c =>
    if fixedSource &&
        ((p.blits s).width > p.maxSize.1 || (p.blits s).height > p.maxSize.2) then
      some (p.refuse .unsupported)
    else if !malloced then some (p.refuse .noMemory)
    else if hasCGSSurface then
      ((p.setRef s (some ⟨none, 0, cgsSurfaceID⟩)).vmSetSurface true (some s) found env).bind
        fun o =>
          if o.ret ≠ .success then some { o with plugin := o.plugin.setRef s none }
          else if fixedSource then
            (o.plugin.kernelCall c (.scaleSurface fixedSource (toU32 (p.blits s).width)
              (toU32 (p.blits s).height))).map fun (rc, _, q) =>
                ⟨rc, if rc ≠ .success then q.setRef s none else q, o.kernel ++ [rc], none⟩
          else some o
    else some ((p.setRef s none).refuse .unsupported)

/-- `vmFreeSurface` -/
def vmFreeSurface (p : Plugin) (s : ℕ) : Option PluginOutcome :=
  match p.ga.context, (p.blits s).interfaceRef with
  | some _, some si =>
    let reset :=
      if p.ga.surface.isSome then
        (p.setRef s (some { si with cgsSurfaceID := 0 })).vmSetDestination false none none
          ⟨false, false, false, .success⟩
      else some (p.refuse .success)
    -- an image is deleted with success
    reset.map fun o =>
      ⟨if si.d0.isSome then .success else o.ret, o.plugin.setRef s none,
        o.kernel ++ if si.d0.isSome then [.success] else [], none⟩
  | _, _ => some (p.refuse .notReady)

/-- `vmLockSurface` -/
def vmLockSurface (p : Plugin) (s : ℕ) (env : BackingEnv) (trick : Option (Option ℕ)) :
    Option PluginOutcome :=
  match p.ga.context, (p.blits s).interfaceRef with
  | some c, some si =>
    if si.addr ≠ 0 then some { p.refuse .success with address := some si.addr }
    else
      (p.kernelCall c (.lockMemory true env trick)).map fun (rc, o, q) =>
        if rc ≠ .success then ⟨rc, q, [rc], none⟩
        else
          let memory := (o.bind (·.memory)).getD (0, 0)
          ⟨.success,
            { q with blits := Function.update q.blits s { q.blits s with
                rowBytes := memory.2 % 2 ^ 32
                accessFlags := 2 } },
            [rc], some memory.1⟩
  | _, _ => some (p.refuse .notReady)

/-- `vmUnlockSurface` -/
def vmUnlockSurface (p : Plugin) (s : ℕ) : Option PluginOutcome :=
  match p.ga.context, (p.blits s).interfaceRef with
  | some c, some si =>
    if si.addr ≠ 0 then some (p.refuse .success)
    else (p.kernelCall c .unlockMemory).map fun (rc, _, q) => ⟨rc, q, [rc], none⟩
  | _, _ => some (p.refuse .notReady)

/-- `vmSwapSurface` -/
def vmSwapSurface (p : Plugin) (s : ℕ) : Option PluginOutcome :=
  match p.ga.context, (p.blits s).interfaceRef with
  | some c, some _ =>
    (p.kernelCall c .swapSurface).map fun (rc, _, q) => ⟨rc, q, [rc], none⟩
  | _, _ => some (p.refuse .notReady)

end Plugin

/-- The calls of the plugin that concern surfaces. -/
inductive PluginCall
  | allocateSurface (fixedSource hasCGSSurface : Bool) (s cgsSurfaceID : ℕ) (malloced : Bool)
      (found : Option ℕ) (env : Surface.Start3DEnv)
  | freeSurface (s : ℕ)
  | lockSurface (s : ℕ) (env : BackingEnv) (trick : Option (Option ℕ))
  | unlockSurface (s : ℕ)
  | swapSurface (s : ℕ)
  | setDestination (surfaceDestination : Bool) (surface found : Option ℕ)
      (env : Surface.Start3DEnv)

/-- What happens around the plugin. -/
inductive PluginAction
  | call (k : PluginCall)
  /-- The program describes a surface. -/
  | describe (s : ℕ) (pixelFormat : BlitFormat) (width height : ℤ)
  /-- Others use the accelerator. -/
  | other (a : Action)

namespace Plugin

def apply (p : Plugin) : PluginCall → Option PluginOutcome
  | .allocateSurface fixedSource hasCGSSurface s cgsSurfaceID malloced found env =>
      p.vmAllocateSurface fixedSource hasCGSSurface s cgsSurfaceID malloced found env
  | .freeSurface s => p.vmFreeSurface s
  | .lockSurface s env trick => p.vmLockSurface s env trick
  | .unlockSurface s => p.vmUnlockSurface s
  | .swapSurface s => p.vmSwapSurface s
  | .setDestination surfaceDestination surface found env =>
      p.vmSetDestination surfaceDestination surface found env

/-- The action is a call of the plugin's own context. -/
def ofContext (p : Plugin) : Action → Bool
  | .context c _ => p.ga.context = some c
  | _ => false

/-- The others do not use the context of the plugin. -/
def step (p : Plugin) : PluginAction → Option Plugin
  | .call k => (p.apply k).map PluginOutcome.plugin
  | .describe s pixelFormat width height =>
    some { p with blits := Function.update p.blits s { p.blits s with
      pixelFormat := pixelFormat, width := width, height := height } }
  | .other a =>
    if p.ofContext a then none
    else (p.world.step a).map fun w => { p with world := w }

/-- Every kernel call of the plugin succeeds. -/
def Succeeds (p : Plugin) : PluginAction → Prop
  | .call k => ∀ o, p.apply k = some o → ∀ rc ∈ o.kernel, rc = .success
  | _ => True

/-- The current surface of the plugin's context. -/
def target (p : Plugin) : Option ℕ := p.ga.context.bind p.world.target

/-- A plugin after `vmStart`. -/
structure Started (p : Plugin) : Prop where
  target : p.target = none
  refs : ∀ s, (p.blits s).interfaceRef = none

end Plugin

/-! ### The context -/

namespace World

variable {w w' : World} {c c' : ℕ} {ret : IOReturn} {o : Outcome} {out : Option Outcome}

/-- A call of a surface does not change the contexts. -/
theorem call_contexts {i : ℕ} {op : SurfaceOp} (h : w.call i op = .ok w' ret out) :
    w'.contexts = w.contexts := by
  rw [call] at h
  split at h
  · cases h
  · obtain ⟨rfl, -, -⟩ := Result.ok.inj h
    rfl

/-- Nor does one that a context passes on. -/
theorem passOn_contexts {op : SurfaceOp} (h : w.passOn c op = .ok w' ret out) :
    w'.contexts = w.contexts := by
  rcases w.passOn_cases c op with ⟨i, -, hcall⟩ | ⟨-, ret', hcall⟩
  · exact call_contexts (hcall.symm.trans h)
  · obtain ⟨rfl, -, -⟩ := Result.ok.inj (hcall.symm.trans h)
    rfl

/-- The surface that a context draws on is part of the context. -/
theorem target_congr (h : w'.contexts c = w.contexts c) : w'.target c = w.target c := by
  rw [target, target, h]

/-- What `set_surface` makes of its context. -/
theorem setSurface_cases {id : ℕ} {hasId uyvy yuy2 bgra : Bool} {found : Option ℕ}
    {env : Surface.Start3DEnv}
    (h : w.setSurface c id hasId uyvy yuy2 bgra found env = .ok w' ret out) :
    ∃ x, w'.contexts = Function.update w.contexts c x ∧
      (hasId = false → x.targetIsCGSSurface = false) ∧
      (hasId = true → ret = .success → ∃ i, found = some i ∧ w.answers (id % 2 ^ 32) i ∧
        x.targetIsCGSSurface = true ∧ x.surfaceClient = some i) := by
  rw [setSurface] at h
  cases hasId with
  | false =>
    obtain ⟨rfl, -, -⟩ := Result.ok.inj h
    exact ⟨_, rfl, fun _ => rfl, fun hid => by cases hid⟩
  | true =>
    dsimp only at h
    split at h
    · next hid => cases hid
    split at h
    · obtain ⟨rfl, rfl, -⟩ := Result.ok.inj h
      exact ⟨_, rfl, fun hid => (by cases hid), fun _ hret => by cases hret⟩
    rcases found with _ | i
    · obtain ⟨rfl, rfl, -⟩ := Result.ok.inj h
      exact ⟨_, rfl, fun hid => (by cases hid), fun _ hret => by cases hret⟩
    · dsimp only at h
      split at h
      · next hanswers =>
        exact ⟨_, call_contexts h, fun hid => (by cases hid),
          fun _ _ => ⟨i, rfl, hanswers, rfl, rfl⟩⟩
      · cases h

/-- A copy does not change the contexts, whether or not it fails. -/
theorem copyRegion_contexts {sourceId : ℕ} {found : Option ℕ}
    {region : Option IOAccelDeviceRegion} {regionSize : ℕ} {env : BackingEnv}
    {copied : IOReturn}
    (h : w.copyRegion c sourceId found region regionSize env copied = .ok w' ret out) :
    w'.contexts = w.contexts := by
  simp only [copyRegion] at h
  repeat' split at h
  all_goals first
    | exact passOn_contexts h
    | (obtain ⟨rfl, -, -⟩ := Result.ok.inj h; rfl)
    | cases h

/-- A call of a context changes no other context. -/
theorem contextCall_contexts {op : ContextOp} (h : w.contextCall c' op = .ok w' ret out) :
    ∃ x, w'.contexts = Function.update w.contexts c' x := by
  have hsame : w'.contexts = w.contexts →
      ∃ x, w'.contexts = Function.update w.contexts c' x :=
    fun heq => ⟨w.contexts c', heq.trans (Function.update_eq_self c' w.contexts).symm⟩
  obtain ⟨⟩ | _ | _ | ⟨argsOk, env, trick⟩ | _ | ⟨⟩ | _ := op
  case setSurface =>
    rw [contextCall] at h
    split at h
    · obtain ⟨rfl, -, -⟩ := Result.ok.inj h
      exact hsame rfl
    · obtain ⟨x, hx, -⟩ := setSurface_cases h
      exact ⟨x, hx⟩
  case lockMemory =>
    rw [contextCall] at h
    split at h
    · obtain ⟨rfl, -, -⟩ := Result.ok.inj h
      exact hsame rfl
    · exact hsame (passOn_contexts h)
  case copyRegion => exact hsame (copyRegion_contexts h)
  case close =>
    obtain ⟨rfl, -, -⟩ := Result.ok.inj h
    exact ⟨_, rfl⟩
  all_goals exact hsame (passOn_contexts h)

/-- The actions of others leave the context alone. -/
theorem step_contexts {a : Action} (hne : ∀ op, a ≠ .context c op) (h : w.step a = some w') :
    w'.contexts c = w.contexts c := by
  rw [step] at h
  split at h
  case h_2 => cases h
  case h_1 w₁ ret out hresult =>
    obtain rfl := Option.some.inj h
    rcases a with ⟨i, screenInfo, env⟩ | ⟨i, op⟩ | ⟨c', op⟩ | ⟨ptr, k, v⟩
    case start =>
      simp only [result] at hresult
      repeat' split at hresult
      all_goals first
        | (obtain ⟨rfl, -, -⟩ := Result.ok.inj hresult; rfl)
        | cases hresult
    case client =>
      rw [result] at hresult
      split at hresult
      · rw [call_contexts hresult]
      · cases hresult
    case context =>
      obtain ⟨x, hx⟩ := contextCall_contexts hresult
      rw [hx, Function.update_of_ne]
      rintro rfl
      exact hne op rfl
    case write =>
      rw [result] at hresult
      split at hresult
      · cases hresult
      · obtain ⟨rfl, -, -⟩ := Result.ok.inj hresult
        rfl

/-- What is not passed on does not succeed. -/
theorem passOn_none {op : SurfaceOp} (h : w.passOn c op = .ok w' ret none) : ret ≠ .success := by
  rw [passOn] at h
  split at h
  · obtain ⟨-, rfl, -⟩ := Result.ok.inj h
    simp
  · split at h
    · obtain ⟨-, rfl, -⟩ := Result.ok.inj h
      simp
    · rw [call] at h
      split at h <;> cases h

/-- What is passed on is a call of the current surface. -/
theorem passOn_some {op : SurfaceOp} (h : w.passOn c op = .ok w' ret (some o)) :
    ∃ i, w.target c = some i ∧ (w.surfaces i).apply w.accel op = some o ∧
      w' = w.afterCall i o ∧ o.ret = ret := by
  rcases w.passOn_cases c op with ⟨i, htarget, hcall⟩ | ⟨-, ret', hcall⟩
  · rw [hcall, call] at h
    split at h
    · cases h
    · next o' happly =>
      obtain ⟨rfl, rfl, hout⟩ := Result.ok.inj h
      obtain rfl := Option.some.inj hout
      exact ⟨i, htarget, happly, rfl, rfl⟩
  · rw [hcall] at h
    cases h

end World

/-! ### The plugin -/

namespace Plugin

variable {p q : Plugin} {c s : ℕ} {rc : IOReturn} {out : Option Outcome} {o : PluginOutcome}

/-- The current surface is the one that has been noted, and the records that the plugin keeps
are as they were allocated. -/
structure Inv (p : Plugin) : Prop where
  refs : ∀ s si, (p.blits s).interfaceRef = some si → si.addr = 0 ∧ si.d0 = none
  target : ∀ i, p.target = some i → ∃ s, p.destination = some (s, i)

/-- The invariant is about the current surface, the note of it and the records. -/
theorem Inv.congr (h : p.Inv) (htarget : q.target = p.target)
    (hdestination : q.destination = p.destination)
    (hrefs : ∀ s, (q.blits s).interfaceRef = (p.blits s).interfaceRef) : q.Inv :=
  ⟨fun s si hsi => h.refs s si ((hrefs s).symm.trans hsi),
    fun i hi => hdestination ▸ h.target i (htarget ▸ hi)⟩

/-- A record as it is allocated may replace another one. -/
theorem Inv.setRef (h : p.Inv) {si : Option SurfaceInfo}
    (hsi : ∀ x, si = some x → x.addr = 0 ∧ x.d0 = none) : (p.setRef s si).Inv := by
  refine ⟨fun k x hx => ?_, h.target⟩
  by_cases hk : k = s
  · exact hsi x (by simpa [Plugin.setRef, hk] using hx)
  · exact h.refs k x (by simpa [Plugin.setRef, Function.update_of_ne hk] using hx)

/-- A kernel call is a call of the context. -/
theorem kernelCall_cases {op : ContextOp} (h : p.kernelCall c op = some (rc, out, q)) :
    ∃ w ret, p.world.contextCall c op = .ok w ret out ∧ q = { p with world := w } ∧
      (op ≠ .swapSurface → rc = ret) ∧ (out = none → rc = ret) := by
  unfold kernelCall at h
  split at h
  · next w ret o hcall =>
    cases h
    exact ⟨w, ret, hcall, rfl, fun hne => absurd rfl hne, fun hnone => by cases hnone⟩
  · next op w ret o _ hcall =>
    cases h
    exact ⟨w, rc, hcall, rfl, fun _ => rfl, fun _ => rfl⟩
  · cases h

/-- What is passed on leaves the current surface. -/
theorem kernelCall_passOn {op : ContextOp} {sop : SurfaceOp}
    (hop : p.world.contextCall c op = p.world.passOn c sop)
    (h : p.kernelCall c op = some (rc, out, q)) :
    q.target = p.target ∧ q.destination = p.destination ∧ q.blits = p.blits ∧ q.ga = p.ga := by
  obtain ⟨w, ret, hcall, rfl, -, -⟩ := kernelCall_cases h
  have hcontexts : w.contexts = p.world.contexts := World.passOn_contexts (hop.symm.trans hcall)
  refine ⟨?_, rfl, rfl, rfl⟩
  exact congrArg p.ga.context.bind (funext fun k => World.target_congr (congrFun hcontexts k))

/-- What succeeds of what is passed on calls the current surface. -/
theorem kernelCall_calls {op : ContextOp} {sop : SurfaceOp}
    (hop : p.world.contextCall c op = p.world.passOn c sop)
    (h : p.kernelCall c op = some (.success, out, q)) :
    ∃ i o, p.world.target c = some i ∧ (p.world.surfaces i).apply p.world.accel sop = some o ∧
      out = some o ∧ q.world = p.world.afterCall i o ∧ (op ≠ .swapSurface → o.ret = .success) := by
  obtain ⟨w, ret, hcall, rfl, hret, hnone⟩ := kernelCall_cases h
  rw [hop] at hcall
  rcases out with _ | o
  · -- what is not passed on does not succeed
    obtain rfl := hnone rfl
    exact absurd rfl (World.passOn_none hcall)
  · obtain ⟨i, htarget, happly, rfl, rfl⟩ := World.passOn_some hcall
    exact ⟨i, o, htarget, happly, rfl, rfl, fun hne => (hret hne).symm⟩

variable {found : Option ℕ} {env : Surface.Start3DEnv}

/-- A surface is made the current one: the one that was found, which has the id. -/
theorem vmSetSurface_surface (h : p.vmSetSurface true (some s) found env = some o)
    (hok : ∀ rc ∈ o.kernel, rc = .success) :
    o.plugin = p ∧ o.ret ≠ .success ∨
      o.ret = .success ∧ o.plugin.blits = p.blits ∧ ∃ si i, (p.blits s).interfaceRef = some si ∧
        p.world.answers (si.cgsSurfaceID % 2 ^ 32) i ∧ o.plugin.destination = some (s, i) ∧
        o.plugin.target = some i := by
  unfold vmSetSurface at h
  split at h
  · obtain rfl := Option.some.inj h
    exact .inl ⟨rfl, by simp [refuse]⟩
  · next c hc =>
    simp only [if_true, Option.bind_some] at h
    split at h
    · obtain rfl := Option.some.inj h
      exact .inl ⟨rfl, by simp [refuse]⟩
    · next si hsi =>
      obtain ⟨⟨rc, out, q⟩, hcall, rfl⟩ := Option.map_eq_some_iff.mp h
      obtain ⟨w, ret, hset, rfl, hret, -⟩ := kernelCall_cases hcall
      obtain rfl := hret (by simp)
      by_cases hrc : rc = .success
      · subst hrc
        obtain ⟨x, hx, -, hsuccess⟩ := World.setSurface_cases
          (show p.world.setSurface c si.cgsSurfaceID true _ _ _ found env = _ from hset)
        obtain ⟨i, rfl, hanswers, hcgs, hclient⟩ := hsuccess rfl rfl
        refine .inr ⟨rfl, rfl, si, i, hsi, hanswers, rfl, ?_⟩
        simp [Plugin.target, hc, World.target, hx, hcgs, hclient]
      · exact absurd (hok rc (by simp [hrc])) hrc

/-- The framebuffer is made the destination. -/
theorem vmSetSurface_framebuffer {surface : Option ℕ}
    (h : p.vmSetSurface false surface found env = some o)
    (hok : ∀ rc ∈ o.kernel, rc = .success) :
    o.plugin.target = none ∧ o.plugin.destination = p.destination ∧ o.plugin.blits = p.blits := by
  unfold vmSetSurface at h
  split at h
  · next hc =>
    obtain rfl := Option.some.inj h
    exact ⟨by simp [refuse, Plugin.target, hc], rfl, rfl⟩
  · next c hc =>
    simp only [Bool.false_eq_true, if_false] at h
    obtain ⟨⟨rc, out, q⟩, hcall, rfl⟩ := Option.map_eq_some_iff.mp h
    obtain ⟨w, ret, hset, rfl, hret, -⟩ := kernelCall_cases hcall
    obtain rfl := hret (by simp)
    obtain ⟨x, hx, hcgs, -⟩ := World.setSurface_cases
      (show p.world.setSurface c p.ga.framebufferIndex false false false false none env = _
        from hset)
    by_cases hrc : rc = .success
    · simp [hrc, Plugin.target, hc, World.target, hx, hcgs]
    · exact absurd (hok rc (by simp [hrc])) hrc

/-- `vmSetSurface` keeps the invariant, when the kernel accepts its calls. -/
theorem vmSetSurface_inv {isSurface : Bool} {surface : Option ℕ} (hinv : p.Inv)
    (h : p.vmSetSurface isSurface surface found env = some o)
    (hok : ∀ rc ∈ o.kernel, rc = .success) : o.plugin.Inv := by
  obtain _ | _ := isSurface
  · obtain ⟨htarget, hdestination, hblits⟩ := vmSetSurface_framebuffer h hok
    exact ⟨hblits ▸ hinv.refs, fun i hi => by simp [htarget] at hi⟩
  obtain _ | s := surface
  · unfold vmSetSurface at h
    split at h
    · obtain rfl := Option.some.inj h
      exact hinv
    · cases h
  · rcases vmSetSurface_surface h hok with ⟨hsame, -⟩ | ⟨-, hblits, si, i, -, -, hdest, htarget⟩
    · exact hsame ▸ hinv
    · refine ⟨hblits ▸ hinv.refs, fun j hj => ⟨s, ?_⟩⟩
      rw [htarget] at hj
      rw [hdest, Option.some.inj hj]

/-- The record of a surface that is allocated. -/
theorem setRef_ref (p : Plugin) (s : ℕ) (si : Option SurfaceInfo) :
    ((p.setRef s si).blits s).interfaceRef = si := by
  simp [setRef]

/-- `vmAllocateSurface` makes the surface's own CGS surface the current one, or it leaves the
current surface. -/
theorem vmAllocateSurface_cases {fixedSource hasCGSSurface malloced : Bool} {id : ℕ}
    (hinv : p.Inv)
    (h : p.vmAllocateSurface fixedSource hasCGSSurface s id malloced found env = some o)
    (hok : ∀ rc ∈ o.kernel, rc = .success) :
    o.plugin.Inv ∧ (o.ret = .success → ∃ si i, (o.plugin.blits s).interfaceRef = some si ∧
      si.cgsSurfaceID = id ∧ p.world.answers (id % 2 ^ 32) i ∧
      o.plugin.destination = some (s, i)) := by
  unfold vmAllocateSurface at h
  split at h
  · obtain rfl := Option.some.inj h
    exact ⟨hinv, fun hret => by cases hret⟩
  next c hc =>
  split at h
  · obtain rfl := Option.some.inj h
    exact ⟨hinv, fun hret => by cases hret⟩
  split at h
  · obtain rfl := Option.some.inj h
    exact ⟨hinv, fun hret => by cases hret⟩
  split at h
  swap
  · obtain rfl := Option.some.inj h
    exact ⟨hinv.setRef fun x hx => (by cases hx), fun hret => by cases hret⟩
  obtain ⟨o₁, hset, h⟩ := Option.bind_eq_some_iff.mp h
  have hinv₀ : (p.setRef s (some ⟨none, 0, id⟩)).Inv := hinv.setRef fun x hx => by
    obtain rfl := Option.some.inj hx
    exact ⟨rfl, rfl⟩
  split at h
  · next hfail =>
    obtain rfl := Option.some.inj h
    exact ⟨(vmSetSurface_inv hinv₀ hset hok).setRef fun x hx => (by cases hx),
      fun hret => absurd hret hfail⟩
  next hret₁ =>
  rw [not_not] at hret₁
  have hlocated : (∀ rc ∈ o₁.kernel, rc = .success) → ∃ si i,
      (o₁.plugin.blits s).interfaceRef = some si ∧ si.cgsSurfaceID = id ∧
        p.world.answers (id % 2 ^ 32) i ∧ o₁.plugin.destination = some (s, i) := by
    intro hok₁
    rcases vmSetSurface_surface hset hok₁ with ⟨-, hfail⟩ | ⟨-, hblits, si, i, hsi, hid, hdest, -⟩
    · exact absurd hret₁ hfail
    · obtain rfl : _ = si := Option.some.inj ((setRef_ref p s _).symm.trans hsi)
      exact ⟨_, i, hblits ▸ hsi, rfl, hid, hdest⟩
  split at h
  · obtain ⟨⟨rc, out, q⟩, hscale, rfl⟩ := Option.map_eq_some_iff.mp h
    obtain ⟨htarget, hdest, hblits, -⟩ := kernelCall_passOn rfl hscale
    have hok₁ : ∀ rc ∈ o₁.kernel, rc = .success :=
      fun rc hrc => hok rc (List.mem_append_left _ hrc)
    have hrc : rc = .success := hok rc (by simp)
    have hinv₁ := vmSetSurface_inv hinv₀ hset hok₁
    simp only [hrc, ne_eq, not_true_eq_false, if_false]
    refine ⟨hinv₁.congr htarget hdest fun k => by rw [hblits], fun _ => ?_⟩
    rw [hblits, hdest]
    exact hlocated hok₁
  · obtain rfl := Option.some.inj h
    exact ⟨vmSetSurface_inv hinv₀ hset hok, fun _ => hlocated hok⟩

/-- So does `vmFreeSurface`, and it makes no surface the current one. -/
theorem vmFreeSurface_inv (hinv : p.Inv) (h : p.vmFreeSurface s = some o)
    (hok : ∀ rc ∈ o.kernel, rc = .success) :
    o.plugin.Inv ∧ (p.target = none → o.plugin.target = none) := by
  unfold vmFreeSurface at h
  split at h
  swap
  · obtain rfl := Option.some.inj h
    exact ⟨hinv, fun htarget => htarget⟩
  next c si hc hsi =>
  obtain ⟨o₁, hreset, rfl⟩ := Option.map_eq_some_iff.mp h
  have hok₁ : ∀ rc ∈ o₁.kernel, rc = .success :=
    fun rc hrc => hok rc (List.mem_append_left _ hrc)
  split at hreset
  · have hinv₀ : (p.setRef s (some { si with cgsSurfaceID := 0 })).Inv :=
      hinv.setRef fun x hx => Option.some.inj hx ▸ hinv.refs s si hsi
    exact ⟨(vmSetSurface_inv hinv₀ hreset hok₁).setRef fun x hx => (by cases hx),
      fun _ => (vmSetSurface_framebuffer hreset hok₁).1⟩
  · obtain rfl := Option.some.inj hreset
    exact ⟨hinv.setRef fun x hx => (by cases hx), fun htarget => htarget⟩

/-- What a call of the plugin passes on to surface `i`. -/
def Passes (p : Plugin) (i : ℕ) (op : SurfaceOp) (q : Plugin) : Prop :=
  ∃ called, (p.world.surfaces i).apply p.world.accel op = some called ∧
    q.world = p.world.afterCall i called

/-- A lock goes to the current surface, and returns where that is mapped. -/
theorem vmLockSurface_cases {env : BackingEnv} {trick : Option (Option ℕ)} (hinv : p.Inv)
    (h : p.vmLockSurface s env trick = some o) :
    o.plugin.Inv ∧ (o.ret = .success → ∃ i m, p.target = some i ∧
      p.Passes i (.contextLock true env trick) o.plugin ∧
      (o.plugin.world.surfaces i).backing.map1 = some m ∧ o.address = some m.address) := by
  unfold vmLockSurface at h
  split at h
  swap
  · obtain rfl := Option.some.inj h
    exact ⟨hinv, fun hret => by cases hret⟩
  next c si hc hsi =>
  rw [if_neg (by simp [(hinv.refs s si hsi).1])] at h
  obtain ⟨⟨rc, out, q⟩, hcall, rfl⟩ := Option.map_eq_some_iff.mp h
  obtain ⟨htarget, hdest, hblits, -⟩ := kernelCall_passOn rfl hcall
  have hinv₁ : q.Inv := hinv.congr htarget hdest fun k => by rw [hblits]
  by_cases hrc : rc = .success
  · subst hrc
    obtain ⟨i, called, hi, happly, rfl, hworld, hret⟩ := kernelCall_calls rfl hcall
    obtain ⟨pin, hpin, haddress⟩ := Surface.contextLock_pins c happly (hret (by simp))
    obtain ⟨m, hmap, rfl⟩ := Option.map_eq_some_iff.mp
      (show called.surface.backing.map1.map Pin.mapped = some pin from hpin)
    obtain ⟨memory, hmemory, hfirst⟩ := Option.map_eq_some_iff.mp
      (show called.memory.map Prod.fst = some m.address from haddress)
    refine ⟨hinv₁.congr rfl rfl fun k => ?_, fun _ => ⟨i, m, ?_, ⟨called, happly, hworld⟩, ?_, ?_⟩⟩
    · by_cases hk : k = s <;> simp [hk]
    · simpa [Plugin.target, hc] using hi
    · simp [hworld, World.afterCall, hmap]
    · simp [hmemory, hfirst]
  · simp [hrc, hinv₁]

/-- An unlock and a swap go to the current surface. -/
theorem passes_of_kernelCall {op : ContextOp} {sop : SurfaceOp} (hinv : p.Inv)
    (hc : p.ga.context = some c) (hop : p.world.contextCall c op = p.world.passOn c sop)
    (h : p.kernelCall c op = some (rc, out, q)) :
    q.Inv ∧ (rc = .success → ∃ i, p.target = some i ∧ p.Passes i sop q) := by
  obtain ⟨htarget, hdest, hblits, -⟩ := kernelCall_passOn hop h
  refine ⟨hinv.congr htarget hdest fun k => by rw [hblits], ?_⟩
  rintro rfl
  obtain ⟨i, called, hi, happly, -, hworld, -⟩ := kernelCall_calls hop h
  exact ⟨i, by simpa [Plugin.target, hc] using hi, called, happly, hworld⟩

/-- An unlock that succeeds has been one of the current surface. -/
theorem vmUnlockSurface_cases (hinv : p.Inv) (h : p.vmUnlockSurface s = some o) :
    o.plugin.Inv ∧ (o.ret = .success →
      ∃ i, p.target = some i ∧ p.Passes i .contextUnlock o.plugin) := by
  unfold vmUnlockSurface at h
  split at h
  · next c si hc hsi =>
    rw [if_neg (by simp [(hinv.refs s si hsi).1])] at h
    obtain ⟨⟨rc, out, q⟩, hcall, rfl⟩ := Option.map_eq_some_iff.mp h
    exact passes_of_kernelCall hinv hc rfl hcall
  · obtain rfl := Option.some.inj h
    exact ⟨hinv, fun hret => by cases hret⟩

/-- A swap that succeeds has flushed the video of the current surface. -/
theorem vmSwapSurface_cases (hinv : p.Inv) (h : p.vmSwapSurface s = some o) :
    o.plugin.Inv ∧ (o.ret = .success →
      ∃ i, p.target = some i ∧ p.Passes i .flushVideo o.plugin) := by
  unfold vmSwapSurface at h
  split at h
  · next c si hc hsi =>
    obtain ⟨⟨rc, out, q⟩, hcall, rfl⟩ := Option.map_eq_some_iff.mp h
    exact passes_of_kernelCall hinv hc rfl hcall
  · obtain rfl := Option.some.inj h
    exact ⟨hinv, fun hret => by cases hret⟩

/-- **Step lemma.** While the kernel calls succeed, the current surface is the one that has been
noted. -/
theorem Inv.step {a : PluginAction} (hinv : p.Inv) (hok : p.Succeeds a)
    (hstep : p.step a = some q) : q.Inv := by
  rcases a with k | ⟨s, format, width, height⟩ | a
  case call =>
    obtain ⟨o, ho, rfl⟩ := Option.map_eq_some_iff.mp hstep
    have hkernel : ∀ rc ∈ o.kernel, rc = .success := hok o ho
    rcases k with ⟨fixed, has, s, id, malloced, found, env⟩ | s | ⟨s, env, trick⟩ | s | s |
      ⟨isSurface, surface, found, env⟩
    · exact (vmAllocateSurface_cases hinv ho hkernel).1
    · exact (vmFreeSurface_inv hinv ho hkernel).1
    · exact (vmLockSurface_cases hinv ho).1
    · exact (vmUnlockSurface_cases hinv ho).1
    · exact (vmSwapSurface_cases hinv ho).1
    · exact vmSetSurface_inv hinv ho hkernel
  case describe =>
    obtain rfl := Option.some.inj hstep
    refine hinv.congr rfl rfl fun k => ?_
    by_cases hk : k = s <;> simp [hk]
  case other =>
    simp only [Plugin.step, Option.ite_none_left_eq_some] at hstep
    obtain ⟨hother, hstep⟩ := hstep
    obtain ⟨w, hw, rfl⟩ := Option.map_eq_some_iff.mp hstep
    refine hinv.congr ?_ rfl fun k => rfl
    rcases hc : p.ga.context with _ | c
    · simp [Plugin.target, hc]
    · have hne : ∀ op, a ≠ .context c op := by
        rintro op rfl
        exact hother (by simp [ofContext, hc])
      simp [Plugin.target, hc, World.target_congr (World.step_contexts hne hw)]

/-- What the calls for surfaces act on. -/
structure ActsOnDestination (p : Plugin) : Prop where
  /-- An allocation makes the surface's own CGS surface the destination. -/
  allocate : ∀ fixedSource hasCGSSurface s id malloced found env o,
    p.vmAllocateSurface fixedSource hasCGSSurface s id malloced found env = some o →
    (∀ rc ∈ o.kernel, rc = .success) → o.ret = .success →
    ∃ si i, (o.plugin.blits s).interfaceRef = some si ∧ si.cgsSurfaceID = id ∧
      p.world.answers (id % 2 ^ 32) i ∧ o.plugin.destination = some (s, i)
  /-- And so does a call for the destination. -/
  setDestination : ∀ s found env o, p.vmSetDestination true (some s) found env = some o →
    (∀ rc ∈ o.kernel, rc = .success) → o.ret = .success →
    ∃ si i, (p.blits s).interfaceRef = some si ∧ p.world.answers (si.cgsSurfaceID % 2 ^ 32) i ∧
      o.plugin.destination = some (s, i)
  /-- A lock is a lock of the destination, whichever surface it names, and returns where the
  memory of the destination is mapped. -/
  lock : ∀ s env trick o, p.vmLockSurface s env trick = some o → o.ret = .success →
    ∃ s' i m, p.destination = some (s', i) ∧ p.Passes i (.contextLock true env trick) o.plugin ∧
      (o.plugin.world.surfaces i).backing.map1 = some m ∧ o.address = some m.address
  unlock : ∀ s o, p.vmUnlockSurface s = some o → o.ret = .success →
    ∃ s' i, p.destination = some (s', i) ∧ p.Passes i .contextUnlock o.plugin
  swap : ∀ s o, p.vmSwapSurface s = some o → o.ret = .success →
    ∃ s' i, p.destination = some (s', i) ∧ p.Passes i .flushVideo o.plugin
  /-- To free a surface leaves the framebuffer the destination. -/
  free : ∀ s o, p.vmFreeSurface s = some o → (∀ rc ∈ o.kernel, rc = .success) →
    p.target = none → o.plugin.target = none

/-- **What the plugin's calls act on.** After every run in which the kernel calls succeed, a
lock, an unlock and a swap that succeed act on the surface that has been made the destination
last. -/
theorem surface_calls_act_on_destination {t : Plugin} {as : List PluginAction}
    (hstart : p.Started) (hrun : Run Plugin.step Plugin.Succeeds p as t) :
    t.ActsOnDestination := by
  have hinv : t.Inv := hrun.invariant (fun _ _ _ hI hC hstep => hI.step hC hstep)
    ⟨fun s si hsi => by simp [hstart.refs] at hsi, fun i hi => by simp [hstart.target] at hi⟩
  constructor
  case allocate =>
    intro fixedSource hasCGSSurface s id malloced found env o h hok hret
    exact (vmAllocateSurface_cases hinv h hok).2 hret
  case setDestination =>
    intro s found env o h hok hret
    rcases vmSetSurface_surface h hok with ⟨-, hfail⟩ | ⟨-, -, si, i, hsi, hid, hdest, -⟩
    · exact absurd hret hfail
    · exact ⟨si, i, hsi, hid, hdest⟩
  case lock =>
    intro s env trick o h hret
    obtain ⟨i, m, hi, hpasses, hmap, haddress⟩ := (vmLockSurface_cases hinv h).2 hret
    obtain ⟨s', hdest⟩ := hinv.target i hi
    exact ⟨s', i, m, hdest, hpasses, hmap, haddress⟩
  case unlock =>
    intro s o h hret
    obtain ⟨i, hi, hpasses⟩ := (vmUnlockSurface_cases hinv h).2 hret
    obtain ⟨s', hdest⟩ := hinv.target i hi
    exact ⟨s', i, hdest, hpasses⟩
  case swap =>
    intro s o h hret
    obtain ⟨i, hi, hpasses⟩ := (vmSwapSurface_cases hinv h).2 hret
    obtain ⟨s', hdest⟩ := hinv.target i hi
    exact ⟨s', i, hdest, hpasses⟩
  case free => exact fun s o h hok => (vmFreeSurface_inv hinv h hok).2

instance (p : Plugin) (a : PluginAction) : Decidable (p.Succeeds a) :=
  match a with
  | .call k => decidable_of_iff
      (((p.apply k).all fun o => o.kernel.all fun rc => decide (rc = .success)) = true) <| by
      simp [Succeeds, Option.all_eq_true]
  | .describe .. => .isTrue trivial
  | .other _ => .isTrue trivial

/-- A plugin on the small accelerator. -/
def smallPlugin : Plugin where
  ga := ⟨some 0, 0, 2, none⟩
  blits := fun _ => ⟨none, .bgra32, 16, 16, 0, 0⟩
  world := smallWorld
  destination := none

/-- Two CGS surfaces are opened, and a surface is allocated for each. -/
def twoSurfaces : List PluginAction :=
  [.other (.start 0 ⟨0x1000, 16, 16, 0x100000, 64⟩ ⟨true, true, false, .success⟩),
    .other (.client 0 (.setIdMode 7 ⟨false, true, .depth8888⟩ .success)),
    .other (.client 0 (.setScale (some (⟨0, 0, 16, 16⟩, 16, 16)))),
    .other (.start 1 ⟨0x1000, 16, 16, 0x100000, 64⟩ ⟨true, true, false, .success⟩),
    .other (.client 1 (.setIdMode 9 ⟨false, true, .depth8888⟩ .success)),
    .other (.client 1 (.setScale (some (⟨0, 0, 16, 16⟩, 16, 16)))),
    .call (.allocateSurface false true 0 7 true (some 0) ⟨true, true, false, .success⟩),
    .call (.allocateSurface false true 1 9 true (some 1) ⟨true, true, false, .success⟩)]

/-- The CGS surface of the second one is the destination. -/
theorem surface_calls_act_on_destination_session : ∃ t,
    Run Plugin.step Plugin.Succeeds smallPlugin twoSurfaces t ∧ t.destination = some (1, 1) ∧
      t.ActsOnDestination := by
  have heval : (twoSurfaces.foldlM (guarded Plugin.step Plugin.Succeeds) smallPlugin).map
      Plugin.destination = some (some (1, 1)) := by
    decide +kernel
  obtain ⟨t, hfold, hdest⟩ := Option.map_eq_some_iff.mp heval
  have hrun := run_of_guarded hfold
  exact ⟨t, hrun, hdest, surface_calls_act_on_destination ⟨rfl, fun _ => rfl⟩ hrun⟩

/-- The program locks its first surface, and the second one is locked. When it frees the first
one, the second one is the destination no more. -/
theorem lock_acts_on_other_surface : ∃ t o o',
    Run Plugin.step Plugin.Succeeds smallPlugin twoSurfaces t ∧
      ((t.blits 0).interfaceRef.map SurfaceInfo.cgsSurfaceID = some 7 ∧ t.world.answers 7 0) ∧
      (t.vmLockSurface 0 willing none = some o ∧ o.ret = .success ∧ o.address = some 0x7000) ∧
      (o.plugin.world.surfaces 0).lockedContext = false ∧
      (o.plugin.world.surfaces 0).backing.map1 = none ∧
      (o.plugin.world.surfaces 1).lockedContext = true ∧
      (t.vmFreeSurface 0 = some o' ∧ t.target = some 1 ∧ o'.plugin.target = none) := by
  have heval : ((twoSurfaces.foldlM (guarded Plugin.step Plugin.Succeeds) smallPlugin).bind
      fun t => (t.vmLockSurface 0 willing none).bind fun o => (t.vmFreeSurface 0).map fun o' =>
        ([(t.blits 0).interfaceRef.map SurfaceInfo.cgsSurfaceID, o.address, t.target,
            o'.plugin.target],
          [t.world.answers 7 0, decide (o.ret = .success),
            (o.plugin.world.surfaces 0).lockedContext,
            (o.plugin.world.surfaces 0).backing.map1.isSome,
            (o.plugin.world.surfaces 1).lockedContext])) =
      some ([some 7, some 0x7000, some 1, none], [true, true, false, false, true]) := by
    decide +kernel
  obtain ⟨t, hfold, heval⟩ := Option.bind_eq_some_iff.mp heval
  obtain ⟨o, hlock, heval⟩ := Option.bind_eq_some_iff.mp heval
  obtain ⟨o', hfree, heval⟩ := Option.map_eq_some_iff.mp heval
  simp only [Prod.mk.injEq, List.cons.injEq, decide_eq_true_eq, and_true,
    Option.isSome_eq_false_iff, Option.isNone_iff_eq_none] at heval
  obtain ⟨⟨hid, haddress, htarget, hreset⟩, hanswers, hret, hown, hmap, hother⟩ := heval
  exact ⟨t, o, o', run_of_guarded hfold, ⟨hid, hanswers⟩, ⟨hlock, hret, haddress⟩, hown, hmap,
    hother, hfree, htarget, hreset⟩

end Plugin

end DockerMacos
